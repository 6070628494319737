import SmallLisp.Token
import SmallLisp.ReadError
import SmallLisp.Text.Blank

/-!
# Cutting a text into tokens

The lexer walks over the characters once, from left to right, and is at every moment in one of a
few modes: between tokens, inside a remark, an atom or a string, behind a backslash in a string, or
behind a backslash and a newline in a string. A character either lengthens the token at hand, ends
it, or both ends it and begins the next one.

* `opening`: what a character does between two tokens.
* `step`: what it does in any mode.
* `scan`: the tokens of a text and, if the text cannot be cut to its end, the reason. The tokens cut
  before the failure stay valid.

The only thing that can go wrong is a string. If the text ends inside it, the string is unfinished.
If a backslash in it stands at the end of a line, the string is broken, and the failure is reported
at its opening quote, unless that newline is the last character of the text: then the string counts
as unfinished.
-/

namespace SmallLisp.Lexer

open SmallLisp.Text

/-- Where the lexer is; `seen` holds the characters of the token at hand, the last one first. -/
inductive Mode
  /-- Between two tokens. -/
  | between
  /-- In a remark. -/
  | comment (seen : List Char)
  /-- In an atom. -/
  | atom (seen : List Char)
  /-- In a string that was opened at `start`. -/
  | string (start : Nat) (seen : List Char)
  /-- Behind a backslash in such a string. -/
  | escape (start : Nat) (seen : List Char)
  /-- Behind a backslash and a newline in such a string. -/
  | broken (start : Nat)
deriving DecidableEq, Repr

/-- The tokens of a text, and the reason if it could not be cut to its end. -/
structure Scan where
  /-- The tokens, in order. -/
  tokens : List Token
  /-- What is wrong behind the last token. -/
  failure : Option ReadError
deriving DecidableEq, Repr

/-- The same with more tokens in front. -/
def Scan.after (emitted : List Token) (scan : Scan) : Scan :=
  { scan with tokens := emitted ++ scan.tokens }

/-! ## Characters -/

/-- The character only separates tokens. -/
def isSeparator (c : Char) : Bool :=
  isBlank c || c == ','

/-- The character is a token by itself, or begins one that is not an atom. -/
def isDelimiter (c : Char) : Bool :=
  c == '(' || c == ')' || c == '[' || c == ']' || c == '\x7b' || c == '\x7d' || c == '\'' ||
    c == '"' || c == ';'

/-- The character can stand in an atom. -/
def isAtomChar (c : Char) : Bool :=
  !isSeparator c && !isDelimiter c

/-- The kind of the one-character token that the character is. -/
def soleKind? : Char → Option TokenKind
  | '\'' => some .quote
  | '(' => some (.opening .round)
  | ')' => some (.closing .round)
  | '[' => some (.opening .square)
  | ']' => some (.closing .square)
  | '\x7b' => some (.opening .curly)
  | '\x7d' => some (.closing .curly)
  | _ => none

/-! ## Steps -/

/-- The token of the characters seen. -/
def token (kind : TokenKind) (seen : List Char) : Token :=
  ⟨kind, String.ofList seen.reverse⟩

/-- What a character does between two tokens. -/
def opening (position : Nat) (c : Char) : Mode × List Token :=
  if isSeparator c then (.between, [])
  else if c = ';' then (.comment [c], [])
  else if c = '"' then (.string position [c], [])
  else
    match soleKind? c with
    | some kind => (.between, [token kind [c]])
    | none => (.atom [c], [])

/-- What a character does: the mode behind it and the tokens that it completes. -/
def step (mode : Mode) (position : Nat) (c : Char) : Except ReadError (Mode × List Token) :=
  match mode with
  | .between => .ok (opening position c)
  | .comment seen =>
    if c = '\n' then .ok (.between, [token .comment seen]) else .ok (.comment (c :: seen), [])
  | .atom seen =>
    if isAtomChar c then .ok (.atom (c :: seen), [])
    else
      let (next, emitted) := opening position c
      .ok (next, token .atom seen :: emitted)
  | .string start seen =>
    if c = '"' then .ok (.between, [token .string (c :: seen)])
    else if c = '\\' then .ok (.escape start (c :: seen), [])
    else .ok (.string start (c :: seen), [])
  | .escape start seen =>
    if c = '\n' then .ok (.broken start, []) else .ok (.string start (c :: seen), [])
  | .broken start => .error (.unexpectedChar start '"')

/-- What the end of the text does. -/
def finish : Mode → Scan
  | .between => ⟨[], none⟩
  | .comment seen => ⟨[token .comment seen], none⟩
  | .atom seen => ⟨[token .atom seen], none⟩
  | .string .. => ⟨[], some .endOfString⟩
  | .escape .. => ⟨[], some .endOfString⟩
  | .broken _ => ⟨[], some .endOfString⟩

/-- Cuts the rest of a text, from a mode and a position in it. -/
def scanFrom : Mode → Nat → List Char → Scan
  | mode, _, [] => finish mode
  | mode, position, c :: cs =>
    match step mode position c with
    | .ok (next, emitted) => (scanFrom next (position + 1) cs).after emitted
    | .error reason => ⟨[], some reason⟩

/-- Cuts a text into tokens. -/
def scan (source : String) : Scan :=
  scanFrom .between 0 source.toList

end SmallLisp.Lexer
