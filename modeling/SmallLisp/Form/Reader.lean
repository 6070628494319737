import SmallLisp.Form.Atom
import SmallLisp.Text.Escape
import SmallLisp.Token.Stream
import SmallLisp.Value.Entries

/-!
# Reading forms

A form is an atom, a string, a remark, a quoted form, or forms between brackets. The reader keeps
the constructs that are open at the moment on a stack, the innermost one on top, and each token
either completes a form or opens or closes a construct:

* `accept`: what one token does to the stack.
* `deliver`: a completed form goes to the innermost open construct. Completing a quoted form
  completes the quotation too, so this can go on outwards; with nothing open it is the form that
  was asked for.
* `readForm`: one form off a stream. A token that cannot stand where it stands is taken and
  reported; at the end of the stream nothing is taken.
* `drain`: all forms off a stream, up to the first thing that is wrong.

A quoted form `'x` is the list `(quote x)`, and a remark `; text` the list `(comment " text")`. It
counts as a form wherever it stands.
-/

namespace SmallLisp

/-- A construct that is open. -/
inductive Pending
  /-- A quotation mark without its form. -/
  | quote
  /-- An opening bracket with its text and the items so far, the last one first. -/
  | group (bracket : Bracket) (opening : String) (items : List Value)
deriving Repr

/-- Where the reader stands behind a token. -/
inductive Progress
  /-- The form is complete. -/
  | complete (form : Value)
  /-- These constructs are open. -/
  | more (stack : List Pending)
deriving Repr

/-- Forms in order, and what is wrong behind them. -/
structure Reading where
  /-- The forms. -/
  forms : List Value
  /-- What is wrong behind the last one. -/
  failure : Option ReadError
deriving Repr

namespace Reader

/-! ## One token -/

/-- Hands a completed form to the innermost open construct. -/
def deliver : Value → List Pending → Progress
  | form, [] => .complete form
  | form, .quote :: stack => deliver (.list [.symbol "quote", form]) stack
  | form, .group bracket text items :: stack => .more (.group bracket text (form :: items) :: stack)

/-- The collection written between brackets of that kind. -/
def collect (bracket : Bracket) (items : List Value) : Except ReadError Value :=
  match bracket with
  | .round => .ok (.list items)
  | .square => .ok (.vector items)
  | .curly =>
    match Entries.ofFlat? items with
    | some entries => .ok (.map entries)
    | none => .error (.oddMap items.length)

/-- The string that a string token denotes: what is between its first and its last character. -/
def stringValue (text : String) : Except ReadError String :=
  match Text.unescape text.toList.tail.dropLast with
  | .ok cs => .ok (String.ofList cs)
  | .error .unsupported => .error .unsupportedEscape
  | .error .dangling => .error .danglingEscape

/-- The form that a remark denotes. -/
def remark (text : String) : Value :=
  .list [.symbol "comment", .str (String.ofList text.toList.tail)]

/-- What a closing bracket does. -/
def close (bracket : Bracket) (text : String) : List Pending → Except ReadError Progress
  | .group innermost _ items :: stack =>
    if innermost = bracket then do
      let form ← collect bracket items.reverse
      return deliver form stack
    else .error (.unexpected text)
  | _ => .error (.unexpected text)

/-- What a token does to the open constructs. -/
def accept (token : Token) (stack : List Pending) : Except ReadError Progress :=
  match token.kind with
  | .atom => (Atom.read token.text).map fun form => deliver form stack
  | .string => (stringValue token.text).map fun text => deliver (.str text) stack
  | .comment => .ok (deliver (remark token.text) stack)
  | .quote => .ok (.more (.quote :: stack))
  | .opening bracket => .ok (.more (.group bracket token.text [] :: stack))
  | .closing bracket => close bracket token.text stack
  | .other name => .error (.unknownToken name token.text)

/-- What the end of the tokens means for the innermost open construct. -/
def atEnd : List Pending → ReadError
  | .group _ text _ :: _ => .unmatched text
  | _ => .endOfInput

/-! ## Streams -/

/-- Reads on with these constructs open, to the end of one form. -/
def readFrom : List Pending → List Token → Option ReadError →
    Except ReadError Value × TokenStream
  | stack, [], failure => (.error (failure.getD (atEnd stack)), ⟨none, [], none⟩)
  | stack, token :: rest, failure =>
    match accept token stack with
    | .ok (.more stack) => readFrom stack rest failure
    | .ok (.complete form) => (.ok form, ⟨none, rest, failure⟩)
    | .error reason => (.error reason, ⟨none, rest, failure⟩)

/-- Takes one form off the stream. -/
def readForm (stream : TokenStream) : Except ReadError Value × TokenStream :=
  readFrom [] stream.pending stream.failure

/-- A string token that ends inside an escape interrupts the reading of all forms. -/
def interrupting : ReadError → ReadError
  | .danglingEscape => .interrupted
  | reason => reason

/-- Reads on with these constructs open, to the end of the tokens. -/
def drainFrom : List Pending → List Token → Option ReadError → Reading × TokenStream
  | [], [], failure => (⟨[], failure⟩, ⟨none, [], none⟩)
  | stack, [], failure => (⟨[], some (failure.getD (atEnd stack))⟩, ⟨none, [], none⟩)
  | stack, token :: rest, failure =>
    match accept token stack with
    | .ok (.more stack) => drainFrom stack rest failure
    | .ok (.complete form) =>
      let (reading, left) := drainFrom [] rest failure
      (⟨form :: reading.forms, reading.failure⟩, left)
    | .error reason => (⟨[], some (interrupting reason)⟩, ⟨none, rest, failure⟩)

/-- The next token is accepted, and what comes of it goes on with the rest. -/
theorem drainFrom_cons (stack : List Pending) (token : Token) (rest : List Token)
    (failure : Option ReadError) :
    drainFrom stack (token :: rest) failure =
      match accept token stack with
      | .ok (.more stack) => drainFrom stack rest failure
      | .ok (.complete form) =>
        (⟨form :: (drainFrom [] rest failure).1.forms, (drainFrom [] rest failure).1.failure⟩,
          (drainFrom [] rest failure).2)
      | .error reason => (⟨[], some (interrupting reason)⟩, ⟨none, rest, failure⟩) := by
  cases stack <;> rfl

/-- Takes all forms off the stream. -/
def drain (stream : TokenStream) : Reading × TokenStream :=
  drainFrom [] stream.pending stream.failure

/-! ## Texts -/

/-- The forms of a text, up to the first thing that is wrong with it. -/
def readText (source : String) : Reading :=
  (drain (.ofScan (Lexer.scan source))).1

/-- The forms of a text in which nothing is wrong. -/
def readForms (source : String) : Except ReadError (List Value) :=
  match readText source with
  | ⟨forms, none⟩ => .ok forms
  | ⟨_, some reason⟩ => .error reason

/-- Forms as one form: several are wrapped in a `do`, and none at all is `nil`. -/
def asProgram : List Value → Value
  | [] => .nil
  | [form] => form
  | forms => .list (.symbol "do" :: forms)

/-- The text as one form. -/
def readProgram (source : String) : Except ReadError Value :=
  (readForms source).map asProgram

end Reader

end SmallLisp
