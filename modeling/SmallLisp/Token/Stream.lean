import SmallLisp.Token.Lexer

/-!
# A stream of tokens

The reader takes tokens one at a time and sometimes has to look at the next one without taking it.
The stream holds at most one token that was looked at, then the tokens still to come, then the
failure that stands behind them. That failure is reported once, when the stream gets to it; from
then on the stream is at its end.

* `peek`: the next token, which stays.
* `advance`: the next token, which is taken.
-/

namespace SmallLisp

/-- Tokens to be taken, and what stands behind them. -/
structure TokenStream where
  /-- The token that was looked at and not taken. -/
  lookahead : Option Token
  /-- The tokens behind it. -/
  rest : List Token
  /-- The failure behind the last token, until it is reported. -/
  failure : Option ReadError
deriving DecidableEq, Repr

namespace TokenStream

/-- The tokens of a text. -/
def ofScan (scan : Lexer.Scan) : TokenStream :=
  ⟨none, scan.tokens, scan.failure⟩

/-- A sequence of tokens made by hand. -/
def ofTokens (tokens : List Token) : TokenStream :=
  ⟨none, tokens, none⟩

/-- All tokens still to be taken. -/
def pending (stream : TokenStream) : List Token :=
  stream.lookahead.toList ++ stream.rest

/-- The next token, which is taken; `none` at the end. -/
def advance : TokenStream → Except ReadError (Option Token) × TokenStream
  | ⟨some token, rest, failure⟩ => (.ok (some token), ⟨none, rest, failure⟩)
  | ⟨none, token :: rest, failure⟩ => (.ok (some token), ⟨none, rest, failure⟩)
  | ⟨none, [], some reason⟩ => (.error reason, ⟨none, [], none⟩)
  | ⟨none, [], none⟩ => (.ok none, ⟨none, [], none⟩)

/-- The next token, which stays; `none` at the end. -/
def peek : TokenStream → Except ReadError (Option Token) × TokenStream
  | ⟨some token, rest, failure⟩ => (.ok (some token), ⟨some token, rest, failure⟩)
  | ⟨none, token :: rest, failure⟩ => (.ok (some token), ⟨some token, rest, failure⟩)
  | ⟨none, [], some reason⟩ => (.error reason, ⟨none, [], none⟩)
  | ⟨none, [], none⟩ => (.ok none, ⟨none, [], none⟩)

/-- Looking takes nothing. -/
theorem pending_peek (stream : TokenStream) : stream.peek.2.pending = stream.pending := by
  rcases stream with ⟨_ | token, _ | ⟨next, rest⟩, _ | reason⟩ <;> rfl

/-- A token that is taken was the first one pending, and the others stay. -/
theorem pending_advance {stream : TokenStream} {token : Token}
    (h : stream.advance.1 = .ok (some token)) :
    stream.pending = token :: stream.advance.2.pending := by
  rcases stream with ⟨_ | looked, _ | ⟨next, rest⟩, _ | reason⟩ <;>
    simp_all [advance, pending]

/-- What is looked at is what is taken next. -/
theorem advance_peek (stream : TokenStream) (h : stream.failure = none) :
    stream.peek.2.advance = stream.advance := by
  rcases stream with ⟨_ | looked, _ | ⟨next, rest⟩, _ | reason⟩ <;>
    simp_all [advance, peek]

end TokenStream

end SmallLisp
