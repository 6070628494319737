/-!
# Tokens

A token is a piece of source text together with what kind of piece it is. The reader goes by the
kind alone, so a token may carry any text; the tokens cut out of a source text carry exactly the
characters they were cut from. A kind that the lexer does not know is possible in a token made by
hand.
-/

namespace SmallLisp

/-- The three kinds of bracket. -/
inductive Bracket
  | round | square | curly
deriving DecidableEq, Repr

/-- What kind of piece a token is. -/
inductive TokenKind
  /-- A remark up to the end of its line. -/
  | comment
  /-- The mark before a quoted form. -/
  | quote
  /-- An opening bracket. -/
  | opening (bracket : Bracket)
  /-- A closing bracket. -/
  | closing (bracket : Bracket)
  /-- A string with its quotes. -/
  | string
  /-- A symbol, keyword, number or literal. -/
  | atom
  /-- A kind that starts no form. -/
  | other (name : String)
deriving DecidableEq, Repr

namespace TokenKind

/-- The name of the kind. -/
def name : TokenKind → String
  | comment => "comment"
  | quote => "quote"
  | opening .round => "lparen"
  | opening .square => "lbracket"
  | opening .curly => "lbrace"
  | closing .round => "rparen"
  | closing .square => "rbracket"
  | closing .curly => "rbrace"
  | string => "string"
  | atom => "atom"
  | other name => name

/-- The kinds that the lexer tells apart. -/
def known : List TokenKind := [
  comment, quote, opening .round, closing .round, opening .square, closing .square, opening .curly,
  closing .curly, string, atom]

/-- The kind of that name. -/
def ofName (name : String) : TokenKind :=
  (known.find? fun kind => kind.name == name).getD (other name)

/-- A name survives the way to its kind and back. -/
theorem name_ofName (name : String) : (ofName name).name = name := by
  unfold ofName
  cases h : known.find? fun kind => kind.name == name with
  | none => rfl
  | some kind => simpa using List.find?_some h

end TokenKind

/-- A piece of source text. -/
structure Token where
  /-- What kind of piece it is. -/
  kind : TokenKind
  /-- The piece itself. -/
  text : String
deriving DecidableEq, Repr

end SmallLisp
