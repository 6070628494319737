import SmallLisp.Text.Literal

/-!
# What can be wrong with a source text

One type for all that can go wrong between a text and the forms it holds, with the words in which it
is reported. Three of the cases have no words of their own: a numeral with too many digits, and the
two in which a string token ends inside an escape, which no token cut out of a text ever does.
-/

namespace SmallLisp

/-- Why a text, or a sequence of tokens, could not be read. -/
inductive ReadError
  /-- A character starts no token; in fact a double quote whose string is broken by a newline. -/
  | unexpectedChar (position : Nat) (c : Char)
  /-- The text ends inside a string. -/
  | endOfString
  /-- A backslash in a string stands before a character that needs none. -/
  | unsupportedEscape
  /-- A string token ends with a backslash. -/
  | danglingEscape
  /-- The same, met while all forms were being read. -/
  | interrupted
  /-- A whole number has too many digits. -/
  | longNumeral
  /-- A form was expected. -/
  | endOfInput
  /-- The input ends inside a bracket. -/
  | unmatched (opening : String)
  /-- A closing bracket stands where none can. -/
  | unexpected (closing : String)
  /-- A token of a kind that starts no form. -/
  | unknownToken (kind text : String)
  /-- The entries between curly brackets are odd in number. -/
  | oddMap (count : Nat)
deriving DecidableEq, Repr

/-- The words of the report. -/
def ReadError.message : ReadError → String
  | unexpectedChar position c =>
    s!"Unexpected char at {position}: {Text.literal (String.singleton c)}"
  | endOfString => "Unexpected end of string"
  | unsupportedEscape => "Escape sequences besides \\\\ and \\\" are not supported"
  | danglingEscape => ""
  | interrupted => ""
  | longNumeral => ""
  | endOfInput => "Unexpected end of input"
  | unmatched opening => s!"Unmatched {Text.literal opening}"
  | unexpected closing => s!"Unexpected {Text.literal closing}"
  | unknownToken kind text => s!"Unknown token: {kind} {text}"
  | oddMap count => s!"Map literal requires an even number of entries; got {count}"

end SmallLisp
