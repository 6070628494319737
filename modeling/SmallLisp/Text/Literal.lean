import SmallLisp.Text.Printable

/-!
# Texts quoted in messages

A message that speaks of a text shows it as a *literal*, so that a reader sees where it starts and
ends and which characters it holds:

* `literal text`: the text between quotation marks. The mark is `'`; it is `"` for a text that holds
  a `'` and no `"`, so that fewer marks have to be escaped.
* `literalChar mark c`: one character of it. The mark itself and the backslash are escaped, the
  three common controls have a letter, every other hidden character is written by its number in two,
  four or eight hexadecimal digits, and a printable character stands for itself.
-/

namespace SmallLisp.Text

/-- The last `width` hexadecimal digits of the number, the highest first. -/
def hexDigits : Nat → Nat → List Char
  | 0, _ => []
  | width + 1, code => hexDigits width (code / 16) ++ [Nat.digitChar (code % 16)]

/-- A hidden character by its number, in the shortest of the three widths that holds it. -/
def hexEscape (c : Char) : List Char :=
  if c.toNat < 0x100 then '\\' :: 'x' :: hexDigits 2 c.toNat
  else if c.toNat < 0x10000 then '\\' :: 'u' :: hexDigits 4 c.toNat
  else '\\' :: 'U' :: hexDigits 8 c.toNat

/-- How a character is written inside a literal that stands between the given marks. -/
def literalChar (mark c : Char) : List Char :=
  if c = mark ∨ c = '\\' then ['\\', c]
  else if c = '\n' then ['\\', 'n']
  else if c = '\r' then ['\\', 'r']
  else if c = '\t' then ['\\', 't']
  else if isPrintable c then [c]
  else hexEscape c

/-- The mark that a literal of these characters stands between. -/
def literalMark (cs : List Char) : Char :=
  if cs.contains '\'' && !cs.contains '"' then '"' else '\''

/-- The text as a literal. -/
def literal (text : String) : String :=
  let cs := text.toList
  let mark := literalMark cs
  String.ofList (mark :: cs.flatMap (literalChar mark) ++ [mark])

end SmallLisp.Text
