import SmallLisp.Text.Digit

/-!
# Whole numbers as text

A whole number may be as large as memory allows, but its decimal text is bounded: a numeral of more
than `maxDigits` digits is neither read nor written. Leading zeros count when a numeral is read. The
sign never counts.

* `digitsValue`: the number that a list of decimal digits denotes, whatever scripts they are from.
* `readDigits?`: the same under the bound.
* `intText?`: the text of a whole number under the bound.
-/

namespace SmallLisp.Numeral

open SmallLisp.Text

/-- The longest numeral that is read or written, in digits. -/
def maxDigits : Nat := 4300

/-- The smallest number whose text is too long. -/
def tooLarge : Nat := Nat.pow 10 maxDigits

/-- The number that the digits denote, the highest place first. -/
def digitsValue (digits : List Char) : Nat :=
  digits.foldl (fun value c => 10 * value + (digitValue? c).getD 0) 0

/-- The number that the digits denote, unless there are too many of them. -/
def readDigits? (digits : List Char) : Option Nat :=
  if digits.length ≤ maxDigits then some (digitsValue digits) else none

/-- The decimal text of a whole number, unless it is too long. -/
def intText? (n : Int) : Option String :=
  if n.natAbs < tooLarge then some (toString n) else none

/-- One more digit on the right moves the others one place up. -/
theorem digitsValue_append_singleton (digits : List Char) (c : Char) :
    digitsValue (digits ++ [c]) = 10 * digitsValue digits + (digitValue? c).getD 0 := by
  simp [digitsValue]

end SmallLisp.Numeral
