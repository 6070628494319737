import SmallLisp.Value
import SmallLisp.ReadError

/-!
# Atoms

An atom is a literal, a number, a keyword or, if it is none of these, a symbol.

* a whole number: digits, with a minus sign in front or not;
* a binary64 number: digits, a point and digits, with a minus sign in front or not; it is rounded
  once from the decimal as written;
* a keyword: a colon with a name behind it.

The digits may be of any script. One newline behind a number is ignored; no atom cut out of a text
has one, but a token made by hand can.
-/

namespace SmallLisp.Atom

open SmallLisp.Text SmallLisp.Numeral

/-- The characters without a newline at their end. -/
def withoutNewline (cs : List Char) : List Char :=
  if cs.getLast? = some '\n' then cs.dropLast else cs

/-- Whether a minus sign stands in front, and what stands behind it. -/
def splitSign : List Char → Bool × List Char
  | '-' :: cs => (true, cs)
  | cs => (false, cs)

/-- There are digits and nothing else. -/
def isNumeral (cs : List Char) : Bool :=
  !cs.isEmpty && cs.all isDecimal

/-- The digits before and behind the point of a decimal. -/
def splitPoint? (cs : List Char) : Option (List Char × List Char) :=
  match cs.dropWhile isDecimal with
  | '.' :: fraction =>
    let whole := cs.takeWhile isDecimal
    if !whole.isEmpty && isNumeral fraction then some (whole, fraction) else none
  | _ => none

/-- The number that the characters denote, if they denote one. -/
def readNumber? (cs : List Char) : Option (Except ReadError Number) :=
  let (negative, size) := splitSign (withoutNewline cs)
  if isNumeral size then
    match readDigits? size with
    | some n => some (.ok (.int (if negative then -(n : Int) else n)))
    | none => some (.error .longNumeral)
  else
    (splitPoint? size).map fun (whole, fraction) =>
      let digits := digitsValue (whole ++ fraction)
      .ok (.float (.ofRatio negative digits (Nat.pow 10 fraction.length)))

/-- The name of a keyword, which is not empty. -/
def keywordName? : List Char → Option (List Char)
  | ':' :: c :: cs => some (c :: cs)
  | _ => none

/-- The value that an atom denotes. -/
def read (text : String) : Except ReadError Value :=
  if text = "nil" then .ok .nil
  else if text = "true" then .ok (.bool true)
  else if text = "false" then .ok (.bool false)
  else
    match readNumber? text.toList with
    | some number => number.map .number
    | none =>
      match keywordName? text.toList with
      | some name => .ok (.keyword (String.ofList name))
      | none => .ok (.symbol text)

end SmallLisp.Atom
