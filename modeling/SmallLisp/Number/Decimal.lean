import SmallLisp.Number.Binary64

/-!
# Decimal text of a binary64 number

A number is written with the fewest significant digits that read back as the same number. Among the
decimals of that length the nearest one is taken, and of two equally near ones the one with the even
last digit.

* `Decimal`: a whole number of tens to some power.
* `Decimal.toBinary64`: the number nearest to it.
* `shortest rank`: the decimal chosen for the positive number of that rank. The search tries one
  digit, two digits, and so on; for each length only the two neighbours of the number on that
  decimal grid can be nearest, and each is kept only if it reads back. The exact value, which
  always reads back, stands at the end of the search.
* `text`: the digits with a decimal point while the leading digit stands within sixteen places
  before or four places behind the point, and in exponent form otherwise. A point is always
  followed by at least one digit, and an exponent has a sign and at least two digits.
-/

namespace SmallLisp

/-- The number `digits * 10 ^ exponent`. -/
structure Decimal where
  /-- The significant digits, read as one whole number. -/
  digits : Nat
  /-- The place of the last digit. -/
  exponent : Int
deriving DecidableEq, Repr

namespace Decimal

/-- The binary64 number nearest to the decimal. -/
def toBinary64 (negative : Bool) (d : Decimal) : Binary64 :=
  if 0 ≤ d.exponent then .ofRatio negative (d.digits * Nat.pow 10 d.exponent.toNat) 1
  else .ofRatio negative d.digits (Nat.pow 10 (-d.exponent).toNat)

/-! ## The shortest decimal -/

/-- The place of the leading digit of a positive number of units: its size is at least ten to that
power and below the next. The factor `10 ^ 340` lifts every positive size above one. -/
def leadingPlace (size : Nat) : Int :=
  (Nat.toDigits 10 (size * Nat.pow 10 340 / Binary64.one)).length - 341

/-- The decimal reads back as the positive number of that rank. -/
def readsBack (rank : Fin Binary64.ranks) (d : Decimal) : Bool :=
  d.toBinary64 false == .finite false rank

/-- The better of the two neighbours on the grid of multiples of `10 ^ place`, if one reads back. -/
def nearestOnGrid (rank : Fin Binary64.ranks) (place : Int) : Option Decimal :=
  let size := Binary64.units rank
  let num := if 0 ≤ place then size else size * Nat.pow 10 (-place).toNat
  let den := if 0 ≤ place then Binary64.one * Nat.pow 10 place.toNat else Binary64.one
  let lower : Decimal := ⟨num / den, place⟩
  let upper : Decimal := ⟨num / den + 1, place⟩
  let rest := num % den
  let lowerIsNearer := 2 * rest < den || (2 * rest == den && num / den % 2 == 0)
  if readsBack rank lower && (lowerIsNearer || !readsBack rank upper) then some lower
  else if readsBack rank upper then some upper
  else none

/-- The exact value of a number of units. -/
def ofUnits (size : Nat) : Decimal :=
  ⟨size * Nat.pow 5 1074, -1074⟩

/-- The decimal with the fewest digits that reads back as the positive number of that rank. -/
def shortest (rank : Fin Binary64.ranks) : Decimal :=
  let size := Binary64.units rank
  let place := leadingPlace size
  ((List.range 17).findSome? fun more : Nat =>
    nearestOnGrid rank (place - more)).getD (ofUnits size)

/-! ## Layout -/

/-- The least place of the leading digit at which the point is written in place. -/
def positionalFrom : Int := -4

/-- From this place of the leading digit on, an exponent is written. -/
def positionalBelow : Int := 16

/-- The digits without the zeros at their end. -/
def significant (digits : List Char) : List Char :=
  (digits.reverse.dropWhile (· == '0')).reverse

/-- The digits behind the point, of which there is at least one. -/
def behindPoint : List Char → List Char
  | [] => ['0']
  | c :: cs => c :: cs

/-- The digits with the point in place; the first digit stands at the given place. -/
def positional (digits : List Char) (place : Int) : List Char :=
  if 0 ≤ place then
    let whole := place.toNat + 1
    digits.take whole ++ List.replicate (whole - digits.length) '0' ++ '.' ::
      behindPoint (digits.drop whole)
  else
    '0' :: '.' :: List.replicate ((-place).toNat - 1) '0' ++ digits

/-- A number with at least two digits. -/
def twoDigits (n : Nat) : List Char :=
  if n < 10 then '0' :: Nat.toDigits 10 n else Nat.toDigits 10 n

/-- One digit, the others behind a point if there are any, and the exponent with its sign. -/
def withExponent (digits : List Char) (place : Int) : List Char :=
  digits.take 1 ++ (if digits.length ≤ 1 then [] else '.' :: digits.drop 1) ++
    'e' :: (if place < 0 then '-' else '+') :: twoDigits place.natAbs

/-- The text of a positive decimal. -/
def text (d : Decimal) : List Char :=
  let digits := Nat.toDigits 10 d.digits
  let place := d.exponent + digits.length - 1
  if positionalFrom ≤ place ∧ place < positionalBelow then positional (significant digits) place
  else withExponent (significant digits) place

end Decimal

/-- The text of a number without its sign. -/
def Binary64.sizeText (rank : Fin Binary64.ranks) : List Char :=
  if rank.val = 0 then ['0', '.', '0'] else (Decimal.shortest rank).text

/-- The text of a number. -/
def Binary64.text : Binary64 → String
  | nan => "nan"
  | infinite negative => if negative then "-inf" else "inf"
  | finite negative rank =>
    String.ofList (if negative then '-' :: sizeText rank else sizeText rank)

end SmallLisp
