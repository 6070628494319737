/-!
# Numbers of the binary64 format

The finite numbers of the format, taken by size, are a ladder: zero, then the subnormal numbers,
then one binade after the other, each with `2 ^ 52` numbers. The **rank** of a number is its place
on that ladder, so a finite number is a sign and a rank, every rank names one number, and no rank
is a wrong one. (The bits of a positive number in the format spell its rank.) An infinity stands
beyond either end, and one value stands apart (`nan`).

Every finite number is a whole multiple of the smallest positive one, `2 ^ -1074`, called the *unit*
here. All arithmetic is exact arithmetic on units, followed by one rounding:

* `units rank`: the size of a number in units.
* `ofUnits negative num den`: the number nearest to `num / den` units; of two nearest ones the one
  with the even rank; an infinity when the nearest place lies beyond the ladder. The rank is found
  in one step: dropping all but 53 binary digits costs `2 ^ 52` ranks per digit dropped, and a
  carry out of the rounding leads to the next binade by itself.
* `add`, `sub`, `mul`, `div`: the operations of the format in its default rounding. `div` is meant
  for a divisor other than zero; the caller has to refuse that case first.
* `Level`: the exact place of a number on the real line, with both infinities. Comparison of whole
  numbers and numbers of this format goes through levels and so never rounds.
-/

namespace SmallLisp

/-- How many numbers a binade has, which is two to the power of 52. -/
def Binary64.binade : Nat := 0x10000000000000

/-- How many finite sizes there are: 2047 binades, the lowest of them subnormal. -/
def Binary64.ranks : Nat := 2047 * Binary64.binade

/-- A number of the binary64 format; all not-a-number patterns are one value. -/
inductive Binary64
  /-- Not a number. -/
  | nan
  /-- An infinity. -/
  | infinite (negative : Bool)
  /-- A finite number; zero has two signs. -/
  | finite (negative : Bool) (rank : Fin Binary64.ranks)
deriving DecidableEq, Repr

namespace Binary64

/-! ## Size in units -/

/-- How many units make one. -/
def one : Nat := Nat.pow 2 1074

/-- A power of a positive number is positive. -/
theorem pow_pos {base : Nat} (hbase : 0 < base) (n : Nat) : 0 < Nat.pow base n :=
  Nat.pow_pos hbase

/-- One is at least one unit. -/
theorem one_pos : 0 < one :=
  pow_pos Nat.two_pos 1074

/-- The binary digits of the number of the given rank, at most 53 of them. -/
def mantissa (rank : Nat) : Nat :=
  if rank < binade then rank else binade + rank % binade

/-- The size of the number of the given rank, in units. -/
def units (rank : Nat) : Nat :=
  mantissa rank * Nat.pow 2 (rank / binade - 1)

/-- The number in units, with its sign. -/
def signed (negative : Bool) (size : Nat) : Int :=
  if negative then -(size : Int) else (size : Int)

/-- Positive and negative zero. -/
def zero (negative : Bool) : Binary64 :=
  finite negative ⟨0, by decide⟩

/-- The number is zero, of either sign. -/
def isZero : Binary64 → Bool
  | finite _ rank => rank.val == 0
  | _ => false

/-! ## Rounding -/

/-- The whole number nearest to `num / den`; of two nearest ones the even one. -/
def roundQuotient (num den : Nat) : Nat :=
  let quotient := num / den
  let rest := num % den
  if 2 * rest < den then quotient
  else if den < 2 * rest then quotient + 1
  else if quotient % 2 = 0 then quotient
  else quotient + 1

/-- The number nearest to `num / den` units. -/
def ofUnits (negative : Bool) (num den : Nat) : Binary64 :=
  let dropped := (num / den).log2 - 52
  let rank := dropped * binade + roundQuotient num (den * Nat.pow 2 dropped)
  if h : rank < ranks then finite negative ⟨rank, h⟩ else infinite negative

/-- The number nearest to `num / den`. -/
def ofRatio (negative : Bool) (num den : Nat) : Binary64 :=
  ofUnits negative (num * one) den

/-- The number nearest to a whole number. -/
def ofInt (n : Int) : Binary64 :=
  ofRatio (n < 0) n.natAbs 1

/-! ## Arithmetic -/

/-- The number with the other sign. -/
def neg : Binary64 → Binary64
  | nan => nan
  | infinite negative => infinite (!negative)
  | finite negative rank => finite (!negative) rank

/-- A sum; one that vanishes is negative only if both summands are. -/
def add : Binary64 → Binary64 → Binary64
  | nan, _ => nan
  | _, nan => nan
  | infinite a, infinite b => if a = b then infinite a else nan
  | infinite a, finite _ _ => infinite a
  | finite _ _, infinite b => infinite b
  | finite a r, finite b s =>
    let sum := signed a (units r) + signed b (units s)
    if sum = 0 then zero (a && b) else ofUnits (sum < 0) sum.natAbs 1

/-- A difference. -/
def sub (x y : Binary64) : Binary64 :=
  add x (neg y)

/-- A product. -/
def mul : Binary64 → Binary64 → Binary64
  | nan, _ => nan
  | _, nan => nan
  | infinite a, infinite b => infinite (a != b)
  | infinite a, finite b s => if s.val = 0 then nan else infinite (a != b)
  | finite a r, infinite b => if r.val = 0 then nan else infinite (a != b)
  | finite a r, finite b s => ofUnits (a != b) (units r * units s) one

/-- A quotient, for a divisor other than zero. -/
def div : Binary64 → Binary64 → Binary64
  | nan, _ => nan
  | _, nan => nan
  | infinite _, infinite _ => nan
  | infinite a, finite b _ => infinite (a != b)
  | finite a _, infinite b => zero (a != b)
  | finite a r, finite b s => ofUnits (a != b) (units r * one) (units s)

/-! ## Places on the line -/

/-- A place on the real line, in units, or one of its two ends. -/
inductive Level
  /-- Below every number. -/
  | lowest
  /-- A place, in units. -/
  | units (n : Int)
  /-- Above every number. -/
  | highest
deriving DecidableEq, Repr

/-- The first place lies to the left of the second. -/
def Level.lt : Level → Level → Bool
  | lowest, lowest => false
  | lowest, _ => true
  | units _, lowest => false
  | units m, units n => m < n
  | units _, highest => true
  | highest, _ => false

/-- The place of a number; `nan` has none. -/
def level? : Binary64 → Option Level
  | nan => none
  | infinite negative => some (if negative then .lowest else .highest)
  | finite negative rank => some (.units (signed negative (units rank)))

end Binary64

end SmallLisp
