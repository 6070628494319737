import SmallLisp.Number.Numeral
import SmallLisp.Number.Decimal

/-!
# Numbers of the language

A number is a whole number of any size or a binary64 number. Operations on two whole numbers are
exact, division apart; as soon as a binary64 number takes part, the whole number is first turned
into the nearest binary64 number, which fails if that is an infinity.

* `add`, `sub`, `mul`, `div`: the four operations, with the two ways in which they can fail.
* `equal`, `less`, `lessEq`: comparison by exact place on the line (`level?`), which never rounds:
  a whole number beyond `2 ^ 53` equals no binary64 number but the one that has its very value.
  `nan` has no place, and every comparison with it is false.
-/

namespace SmallLisp

/-- A number of the language. -/
inductive Number
  /-- A whole number. -/
  | int (n : Int)
  /-- A binary64 number. -/
  | float (x : Binary64)
deriving DecidableEq, Repr

/-- How an operation on numbers can fail. -/
inductive ArithmeticError
  /-- A whole number, or its quotient by another one, has no nearest finite binary64 number. -/
  | overflow (n : Int)
  /-- The divisor is zero. -/
  | divisionByZero
deriving DecidableEq, Repr

namespace Number

/-! ## Arithmetic -/

/-- What a whole number was rounded to, which has to be finite. -/
def finiteFor (n : Int) : Binary64 → Except ArithmeticError Binary64
  | .infinite _ => .error (.overflow n)
  | x => .ok x

/-- The nearest binary64 number. -/
def toBinary64 : Number → Except ArithmeticError Binary64
  | float x => .ok x
  | int n => finiteFor n (Binary64.ofInt n)

/-- Applies an operation to the nearest binary64 numbers, the left one being turned first. -/
def viaBinary64 (op : Binary64 → Binary64 → Binary64) (a b : Number) :
    Except ArithmeticError Number := do
  let x ← a.toBinary64
  let y ← b.toBinary64
  return float (op x y)

/-- A sum. -/
def add : Number → Number → Except ArithmeticError Number
  | int a, int b => .ok (int (a + b))
  | a, b => viaBinary64 Binary64.add a b

/-- A difference. -/
def sub : Number → Number → Except ArithmeticError Number
  | int a, int b => .ok (int (a - b))
  | a, b => viaBinary64 Binary64.sub a b

/-- A product. -/
def mul : Number → Number → Except ArithmeticError Number
  | int a, int b => .ok (int (a * b))
  | a, b => viaBinary64 Binary64.mul a b

/-- A quotient, always a binary64 number. That of two whole numbers is rounded once. -/
def div : Number → Number → Except ArithmeticError Number
  | int a, int b =>
    if b = 0 then .error .divisionByZero
    else do
      let x ← finiteFor a (Binary64.ofRatio ((a < 0) != (b < 0)) a.natAbs b.natAbs)
      return float x
  | a, b => do
    let x ← a.toBinary64
    let y ← b.toBinary64
    if y.isZero then throw .divisionByZero
    return float (x.div y)

/-- The number with the other sign. -/
def neg : Number → Number
  | int n => int (-n)
  | float x => float x.neg

/-! ## Comparison -/

/-- The place of a number on the line; `nan` has none. -/
def level? : Number → Option Binary64.Level
  | int n => some (.units (n * Binary64.one))
  | float x => x.level?

/-- The numbers have the same place. -/
def equal (a b : Number) : Bool :=
  match a.level?, b.level? with
  | some x, some y => x == y
  | _, _ => false

/-- The first number lies to the left of the second. -/
def less (a b : Number) : Bool :=
  match a.level?, b.level? with
  | some x, some y => x.lt y
  | _, _ => false

/-- The first number lies to the left of the second or at the same place. -/
def lessEq (a b : Number) : Bool :=
  less a b || equal a b

/-- Whole numbers are equal only to themselves. -/
@[simp]
theorem equal_int (a b : Int) : equal (int a) (int b) = (a == b) := by
  have hone : (Binary64.one : Int) ≠ 0 := by
    have := Binary64.one_pos
    omega
  have hiff : a * (Binary64.one : Int) = b * Binary64.one ↔ a = b :=
    ⟨Int.eq_of_mul_eq_mul_right hone, fun h => by rw [h]⟩
  rw [Bool.eq_iff_iff]
  simp only [equal, level?, beq_iff_eq, Binary64.Level.units.injEq]
  exact hiff

/-! ## Text -/

/-- The text of a number, unless it is a whole number with too many digits. -/
def text? : Number → Option String
  | int n => Numeral.intText? n
  | float x => some x.text

end Number

end SmallLisp
