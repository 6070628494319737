import SmallLisp.Fault

/-!
# Operations on numbers

The four arithmetic operations and the four comparisons. All of them first make sure that every
argument is a number; truth values are none.

* A sum starts from the whole number 0 and a product from the whole number 1, and arguments are
  taken in from left to right. So the sum of a single negative zero is the positive zero.
* A difference or quotient of one argument is its negative or its reciprocal.
* A comparison holds of each argument and its right neighbour.
-/

namespace SmallLisp.Arithmetic

/-- The numbers that the arguments are; the first that is none is at fault. -/
def numbers (operation : Builtin) : List Value → Except Fault (List Number)
  | [] => .ok []
  | .number n :: args => do
    let rest ← numbers operation args
    return n :: rest
  | given :: _ => .error (.notNumber operation given)

/-- A failure of arithmetic in an operation as a fault. -/
def faultOf (operation : Builtin) : ArithmeticError → Fault
  | .overflow n => .overflow operation n
  | .divisionByZero => .divisionByZero

/-- Applies an operation to a number and each further one, from left to right. -/
def foldFrom (operation : Builtin) (op : Number → Number → Except ArithmeticError Number)
    (start : Number) (args : List Number) : Except Fault Value :=
  match args.foldlM op start with
  | .ok n => .ok (.number n)
  | .error reason => .error (faultOf operation reason)

/-- The sum of the arguments. -/
def sum (args : List Value) : Except Fault Value := do
  foldFrom .add Number.add (.int 0) (← numbers .add args)

/-- The product of the arguments. -/
def product (args : List Value) : Except Fault Value := do
  foldFrom .mul Number.mul (.int 1) (← numbers .mul args)

/-- The first argument less the others, or the negative of the only one. -/
def difference (args : List Value) : Except Fault Value := do
  if args.isEmpty then throw (.argumentCount .sub .atLeastOne 0)
  match ← numbers .sub args with
  | [n] => return .number n.neg
  | n :: rest => foldFrom .sub Number.sub n rest
  | [] => throw .missingPart

/-- The first argument divided by the others, or the reciprocal of the only one. -/
def quotient (args : List Value) : Except Fault Value := do
  if args.isEmpty then throw (.argumentCount .div .atLeastOne 0)
  match ← numbers .div args with
  | [n] => foldFrom .div Number.div (.int 1) [n]
  | n :: rest => foldFrom .div Number.div n rest
  | [] => throw .missingPart

/-- The relation holds of each number and its right neighbour. -/
def chained (related : Number → Number → Bool) : List Number → Bool
  | a :: b :: rest => related a b && chained related (b :: rest)
  | _ => true

/-- Compares each argument with its right neighbour. -/
def comparison (operation : Builtin) (related : Number → Number → Bool) (args : List Value) :
    Except Fault Value := do
  if args.isEmpty then throw (.argumentCount operation .atLeastOne 0)
  return .bool (chained related (← numbers operation args))

end SmallLisp.Arithmetic
