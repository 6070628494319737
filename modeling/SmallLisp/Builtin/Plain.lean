import SmallLisp.Builtin.Arithmetic
import SmallLisp.Builtin.Collection

/-!
# Operations without effects

Twenty-seven of the thirty operations are functions of their arguments alone: they neither read nor
change anything else. `Builtin.plain?` gives that function. The other three call functions, make a
new callable or print, and are carried out where the machine is at hand.
-/

namespace SmallLisp

/-- All arguments equal the first one. -/
def allEqual : List Value → Bool
  | [] => true
  | first :: rest => rest.all fun other => first.equal other

/-- A test of one value. -/
def predicate (operation : Builtin) (test : Value → Bool) : List Value → Except Fault Value
  | [value] => .ok (.bool (test value))
  | args => .error (.argumentCount operation .one args.length)

namespace Value

/-- The value is a symbol. -/
def isSymbol : Value → Bool
  | symbol _ => true
  | _ => false

/-- The value is a keyword. -/
def isKeyword : Value → Bool
  | keyword _ => true
  | _ => false

/-- The value is `nil`. -/
def isNil : Value → Bool
  | nil => true
  | _ => false

/-- The value is a list. -/
def isList : Value → Bool
  | list _ => true
  | _ => false

/-- The value is a vector. -/
def isVector : Value → Bool
  | vector _ => true
  | _ => false

/-- The value is a map. -/
def isMap : Value → Bool
  | map _ => true
  | _ => false

end Value

/-- What an operation makes of its arguments, for the operations without effects. -/
def Builtin.plain? : Builtin → Option (List Value → Except Fault Value)
  | add => some Arithmetic.sum
  | sub => some Arithmetic.difference
  | mul => some Arithmetic.product
  | div => some Arithmetic.quotient
  | equal => some fun args => .ok (.bool (allEqual args))
  | notEqual => some fun args => .ok (.bool (!allEqual args))
  | less => some (Arithmetic.comparison .less Number.less)
  | lessEq => some (Arithmetic.comparison .lessEq Number.lessEq)
  | greater => some (Arithmetic.comparison .greater fun a b => b.less a)
  | greaterEq => some (Arithmetic.comparison .greaterEq fun a b => b.lessEq a)
  | negation => some (predicate .negation fun value => !value.truthy)
  | list => some fun args => .ok (.list args)
  | vector => some fun args => .ok (.vector args)
  | hashMap => some Collection.hashMap
  | first => some Collection.first
  | rest => some Collection.rest
  | cons => some Collection.cons
  | nth => some Collection.nth
  | get => some Collection.get
  | count => some Collection.count
  | isSymbol => some (predicate .isSymbol Value.isSymbol)
  | isKeyword => some (predicate .isKeyword Value.isKeyword)
  | isNil => some (predicate .isNil Value.isNil)
  | isList => some (predicate .isList Value.isList)
  | isVector => some (predicate .isVector Value.isVector)
  | isMap => some (predicate .isMap Value.isMap)
  | isFunction => some (predicate .isFunction Value.isFunction)
  | reduce => none
  | str => none
  | makeTransformer => none

end SmallLisp
