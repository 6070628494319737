import SmallLisp.Fault
import SmallLisp.Value.Sequence

/-!
# Operations on collections

All of them read a collection through `Value.items?`. Where one of them makes a sequence, it makes a
list.
-/

namespace SmallLisp.Collection

/-- The items of a collection; anything else is at fault. -/
def items (operation : Builtin) (given : Value) : Except Fault (List Value) :=
  match given.items? with
  | some items => .ok items
  | none => .error (.notCollection operation given)

/-- The first item, or `nil` if there is none. -/
def first : List Value → Except Fault Value
  | [given] => return (← items .first given).head?.getD .nil
  | args => .error (.argumentCount .first .one args.length)

/-- The list of the items behind the first. -/
def rest : List Value → Except Fault Value
  | [given] => return .list (← items .rest given).tail
  | args => .error (.argumentCount .rest .one args.length)

/-- The list of a value and the items of a collection behind it. -/
def cons : List Value → Except Fault Value
  | [head, given] => return .list (head :: (← items .cons given))
  | args => .error (.argumentCount .cons .two args.length)

/-- The item at an index that is counted from the start and never from the end. -/
def itemAt? (items : List Value) (index : Int) : Option Value :=
  if index < 0 then none else items[index.toNat]?

/-- The item at an index, or the value given for an index out of bounds. -/
def nthOr (given index : Value) (otherwise : Option Value) : Except Fault Value := do
  match index with
  | .number (.int i) =>
    let items ← items .nth given
    match itemAt? items i with
    | some item => return item
    | none =>
      match otherwise with
      | some value => return value
      | none => throw (.indexOutOfBounds i items.length)
  | other => throw (.indexNotWhole other)

/-- The item at an index. -/
def nth : List Value → Except Fault Value
  | [given, index] => nthOr given index none
  | [given, index, otherwise] => nthOr given index (some otherwise)
  | args => .error (.argumentCount .nth .twoOrThree args.length)

/-- The value under a key of a map or at an index of a vector, if there is one. -/
def getOr (given key otherwise : Value) : Value :=
  match given, key with
  | .map entries, key => (Entries.get? entries key).getD otherwise
  | .vector items, .number (.int index) => (itemAt? items index).getD otherwise
  | _, _ => otherwise

/-- The value under a key; nothing but the number of arguments can be wrong. -/
def get : List Value → Except Fault Value
  | [given, key] => .ok (getOr given key .nil)
  | [given, key, otherwise] => .ok (getOr given key otherwise)
  | args => .error (.argumentCount .get .twoOrThree args.length)

/-- The number of items of a collection or of characters of a string. -/
def count : List Value → Except Fault Value
  | [given] =>
    match given.size? with
    | some size => .ok (.int size)
    | none => .error (.uncountable given)
  | args => .error (.argumentCount .count .one args.length)

/-- The map of keys and values in alternation. -/
def hashMap (args : List Value) : Except Fault Value :=
  match Entries.ofFlat? args with
  | some entries => .ok (.map entries)
  | none => .error (.argumentCount .hashMap .even args.length)

end SmallLisp.Collection
