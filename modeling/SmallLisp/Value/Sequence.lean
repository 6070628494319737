import SmallLisp.Value.Entries

/-!
# The sequence view of a value

Every collection can be read as a sequence: `nil` is the empty one, a list and a vector are their
items, and a map is its entries, each as a vector of key and value. All operations on collections go
through this one view, `Value.items?`.

A host goes through values in a view of its own, `Value.elements?`. There a map is its keys, a
string is its characters, and `nil` is not a sequence at all. The parameters of a function are read
in this way; for the vectors that programs write the two views agree.
-/

namespace SmallLisp.Value

/-- An entry of a map as a vector of two. -/
def ofEntry (entry : Value × Value) : Value :=
  vector [entry.1, entry.2]

/-- The items of a collection; other values have none. -/
def items? : Value → Option (List Value)
  | nil => some []
  | list items => some items
  | vector items => some items
  | map entries => some (entries.map ofEntry)
  | _ => none

/-- A character as a string of its own. -/
def ofChar (c : Char) : Value :=
  str (String.singleton c)

/-- The elements that a host finds in a value, if it can go through it. -/
def elements? : Value → Option (List Value)
  | list items => some items
  | vector items => some items
  | map entries => some (entries.map (·.1))
  | str text => some (text.toList.map ofChar)
  | _ => none

@[simp]
theorem elements?_vector (items : List Value) : (vector items).elements? = some items := rfl

/-- The patterns of a function, one for each argument that it takes. -/
def patterns? : Value → Option (List Value)
  | function _ params _ _ => params.elements?
  | _ => none

/-- The items of a list or a vector. -/
def sequence? : Value → Option (List Value)
  | list items => some items
  | vector items => some items
  | _ => none

/-- The first item of a list or a vector, or `nil`. -/
def first (value : Value) : Value :=
  (value.sequence?.getD []).head?.getD nil

/-- The list of the items behind the first. -/
def rest (value : Value) : Value :=
  list (value.sequence?.getD []).tail

/-- The list of a value and the items behind it. -/
def cons (value head : Value) : Value :=
  list (head :: value.sequence?.getD [])

/-- How many items a collection, or characters a string, has. -/
def size? : Value → Option Nat
  | nil => some 0
  | list items => some items.length
  | vector items => some items.length
  | map entries => some entries.length
  | str text => some text.length
  | _ => none

/-- The size of a collection is the number of its items. -/
theorem size?_of_items? {value : Value} {items : List Value} (h : value.items? = some items) :
    value.size? = some items.length := by
  cases value <;> simp_all [items?, size?]
  all_goals (subst h; simp)

end SmallLisp.Value
