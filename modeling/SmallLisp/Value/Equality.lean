import SmallLisp.Value

/-!
# Equality of values

Equality looks at structure, not at how a value was made:

* a list and a vector with equal items in the same order are equal;
* two numbers are equal when they have the same place on the line, so `1` equals `1.0`;
* a truth value equals no number, and a symbol, a keyword and a string of one spelling are three
  different things;
* two maps are equal when they have equally many entries and every key of the first is a key of the
  second with an equal value;
* functions, host functions, transformers and environments equal only themselves.

The recursion goes through the first value alone; in a map it is the keys and values of the first
map that shrink, while they are searched for in all of the second.
-/

namespace SmallLisp

mutual

/-- The values are equal. -/
def Value.equal : Value → Value → Bool
  | .nil, .nil => true
  | .bool a, .bool b => a == b
  | .number a, .number b => a.equal b
  | .str a, .str b => a == b
  | .symbol a, .symbol b => a == b
  | .keyword a, .keyword b => a == b
  | .list as, .list bs => equalItems as bs
  | .list as, .vector bs => equalItems as bs
  | .vector as, .list bs => equalItems as bs
  | .vector as, .vector bs => equalItems as bs
  | .map as, .map bs => as.length == bs.length && entriesWithin as bs
  | .function a _ _ _, .function b _ _ _ => a == b
  | .host a _, .host b _ => a == b
  | .transformer a _, .transformer b _ => a == b
  | .environment a, .environment b => a == b
  | _, _ => false

/-- The sequences have the same length and equal items at each place. -/
def equalItems : List Value → List Value → Bool
  | [], [] => true
  | a :: as, b :: bs => a.equal b && equalItems as bs
  | _, _ => false

/-- Every key of the first map is a key of the second, with an equal value. -/
def entriesWithin : Entries → Entries → Bool
  | [], _ => true
  | (key, value) :: entries, other =>
    (match other.find? fun entry => key.equal entry.1 with
      | some entry => value.equal entry.2
      | none => false) && entriesWithin entries other

end

/-- A map equals the maps with as many entries, among which its own are found. -/
theorem Value.equal_map {as : Entries} {b : Value} :
    (Value.map as).equal b = true ↔
      ∃ bs, b = .map bs ∧ as.length = bs.length ∧ entriesWithin as bs = true := by
  cases b <;> simp [equal]

end SmallLisp
