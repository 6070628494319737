import SmallLisp.Store

/-!
# Patterns

A binding target is a pattern: a symbol, which takes a value whole, or a vector of patterns, which
takes a sequence apart by position. A position that the sequence does not have counts as `nil`, what
the sequence has beyond the pattern is ignored, and `nil` itself is taken apart like an empty
sequence.

* `Pattern.badTarget?`: the first part of a value, from left to right, that keeps it from being a
  pattern.
* `Pattern.bind`: binds the symbols of a pattern in a frame, from left to right. What was bound
  before a failure stays bound.
-/

namespace SmallLisp.Pattern

/-! ## Well-formed patterns -/

mutual

/-- The first part that is neither a symbol nor a vector. -/
def badTarget? : Value → Option Value
  | .symbol _ => none
  | .vector items => badTargets? items
  | other => some other

/-- The first such part of several values. -/
def badTargets? : List Value → Option Value
  | [] => none
  | item :: items =>
    match badTarget? item with
    | some bad => some bad
    | none => badTargets? items

end

/-! ## Binding -/

/-- The items that a vector pattern takes apart. -/
def positions (value : Value) : Except BindError (List Value) :=
  match value with
  | .nil => .ok []
  | .list items => .ok items
  | .vector items => .ok items
  | .map _ => .error .mapValue
  | other => .error (.notSequential other)

mutual

/-- Binds the symbols of a pattern to the parts of a value. -/
def bind (id : FrameId) : Value → Value → Store.Writing Unit
  | .symbol name, value => Store.define id (.symbol name) value
  | .vector patterns, value =>
    match positions value with
    | .ok items => bindEach id patterns items
    | .error reason => throw reason
  | other, _ => throw (.target other)

/-- Binds patterns to items by position. -/
def bindEach (id : FrameId) : List Value → List Value → Store.Writing Unit
  | [], _ => pure ()
  | pattern :: patterns, items => do
    bind id pattern (items.head?.getD .nil)
    bindEach id patterns items.tail

end

end SmallLisp.Pattern
