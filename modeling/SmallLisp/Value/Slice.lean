import SmallLisp.Value.Sequence

/-!
# Places and slices of a sequence

A place counts from the start of a sequence, or from its end when it is negative. A slice takes
every `step`-th item from `start` up to but not including `stop`, backwards if the step is
negative. Each of the three may be left out, and a bound that lies outside the sequence is moved to
its nearest end, so that only a step of zero is refused.
-/

namespace SmallLisp

/-- Which items of a sequence to take. -/
structure Slice where
  /-- The place of the first item. -/
  start : Option Int
  /-- The place before which to end. -/
  stop : Option Int
  /-- How far apart the items stand; one if left out. -/
  step : Option Int

namespace Slice

/-- The item at a place, a negative place counting from the end. -/
def item? {α : Type} (items : List α) (place : Int) : Option α :=
  let fromStart := if place < 0 then place + items.length else place
  if fromStart < 0 then none else items[fromStart.toNat]?

/-- A bound counted from the start and moved into the interval from `low` to `high`. -/
def clamp (length low high bound : Int) : Int :=
  let fromStart := if bound < 0 then bound + length else bound
  max low (min high fromStart)

/-- The places that the slice takes of a sequence of that length, for a step other than zero. -/
def places (slice : Slice) (length : Nat) (step : Int) : List Int :=
  let low : Int := if 0 < step then 0 else -1
  let high : Int := if 0 < step then length else length - 1
  let first := (slice.start.map (clamp length low high)).getD (if 0 < step then low else high)
  let last := (slice.stop.map (clamp length low high)).getD (if 0 < step then high else low)
  let span := if 0 < step then last - first else first - last
  let count := if 0 < span then (span - 1) / step.natAbs + 1 else 0
  (List.range count.toNat).map fun i : Nat => first + i * step

/-- The items that the slice takes, in order; a step of zero is refused. -/
def take? {α : Type} (slice : Slice) (items : List α) : Option (List α) :=
  let step := slice.step.getD 1
  if step = 0 then none
  else some ((slice.places items.length step).filterMap fun place => items[place.toNat]?)

end Slice

namespace Value

/-- The item of a list or a vector at a place. -/
def item? (value : Value) (place : Int) : Option Value :=
  value.sequence?.bind fun items => Slice.item? items place

/-- The part of a list or a vector that the slice takes, again a list or a vector. -/
def slice? (value : Value) (slice : Slice) : Option Value :=
  match value with
  | list items => (slice.take? items).map list
  | vector items => (slice.take? items).map vector
  | _ => none

end Value

end SmallLisp
