import SmallLisp.Proofs.Equivalence
import SmallLisp.Proofs.Likeness
import SmallLisp.Proofs.PlainOperations

/-!
# One view of collections

What a collection is, a list, a vector, a map or `nil`, its operations need not agree on: each has
an answer of its own for each kind. That all of them describe one sequence, the items of the
collection, is shown here, and that equality of collections respects it.

* `Value.Behind`: what is left of a collection when its first item is taken away a number of times.
  The item at an index is the first one of what is behind as many items.
* `SameResult`: equal values, or the same fault, which is what the operations make of equal
  collections.
* **`Builtin.sequenceView`**: the laws of the view.
-/

namespace SmallLisp

/-- The items of a collection are found whatever operation asks for them. -/
theorem Collection.items_of_items? {given : Value} {items : List Value}
    (h : given.items? = some items) (operation : Builtin) :
    Collection.items operation given = .ok items := by
  rw [Collection.items, h]

/-- A list and a vector are collections of their items. -/
theorem Value.items?_of_sequence? {given : Value} {items : List Value}
    (h : given.sequence? = some items) : given.items? = some items := by
  cases given <;> simp_all [sequence?, items?]

/-! ## What the operations make of items -/

namespace Builtin

variable {given : Value} {items : List Value}

theorem count_gives (h : given.items? = some items) :
    count.Gives [given] (.ok (.int items.length)) := by
  refine gives_plain rfl ?_
  rw [Collection.count, Value.size?_of_items? h]

theorem first_gives (h : given.items? = some items) :
    first.Gives [given] (.ok (items.head?.getD .nil)) := by
  refine gives_plain rfl ?_
  rw [Collection.first, Collection.items_of_items? h]
  rfl

theorem rest_gives (h : given.items? = some items) :
    rest.Gives [given] (.ok (.list items.tail)) := by
  refine gives_plain rfl ?_
  rw [Collection.rest, Collection.items_of_items? h]
  rfl

theorem cons_gives (h : given.items? = some items) (head : Value) :
    cons.Gives [head, given] (.ok (.list (head :: items))) := by
  refine gives_plain rfl ?_
  rw [Collection.cons, Collection.items_of_items? h]
  rfl

/-- What is found at an index, with or without a value for an index out of bounds. -/
theorem nthOr_eq (h : given.items? = some items) (i : Int) (otherwise : Option Value) :
    Collection.nthOr given (.int i) otherwise =
      ((Collection.itemAt? items i).or otherwise).elim
        (.error (.indexOutOfBounds i items.length)) .ok := by
  unfold Collection.nthOr
  rw [Collection.items_of_items? h]
  dsimp only [bind, Except.bind]
  cases Collection.itemAt? items i <;> cases otherwise <;> rfl

theorem nth_gives (h : given.items? = some items) (i : Int) (otherwise : Value) :
    nth.Gives [given, .int i, otherwise]
      (.ok ((Collection.itemAt? items i).getD otherwise)) := by
  refine gives_plain rfl ?_
  rw [Collection.nth, nthOr_eq h]
  cases Collection.itemAt? items i <;> rfl

end Builtin

/-! ## Indices -/

namespace Collection

theorem itemAt?_of_nonneg {items : List Value} {i : Int} (hlow : 0 ≤ i) :
    itemAt? items i = items[i.toNat]? :=
  if_neg (Int.not_lt.2 hlow)

/-- No item is found at an index out of bounds. -/
theorem itemAt?_of_out {items : List Value} {i : Int} (hout : i < 0 ∨ items.length ≤ i) :
    itemAt? items i = none := by
  unfold itemAt?
  split
  · rfl
  · exact List.getElem?_eq_none (by omega)

end Collection

namespace Value

/-- What is left of a collection when its first item is taken away so many times. -/
inductive Behind : Nat → Value → Value → Prop
  /-- The collection itself. -/
  | here {given : Value} : Behind 0 given given
  /-- What is left of what is behind the first item. -/
  | next {n : Nat} {given tail left : Value} : Builtin.rest.Gives [given] (.ok tail) →
      Behind n tail left → Behind (n + 1) given left

/-- Items can be taken away any number of times. -/
theorem exists_behind {given : Value} {items : List Value} (h : given.items? = some items)
    (n : Nat) : ∃ left, Behind n given left ∧ left.items? = some (items.drop n) := by
  induction n generalizing given items with
  | zero => exact ⟨given, .here, h⟩
  | succ n ih =>
    obtain ⟨left, hbehind, hleft⟩ := ih (rfl : (list items.tail).items? = some items.tail)
    exact ⟨left, .next (Builtin.rest_gives h) hbehind, by rw [hleft, List.drop_tail]⟩

/-- The item at an index is the first one of what is behind as many items. -/
theorem exists_behind_first {given : Value} {items : List Value} (h : given.items? = some items)
    {i : Int} (hlow : 0 ≤ i) (hhigh : i < items.length) (otherwise : Value) :
    ∃ left item, Behind i.toNat given left ∧ Builtin.first.Gives [left] (.ok item) ∧
      Builtin.nth.Gives [given, .int i, otherwise] (.ok item) := by
  obtain ⟨left, hbehind, hleft⟩ := exists_behind h i.toNat
  have hlt : i.toNat < items.length := by omega
  have hitem : items[i.toNat]? = some items[i.toNat] := List.getElem?_eq_getElem hlt
  have hfirst := Builtin.first_gives hleft
  have hnth := Builtin.nth_gives h i otherwise
  rw [List.head?_drop, hitem] at hfirst
  rw [Collection.itemAt?_of_nonneg hlow, hitem] at hnth
  exact ⟨left, items[i.toNat], hbehind, hfirst, hnth⟩

end Value

/-! ## Equal collections -/

/-- Equal values, or the same fault. -/
def SameResult : Except Fault Value → Except Fault Value → Prop
  | .ok a, .ok b => a.equal b = true
  | .error reason, .error reason' => reason = reason'
  | _, _ => False

namespace Builtin

/-- What the operation gives for these arguments and for those is alike. -/
def GivesAlike (operation : Builtin) (args args' : List Value) : Prop :=
  ∃ result result', operation.Gives args result ∧ operation.Gives args' result' ∧
    SameResult result result'

variable {given given' : Value} {items items' : List Value}

/-- A list of equal items is equal. -/
theorem list_equal (h : items.Forall₂ (fun a b => a.equal b = true) items') :
    (Value.list items).equal (.list items') = true :=
  (Value.equal_sequence rfl).2 ⟨items', rfl, h⟩

/-- An index that is no whole number is at fault, whatever the collection. -/
theorem nthOr_of_not_whole {index : Value} (hindex : ¬∃ i : Int, index = .int i) (given : Value)
    (otherwise : Option Value) :
    Collection.nthOr given index otherwise = .error (.indexNotWhole index) := by
  unfold Collection.nthOr
  split
  · exact absurd ⟨_, rfl⟩ hindex
  · rfl

section equal

variable (h : given.items? = some items) (h' : given'.items? = some items')
  (hitems : items.Forall₂ (fun a b => a.equal b = true) items')

include h h' hitems

theorem count_alike : count.GivesAlike [given] [given'] := by
  refine ⟨_, _, count_gives h, count_gives h', ?_⟩
  rw [hitems.length_eq]
  show Number.equal (.int items'.length) (.int items'.length) = true
  simp

theorem first_alike : first.GivesAlike [given] [given'] := by
  refine ⟨_, _, first_gives h, first_gives h', ?_⟩
  cases hitems with
  | nil => rfl
  | cons hitem _ => exact hitem

theorem rest_alike : rest.GivesAlike [given] [given'] :=
  ⟨_, _, rest_gives h, rest_gives h', list_equal (Likeness.forall₂_tail hitems)⟩

theorem cons_alike {head head' : Value} (hhead : head.equal head' = true) :
    cons.GivesAlike [head, given] [head', given'] :=
  ⟨_, _, cons_gives h head, cons_gives h' head', list_equal (.cons hhead hitems)⟩

theorem nthOr_alike (index : Value) {otherwise otherwise' : Option Value}
    (hotherwise : Option.Rel (fun a b => a.equal b = true) otherwise otherwise') :
    SameResult (Collection.nthOr given index otherwise)
      (Collection.nthOr given' index otherwise') := by
  by_cases hindex : ∃ i : Int, index = .int i
  · obtain ⟨i, rfl⟩ := hindex
    rw [nthOr_eq h, nthOr_eq h']
    have hitem := Likeness.rel_itemAt? hitems i
    generalize Collection.itemAt? items i = item, Collection.itemAt? items' i = item' at hitem ⊢
    cases hitem with
    | some hvalue => exact hvalue
    | none =>
      cases hotherwise with
      | some hvalue => exact hvalue
      | none =>
        rw [hitems.length_eq]
        rfl
  · rw [nthOr_of_not_whole hindex, nthOr_of_not_whole hindex]
    rfl

/-- At any index, with or without a value for an index out of bounds. -/
theorem nth_alike (index : Value) :
    nth.GivesAlike [given, index] [given', index] ∧
      ∀ otherwise otherwise' : Value, otherwise.equal otherwise' = true →
        nth.GivesAlike [given, index, otherwise] [given', index, otherwise'] :=
  ⟨⟨_, _, gives_plain rfl rfl, gives_plain rfl rfl, nthOr_alike h h' hitems index .none⟩,
    fun _ _ hvalue => ⟨_, _, gives_plain rfl rfl, gives_plain rfl rfl,
      nthOr_alike h h' hitems index (.some hvalue)⟩⟩

end equal

/-! ## The view -/

open Value (Behind Comparable)

/-- **The operations on collections agree on one sequence.** Let a collection be given, of whatever
kind, with its items.

* They are counted; the first one is what is found at index 0; all but the first make a list, and
  so do all behind a new one. At an index in bounds the first of what is behind as many items is
  found, and at any other one the value given for it. For a vector, to look up an index as a key
  finds the same.
* If a list or a vector has an item, its first one and the rest of it make a list of its very items,
  which equals it unless there is a `nan` in it.
* Of a list or a vector and a value that equals it, all the operations make what is alike: equal
  values, or the same fault. What else they are given may be equal only, too; a value equals itself
  unless there is a `nan` in it. -/
theorem sequenceView :
    (∀ (given : Value) (items : List Value), given.items? = some items →
      count.Gives [given] (.ok (.int items.length)) ∧
      first.Gives [given] (.ok (items.head?.getD .nil)) ∧
      nth.Gives [given, .int 0, .nil] (.ok (items.head?.getD .nil)) ∧
      rest.Gives [given] (.ok (.list items.tail)) ∧
      (∀ head, cons.Gives [head, given] (.ok (.list (head :: items)))) ∧
      ∀ (i : Int) (otherwise : Value),
        (0 ≤ i → i < items.length → ∃ left item, Behind i.toNat given left ∧
          first.Gives [left] (.ok item) ∧ nth.Gives [given, .int i, otherwise] (.ok item)) ∧
        (i < 0 ∨ items.length ≤ i → nth.Gives [given, .int i, otherwise] (.ok otherwise))) ∧
    (∀ (items : List Value) (i : Int) (otherwise : Value), ∃ found,
      nth.Gives [.vector items, .int i, otherwise] (.ok found) ∧
        get.Gives [.vector items, .int i, otherwise] (.ok found)) ∧
    (∀ (given : Value) (items : List Value), given.sequence? = some items → items ≠ [] →
      ∃ head tail whole, first.Gives [given] (.ok head) ∧ rest.Gives [given] (.ok tail) ∧
        cons.Gives [head, tail] (.ok whole) ∧ whole.sequence? = some items ∧
        (Comparable given → whole.equal given = true)) ∧
    ∀ (given given' : Value) (items : List Value), given.sequence? = some items →
      given.equal given' = true →
        count.GivesAlike [given] [given'] ∧ first.GivesAlike [given] [given'] ∧
        rest.GivesAlike [given] [given'] ∧
        (∀ head head' : Value, head.equal head' = true →
          cons.GivesAlike [head, given] [head', given']) ∧
        ∀ index, nth.GivesAlike [given, index] [given', index] ∧
          ∀ otherwise otherwise' : Value, otherwise.equal otherwise' = true →
            nth.GivesAlike [given, index, otherwise] [given', index, otherwise'] := by
  refine ⟨?_, ?_, ?_, ?_⟩
  · intro given items h
    refine ⟨count_gives h, first_gives h, ?_, rest_gives h, cons_gives h, fun i otherwise =>
      ⟨fun hlow hhigh => Value.exists_behind_first h hlow hhigh otherwise, fun hout => ?_⟩⟩
    · rw [List.head?_eq_getElem?]
      exact nth_gives h 0 .nil
    · have hnth := nth_gives h i otherwise
      rwa [Collection.itemAt?_of_out hout] at hnth
  · exact fun items i otherwise => ⟨_, nth_gives rfl i otherwise, gives_plain rfl rfl⟩
  · intro given items h hne
    obtain ⟨head, items, rfl⟩ := List.exists_cons_of_ne_nil hne
    have hgiven := Value.items?_of_sequence? h
    refine ⟨head, .list items, .list (head :: items), first_gives hgiven, rest_gives hgiven,
      cons_gives rfl head, rfl, fun hcomparable => (Value.equal_sequence rfl).2 ⟨_, h, ?_⟩⟩
    exact List.forall₂_same.2 fun item hitem => (hcomparable.items h item hitem).equal_self
  · intro given given' items h hequal
    obtain ⟨items', h', hitems⟩ := (Value.equal_sequence h).1 hequal
    replace h := Value.items?_of_sequence? h
    replace h' := Value.items?_of_sequence? h'
    exact ⟨count_alike h h' hitems, first_alike h h' hitems, rest_alike h h' hitems,
      fun _ _ => cons_alike h h' hitems, nth_alike h h' hitems⟩

/-- A vector of a binary64 number and a whole one, and a list of the other kinds of number that
equals it. -/
theorem sequenceView_across :
    let one : Value := .number (.float (.ofInt 1))
    let given : Value := .vector [one, .int 2]
    let given' : Value := .list [.int 1, .number (.float (.ofInt 2))]
    nth.Gives [given, .int 1, one] (.ok (.int 2)) ∧ nth.Gives [given, .int (-1), one] (.ok one) ∧
      (∃ left, Behind 1 given left ∧ first.Gives [left] (.ok (.int 2))) ∧
      (Value.list [one, .int 2]).equal given = true ∧
      rest.GivesAlike [given] [given'] ∧ nth.GivesAlike [given, .int 2] [given', .int 2] := by
  intro one given given'
  obtain ⟨hview, -, hparts, hequal⟩ := sequenceView
  obtain ⟨-, -, -, -, -, hnth⟩ := hview given [one, .int 2] rfl
  obtain ⟨left, item, hbehind, hfirst, hitem⟩ := (hnth 1 one).1 (by decide) (by decide)
  obtain rfl : item = .int 2 := Except.ok.inj (hitem.unique (gives_plain rfl rfl))
  have hcomparable : Comparable given := by
    refine .sequence rfl ?_
    intro item hitem
    rcases List.mem_pair.1 hitem with rfl | rfl
    · exact .ofInt 1
    · exact .int 2
  obtain ⟨head, tail, whole, hhead, htail, hwhole, -, hself⟩ :=
    hparts given [one, .int 2] rfl (List.cons_ne_nil _ _)
  obtain rfl : head = one := Except.ok.inj (hhead.unique (gives_plain rfl rfl))
  obtain rfl : tail = .list [.int 2] := Except.ok.inj (htail.unique (gives_plain rfl rfl))
  obtain rfl : whole = .list [one, .int 2] := Except.ok.inj (hwhole.unique (gives_plain rfl rfl))
  obtain ⟨-, -, hrest, -, hindex⟩ := hequal given given' [one, .int 2] rfl (by decide +kernel)
  exact ⟨hitem, (hnth (-1) one).2 (.inl (by decide)), ⟨left, hbehind, hfirst⟩, hself hcomparable,
    hrest, (hindex (.int 2)).1⟩

end Builtin

end SmallLisp
