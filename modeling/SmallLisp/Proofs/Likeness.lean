import Mathlib.Data.List.Forall2
import SmallLisp.Builtin.Plain
import SmallLisp.Fault.Report
import SmallLisp.Proofs.InShape

/-!
# Values that no operation tells apart

Two runs are compared by a relation between the values of the one and the values of the other. A
relation is a **likeness** if it goes through collections, keeps the kind of a value and everything
that can be seen of a leaf, and respects equality. Whatever works on values alone then works in the
same way on both sides:

* `Value.Pairs`: the values are of one kind, with related parts.
* `Likeness`: the laws of the relation.
* `Fault.Like`, `Agree`: faults about related values, and computations with related results or such
  faults.
* `Likeness.agree_plain`: operations without effects.
* `Likeness.shaped_check`, `Likeness.agree_walk`: the shapes of special forms, and the check of a
  program.

Which callables and scopes are related is left open, and so is which symbols may occur at all.
-/

namespace SmallLisp

/-! ## The relation -/

/-- The values are of one kind, with related parts; of a leaf both sides are the same. -/
inductive Value.Pairs (R : Value → Value → Prop) : Value → Value → Prop
  | nil : Pairs R .nil .nil
  | bool (b : Bool) : Pairs R (.bool b) (.bool b)
  | number (n : Number) : Pairs R (.number n) (.number n)
  | str (text : String) : Pairs R (.str text) (.str text)
  | symbol (name : String) : Pairs R (.symbol name) (.symbol name)
  | keyword (name : String) : Pairs R (.keyword name) (.keyword name)
  | list {items items' : List Value} : items.Forall₂ R items' →
      Pairs R (.list items) (.list items')
  | vector {items items' : List Value} : items.Forall₂ R items' →
      Pairs R (.vector items) (.vector items')
  | map {entries entries' : Entries} :
      entries.Forall₂ (fun entry entry' => R entry.1 entry'.1 ∧ R entry.2 entry'.2) entries' →
      Pairs R (.map entries) (.map entries')
  | function (serial serial' : Nat) (params params' : Value) (body body' : List Value)
      (home home' : FrameId) :
      Pairs R (.function serial params body home) (.function serial' params' body' home')
  | host (serial serial' : Nat) (operation : HostOperation) :
      Pairs R (.host serial operation) (.host serial' operation)
  | transformer (serial serial' : Nat) (target target' : Value) :
      Pairs R (.transformer serial target) (.transformer serial' target')
  | environment (frame frame' : FrameId) : Pairs R (.environment frame) (.environment frame')

/-- Rows that are related by being the same, and having a property, are the same row. -/
theorem forall₂_eq_and {α : Type} {p : α → Prop} {items items' : List α} :
    items.Forall₂ (fun a a' => a = a' ∧ p a) items' ↔ items = items' ∧ ∀ a ∈ items, p a := by
  constructor
  · intro h
    induction h with
    | nil => simp
    | cons h _ ih =>
      obtain ⟨rfl, hp⟩ := h
      obtain ⟨rfl, hitems⟩ := ih
      exact ⟨rfl, List.forall_mem_cons.2 ⟨hp, hitems⟩⟩
  · rintro ⟨rfl, h⟩
    exact List.forall₂_same.2 fun a ha => ⟨rfl, h a ha⟩

/-- The relation is one that no operation sees through. -/
structure Likeness (R : Value → Value → Prop) : Prop where
  pairs : ∀ {a a'}, R a a' → Value.Pairs R a a'
  equal : ∀ {a a' b b'}, R a a' → R b b' → a.equal b = a'.equal b'
  nil : R .nil .nil
  bool : ∀ b, R (.bool b) (.bool b)
  number : ∀ n, R (.number n) (.number n)
  str : ∀ text, R (.str text) (.str text)
  list : ∀ {items items'}, List.Forall₂ R items items' → R (.list items) (.list items')
  vector : ∀ {items items'}, List.Forall₂ R items items' → R (.vector items) (.vector items')
  map : ∀ {entries entries' : Entries},
    entries.Forall₂ (fun entry entry' => R entry.1 entry'.1 ∧ R entry.2 entry'.2) entries' →
    R (.map entries) (.map entries')

/-- To be the same value, and to have a property, is a likeness if the property goes through
collections. -/
theorem likeness_eq_and {p : Value → Prop} (hnil : p .nil) (hbool : ∀ b, p (.bool b))
    (hnumber : ∀ n, p (.number n)) (hstr : ∀ text, p (.str text))
    (hlist : ∀ {items}, p (.list items) ↔ ∀ item ∈ items, p item)
    (hvector : ∀ {items}, p (.vector items) ↔ ∀ item ∈ items, p item)
    (hmap : ∀ {entries}, p (.map entries) ↔ ∀ entry ∈ entries, p entry.1 ∧ p entry.2) :
    Likeness fun a a' => a = a' ∧ p a where
  pairs := by
    rintro a _ ⟨rfl, ha⟩
    cases a with
    | list items => exact .list (List.forall₂_same.2 fun a hmem => ⟨rfl, hlist.1 ha a hmem⟩)
    | vector items => exact .vector (List.forall₂_same.2 fun a hmem => ⟨rfl, hvector.1 ha a hmem⟩)
    | map entries =>
      refine .map (List.forall₂_same.2 fun entry hentry => ?_)
      obtain ⟨hkey, hvalue⟩ := hmap.1 ha entry hentry
      exact ⟨⟨rfl, hkey⟩, rfl, hvalue⟩
    | nil => exact .nil
    | bool b => exact .bool b
    | number n => exact .number n
    | str text => exact .str text
    | symbol name => exact .symbol name
    | keyword name => exact .keyword name
    | function => exact .function ..
    | host => exact .host ..
    | transformer => exact .transformer ..
    | environment => exact .environment ..
  equal := by
    rintro a _ b _ ⟨rfl, -⟩ ⟨rfl, -⟩
    rfl
  nil := ⟨rfl, hnil⟩
  bool b := ⟨rfl, hbool b⟩
  number n := ⟨rfl, hnumber n⟩
  str text := ⟨rfl, hstr text⟩
  list hitems := by
    obtain ⟨rfl, hall⟩ := forall₂_eq_and.1 hitems
    exact ⟨rfl, hlist.2 hall⟩
  vector hitems := by
    obtain ⟨rfl, hall⟩ := forall₂_eq_and.1 hitems
    exact ⟨rfl, hvector.2 hall⟩
  map hentries := by
    have hsame := hentries.imp fun _ _ hentry =>
      And.intro (Prod.ext hentry.1.1 hentry.2.1) (And.intro hentry.1.2 hentry.2.2)
    obtain ⟨rfl, hall⟩ := forall₂_eq_and.1 hsame
    exact ⟨rfl, hmap.2 hall⟩

/-! ## Faults -/

namespace Fault

/-- The value that the fault speaks of. -/
def subject? : Fault → Option Value
  | .shape _ (.target given) | .shape _ (.notSymbol given) => some given
  | .bind (.notName given) | .bind (.target given) | .bind (.notSequential given) => some given
  | .definition _ (.notSymbol given) | .definition _ (.notVector given) => some given
  | .unbound given | .headNotFunction given | .applyTransformer given
  | .applyNonFunction given => some given
  | .functionArity given _ _ | .transformerArity given _ _ => some given
  | .notNumber _ given | .notCollection _ given => some given
  | .uncountable given | .indexNotWhole given | .targetNotFunction given => some given
  | .missingArgument given => some given
  | _ => none

/-- The same fault about another value. -/
def about (value : Value) : Fault → Fault
  | .shape form (.target _) => .shape form (.target value)
  | .shape form (.notSymbol _) => .shape form (.notSymbol value)
  | .bind (.notName _) => .bind (.notName value)
  | .bind (.target _) => .bind (.target value)
  | .bind (.notSequential _) => .bind (.notSequential value)
  | .definition expander (.notSymbol _) => .definition expander (.notSymbol value)
  | .definition expander (.notVector _) => .definition expander (.notVector value)
  | .unbound _ => .unbound value
  | .headNotFunction _ => .headNotFunction value
  | .applyTransformer _ => .applyTransformer value
  | .applyNonFunction _ => .applyNonFunction value
  | .functionArity _ required got => .functionArity value required got
  | .transformerArity _ required got => .transformerArity value required got
  | .notNumber operation _ => .notNumber operation value
  | .notCollection operation _ => .notCollection operation value
  | .uncountable _ => .uncountable value
  | .indexNotWhole _ => .indexNotWhole value
  | .targetNotFunction _ => .targetNotFunction value
  | .missingArgument _ => .missingArgument value
  | fault => fault

/-- The faults are the same but for the values they speak of, and these are related. -/
inductive Like (R : Value → Value → Prop) : Fault → Fault → Prop
  | same {fault : Fault} : fault.subject? = none → Like R fault fault
  | about {fault : Fault} {value value' : Value} : fault.subject? = some value → R value value' →
      Like R fault (fault.about value')

theorem about_subject {fault : Fault} {value : Value} (h : fault.subject? = some value) :
    fault.about value = fault := by
  unfold subject? at h
  split at h <;> cases h <;> rfl

/-- Faults about values that are the same are the same. -/
theorem Like.eq {R : Value → Value → Prop} (hR : ∀ {a a'}, R a a' → a = a') {fault fault' : Fault}
    (h : Like R fault fault') : fault = fault' := by
  cases h with
  | same => rfl
  | about hsubject hvalue =>
    rw [← hR hvalue, about_subject hsubject]

theorem Like.mono {R R' : Value → Value → Prop} (hR : ∀ {a a'}, R a a' → R' a a')
    {fault fault' : Fault} (h : Like R fault fault') : Like R' fault fault' := by
  cases h with
  | same hsubject => exact .same hsubject
  | about hsubject hvalue => exact .about hsubject (hR hvalue)

/-- Faults about values with the same texts are reported in the same words. -/
theorem Like.report_eq {R : Value → Value → Prop} {store store' : Store}
    (hprint : ∀ {a a'}, R a a' → ∀ style, store.print style a = store'.print style a')
    {fault fault' : Fault} (h : Like R fault fault') :
    fault.report store = fault'.report store' := by
  cases h with
  | same hsubject =>
    rcases fault with _ | ⟨_, _ | _⟩ | ⟨_ | _⟩ | ⟨_, _ | _⟩ | _ <;> cases hsubject <;>
      simp only [report, words?, ShapeError.words, BindError.words, DefinitionError.words]
  | about hsubject hvalue =>
    have hwords := hprint hvalue
    unfold subject? at hsubject
    split at hsubject <;> cases hsubject <;>
      simp only [Fault.about, report, kind, words?, ShapeError.words, BindError.words,
        DefinitionError.words, ShapeError.kind, BindError.kind, DefinitionError.kind, hwords]

end Fault

/-- The computations have related results or end with faults about related values. -/
inductive Agree {α β : Type} (R : Value → Value → Prop) (q : α → β → Prop) :
    Except Fault α → Except Fault β → Prop
  | ok {a : α} {b : β} : q a b → Agree R q (.ok a) (.ok b)
  | error {fault fault' : Fault} : Fault.Like R fault fault' →
      Agree R q (.error fault) (.error fault')

theorem Agree.bind {α β α' β' : Type} {R : Value → Value → Prop} {q : α → β → Prop}
    {r : α' → β' → Prop} {x : Except Fault α} {x' : Except Fault β} {f : α → Except Fault α'}
    {f' : β → Except Fault β'} (hx : Agree R q x x') (hf : ∀ a b, q a b → Agree R r (f a) (f' b)) :
    Agree R r (x >>= f) (x' >>= f') := by
  cases hx with
  | ok h => exact hf _ _ h
  | error h => exact .error h

namespace Likeness

variable {R : Value → Value → Prop}

theorem truthy_eq (hR : Likeness R) {value value' : Value} (h : R value value') :
    value.truthy = value'.truthy := by
  cases hR.pairs h <;> rfl

theorem ofHead?_eq (hR : Likeness R) {head head' : Value} (h : R head head') :
    SpecialForm.ofHead? head = SpecialForm.ofHead? head' := by
  cases hR.pairs h <;> rfl

/-! ## Operations on numbers -/

theorem agree_numbers (hR : Likeness R) (operation : Builtin) {args args' : List Value}
    (hargs : args.Forall₂ R args') :
    Agree R Eq (Arithmetic.numbers operation args) (Arithmetic.numbers operation args') := by
  induction hargs with
  | nil => exact .ok rfl
  | cons hvalue _ ih =>
    cases hR.pairs hvalue with
    | number n =>
      rw [Arithmetic.numbers, Arithmetic.numbers]
      exact ih.bind fun _ _ h => .ok (by rw [h])
    | _ => exact .error (.about rfl hvalue)

theorem agree_foldFrom (hR : Likeness R) (operation : Builtin)
    (op : Number → Number → Except ArithmeticError Number) (start : Number) (args : List Number) :
    Agree R R (Arithmetic.foldFrom operation op start args)
      (Arithmetic.foldFrom operation op start args) := by
  unfold Arithmetic.foldFrom
  split
  · exact .ok (hR.number _)
  · rename_i reason _
    cases reason <;> exact .error (.same rfl)

theorem agree_difference (hR : Likeness R) {args args' : List Value}
    (hargs : args.Forall₂ R args') :
    Agree R R (Arithmetic.difference args) (Arithmetic.difference args') := by
  cases hargs with
  | nil => exact .error (.same rfl)
  | cons hvalue hrest =>
    refine (hR.agree_numbers .sub (.cons hvalue hrest)).bind ?_
    rintro ns _ rfl
    split
    · exact .ok (hR.number _)
    · exact hR.agree_foldFrom _ _ _ _
    · exact .error (.same rfl)

theorem agree_quotient (hR : Likeness R) {args args' : List Value}
    (hargs : args.Forall₂ R args') :
    Agree R R (Arithmetic.quotient args) (Arithmetic.quotient args') := by
  cases hargs with
  | nil => exact .error (.same rfl)
  | cons hvalue hrest =>
    refine (hR.agree_numbers .div (.cons hvalue hrest)).bind ?_
    rintro ns _ rfl
    split
    · exact hR.agree_foldFrom _ _ _ _
    · exact hR.agree_foldFrom _ _ _ _
    · exact .error (.same rfl)

theorem agree_comparison (hR : Likeness R) (operation : Builtin)
    (related : Number → Number → Bool) {args args' : List Value} (hargs : args.Forall₂ R args') :
    Agree R R (Arithmetic.comparison operation related args)
      (Arithmetic.comparison operation related args') := by
  cases hargs with
  | nil => exact .error (.same rfl)
  | cons hvalue hrest =>
    refine (hR.agree_numbers operation (.cons hvalue hrest)).bind ?_
    rintro ns _ rfl
    exact .ok (hR.bool _)

/-! ## Operations on collections -/

theorem agree_items (hR : Likeness R) (operation : Builtin) {given given' : Value}
    (h : R given given') :
    Agree R (List.Forall₂ R) (Collection.items operation given)
      (Collection.items operation given') := by
  cases hR.pairs h with
  | nil => exact .ok .nil
  | list hitems => exact .ok hitems
  | vector hitems => exact .ok hitems
  | map hentries =>
    refine .ok (List.forall₂_map_left_iff.2 (List.forall₂_map_right_iff.2 (hentries.imp ?_)))
    exact fun _ _ hentry => hR.vector (.cons hentry.1 (.cons hentry.2 .nil))
  | _ => exact .error (.about rfl h)

theorem rel_getElem? {items items' : List Value} (h : items.Forall₂ R items') (i : Nat) :
    Option.Rel R items[i]? items'[i]? := by
  induction h generalizing i with
  | nil => exact .none
  | cons hitem _ ih =>
    cases i with
    | zero => exact .some hitem
    | succ i => exact ih i

theorem rel_itemAt? {items items' : List Value} (h : items.Forall₂ R items') (index : Int) :
    Option.Rel R (Collection.itemAt? items index) (Collection.itemAt? items' index) := by
  unfold Collection.itemAt?
  split
  · exact .none
  · exact rel_getElem? h _

theorem getD_of_rel {value value' : Option Value} (h : Option.Rel R value value')
    {otherwise otherwise' : Value} (hotherwise : R otherwise otherwise') :
    R (value.getD otherwise) (value'.getD otherwise') := by
  cases h with
  | some h => exact h
  | none => exact hotherwise

theorem head?_getD (hR : Likeness R) {items items' : List Value} (h : items.Forall₂ R items') :
    R (items.head?.getD .nil) (items'.head?.getD .nil) := by
  cases h with
  | nil => exact hR.nil
  | cons h _ => exact h

theorem forall₂_tail {items items' : List Value} (h : items.Forall₂ R items') :
    items.tail.Forall₂ R items'.tail := by
  cases h with
  | nil => exact .nil
  | cons _ h => exact h

theorem agree_nthOr (hR : Likeness R) {given given' index index' : Value}
    {otherwise otherwise' : Option Value} (hgiven : R given given') (hindex : R index index')
    (hotherwise : Option.Rel R otherwise otherwise') :
    Agree R R (Collection.nthOr given index otherwise)
      (Collection.nthOr given' index' otherwise') := by
  have hindices := hR.pairs hindex
  cases hindices with
  | number n =>
    cases n with
    | int i =>
      refine (hR.agree_items .nth hgiven).bind ?_
      intro items items' hitems
      have hitem := rel_itemAt? hitems i
      generalize Collection.itemAt? items i = item, Collection.itemAt? items' i = item' at hitem ⊢
      cases hitem with
      | some hvalue => exact .ok hvalue
      | none =>
        cases hotherwise with
        | some hvalue => exact .ok hvalue
        | none =>
          simp only [hitems.length_eq]
          exact .error (.same rfl)
    | float x => exact .error (.about rfl hindex)
  | _ => exact .error (.about rfl hindex)

theorem rel_get? (hR : Likeness R) {entries entries' : Entries}
    (hentries : entries.Forall₂ (fun entry entry' => R entry.1 entry'.1 ∧ R entry.2 entry'.2)
      entries') {key key' : Value} (hkey : R key key') :
    Option.Rel R (entries.get? key) (entries'.get? key') := by
  unfold Entries.get?
  induction hentries with
  | nil => exact .none
  | @cons entry entry' entries entries' hentry _ ih =>
    rw [List.find?_cons, List.find?_cons, hR.equal hkey hentry.1]
    split
    · exact .some hentry.2
    · exact ih

theorem getOr (hR : Likeness R) {given given' key key' otherwise otherwise' : Value}
    (hgiven : R given given') (hkey : R key key') (hotherwise : R otherwise otherwise') :
    R (Collection.getOr given key otherwise) (Collection.getOr given' key' otherwise') := by
  cases hR.pairs hgiven with
  | map hentries => exact getD_of_rel (hR.rel_get? hentries hkey) hotherwise
  | vector hitems =>
    cases hR.pairs hkey with
    | number n =>
      cases n with
      | int i => exact getD_of_rel (rel_itemAt? hitems i) hotherwise
      | float x => exact hotherwise
    | _ => exact hotherwise
  | _ => exact hotherwise

theorem size?_eq (hR : Likeness R) {given given' : Value} (h : R given given') :
    given.size? = given'.size? := by
  cases hR.pairs h with
  | list hitems => exact congrArg some hitems.length_eq
  | vector hitems => exact congrArg some hitems.length_eq
  | map hentries => exact congrArg some hentries.length_eq
  | _ => rfl

/-! ## Maps -/

/-- The keys of the entries are related, and their values are. -/
abbrev EntryLike (R : Value → Value → Prop) (entry entry' : Value × Value) : Prop :=
  R entry.1 entry'.1 ∧ R entry.2 entry'.2

theorem forall₂_insert (hR : Likeness R) {entries entries' : Entries}
    (hentries : entries.Forall₂ (EntryLike R) entries') {key key' value value' : Value}
    (hkey : R key key') (hvalue : R value value') :
    (entries.insert key value).Forall₂ (EntryLike R) (entries'.insert key' value') := by
  induction hentries with
  | nil => exact .cons ⟨hkey, hvalue⟩ .nil
  | cons hentry hentries ih =>
    rw [Entries.insert, Entries.insert, hR.equal hkey hentry.1]
    split
    · exact .cons ⟨hentry.1, hvalue⟩ hentries
    · exact .cons hentry ih

theorem forall₂_ofPairs (hR : Likeness R) {pairs pairs' : List (Value × Value)}
    (hpairs : pairs.Forall₂ (EntryLike R) pairs') :
    (Entries.ofPairs pairs).Forall₂ (EntryLike R) (Entries.ofPairs pairs') := by
  unfold Entries.ofPairs
  refine List.rel_foldl ?_ .nil hpairs
  exact fun _ _ hentries _ _ hpair => hR.forall₂_insert hentries hpair.1 hpair.2

theorem rel_pairUp? {flat flat' : List Value} (h : flat.Forall₂ R flat') :
    Option.Rel (List.Forall₂ (EntryLike R)) (Entries.pairUp? flat) (Entries.pairUp? flat') := by
  induction flat using Entries.pairUp?.induct generalizing flat' with
  | case1 =>
    cases h
    exact .some .nil
  | case2 =>
    obtain ⟨_, _, _, hrest, rfl⟩ := List.forall₂_cons_left_iff.1 h
    cases hrest
    exact .none
  | case3 key value rest ih =>
    obtain ⟨key', _, hkey, hrest, rfl⟩ := List.forall₂_cons_left_iff.1 h
    obtain ⟨value', rest', hvalue, hbehind, rfl⟩ := List.forall₂_cons_left_iff.1 hrest
    rw [Entries.pairUp?, Entries.pairUp?]
    have hpairs := ih hbehind
    generalize Entries.pairUp? rest = pairs, Entries.pairUp? rest' = pairs' at hpairs ⊢
    cases hpairs with
    | none => exact .none
    | some hpairs => exact .some (.cons ⟨hkey, hvalue⟩ hpairs)

theorem agree_hashMap (hR : Likeness R) {args args' : List Value} (hargs : args.Forall₂ R args') :
    Agree R R (Collection.hashMap args) (Collection.hashMap args') := by
  have hpairs := rel_pairUp? hargs
  unfold Collection.hashMap Entries.ofFlat?
  rw [hargs.length_eq]
  generalize Entries.pairUp? args = pairs, Entries.pairUp? args' = pairs' at hpairs ⊢
  cases hpairs with
  | none => exact .error (.same rfl)
  | some hpairs => exact .ok (hR.map (hR.forall₂_ofPairs hpairs))

/-! ## Operations with a fixed number of arguments -/

theorem agree_first (hR : Likeness R) {args args' : List Value} (hargs : args.Forall₂ R args') :
    Agree R R (Collection.first args) (Collection.first args') := by
  rcases hargs with _ | ⟨hgiven, _ | ⟨_, hrest⟩⟩
  · exact .error (.same rfl)
  · exact (hR.agree_items .first hgiven).bind fun _ _ hitems => .ok (hR.head?_getD hitems)
  · simp only [Collection.first, List.length_cons, hrest.length_eq]
    exact .error (.same rfl)

theorem agree_rest (hR : Likeness R) {args args' : List Value} (hargs : args.Forall₂ R args') :
    Agree R R (Collection.rest args) (Collection.rest args') := by
  rcases hargs with _ | ⟨hgiven, _ | ⟨_, hrest⟩⟩
  · exact .error (.same rfl)
  · exact (hR.agree_items .rest hgiven).bind fun _ _ hitems => .ok (hR.list (forall₂_tail hitems))
  · simp only [Collection.rest, List.length_cons, hrest.length_eq]
    exact .error (.same rfl)

theorem agree_cons (hR : Likeness R) {args args' : List Value} (hargs : args.Forall₂ R args') :
    Agree R R (Collection.cons args) (Collection.cons args') := by
  rcases hargs with _ | ⟨hhead, _ | ⟨hgiven, _ | ⟨_, hrest⟩⟩⟩
  · exact .error (.same rfl)
  · exact .error (.same rfl)
  · exact (hR.agree_items .cons hgiven).bind fun _ _ hitems => .ok (hR.list (.cons hhead hitems))
  · simp only [Collection.cons, List.length_cons, hrest.length_eq]
    exact .error (.same rfl)

theorem agree_nth (hR : Likeness R) {args args' : List Value} (hargs : args.Forall₂ R args') :
    Agree R R (Collection.nth args) (Collection.nth args') := by
  rcases hargs with _ | ⟨hgiven, _ | ⟨hindex, _ | ⟨hotherwise, _ | ⟨_, hrest⟩⟩⟩⟩
  · exact .error (.same rfl)
  · exact .error (.same rfl)
  · exact hR.agree_nthOr hgiven hindex .none
  · exact hR.agree_nthOr hgiven hindex (.some hotherwise)
  · simp only [Collection.nth, List.length_cons, hrest.length_eq]
    exact .error (.same rfl)

theorem agree_get (hR : Likeness R) {args args' : List Value} (hargs : args.Forall₂ R args') :
    Agree R R (Collection.get args) (Collection.get args') := by
  rcases hargs with _ | ⟨hgiven, _ | ⟨hkey, _ | ⟨hotherwise, _ | ⟨_, hrest⟩⟩⟩⟩
  · exact .error (.same rfl)
  · exact .error (.same rfl)
  · exact .ok (hR.getOr hgiven hkey hR.nil)
  · exact .ok (hR.getOr hgiven hkey hotherwise)
  · simp only [Collection.get, List.length_cons, hrest.length_eq]
    exact .error (.same rfl)

theorem agree_count (hR : Likeness R) {args args' : List Value} (hargs : args.Forall₂ R args') :
    Agree R R (Collection.count args) (Collection.count args') := by
  rcases hargs with _ | ⟨hgiven, _ | ⟨_, hrest⟩⟩
  · exact .error (.same rfl)
  · rw [Collection.count, Collection.count, hR.size?_eq hgiven]
    split
    · exact .ok (hR.number _)
    · exact .error (.about rfl hgiven)
  · simp only [Collection.count, List.length_cons, hrest.length_eq]
    exact .error (.same rfl)

/-! ## All operations without effects -/

theorem allEqual_eq (hR : Likeness R) {args args' : List Value} (hargs : args.Forall₂ R args') :
    allEqual args = allEqual args' := by
  cases hargs with
  | nil => rfl
  | @cons first first' rest rest' hfirst hrest =>
    show (rest.all fun other => first.equal other) = rest'.all fun other => first'.equal other
    induction hrest with
    | nil => rfl
    | cons hother _ ih => rw [List.all_cons, List.all_cons, hR.equal hfirst hother, ih]

theorem agree_predicate (hR : Likeness R) (operation : Builtin) {test : Value → Bool}
    (htest : ∀ {a a'}, Value.Pairs R a a' → test a = test a') {args args' : List Value}
    (hargs : args.Forall₂ R args') :
    Agree R R (predicate operation test args) (predicate operation test args') := by
  rcases hargs with _ | ⟨hvalue, _ | ⟨hsecond, hrest⟩⟩
  · exact .error (.same rfl)
  · rw [predicate, predicate, htest (hR.pairs hvalue)]
    exact .ok (hR.bool _)
  · simp only [predicate, List.length_cons, hrest.length_eq]
    exact .error (.same rfl)

/-- **An operation without effects does not tell related arguments apart.** -/
theorem agree_plain (hR : Likeness R) {operation : Builtin}
    {compute : List Value → Except Fault Value} (h : operation.plain? = some compute)
    {args args' : List Value} (hargs : args.Forall₂ R args') :
    Agree R R (compute args) (compute args') := by
  cases operation <;> simp only [Builtin.plain?, Option.some.injEq, reduceCtorEq] at h <;> subst h
  case add | mul =>
    refine (hR.agree_numbers _ hargs).bind ?_
    rintro ns _ rfl
    exact hR.agree_foldFrom _ _ _ _
  case sub => exact hR.agree_difference hargs
  case div => exact hR.agree_quotient hargs
  case equal | notEqual =>
    simp only [hR.allEqual_eq hargs]
    exact .ok (hR.bool _)
  case less | lessEq | greater | greaterEq => exact hR.agree_comparison _ _ hargs
  case list => exact .ok (hR.list hargs)
  case vector => exact .ok (hR.vector hargs)
  case hashMap => exact hR.agree_hashMap hargs
  case first => exact hR.agree_first hargs
  case rest => exact hR.agree_rest hargs
  case cons => exact hR.agree_cons hargs
  case nth => exact hR.agree_nth hargs
  case get => exact hR.agree_get hargs
  case count => exact hR.agree_count hargs
  case negation | isSymbol | isKeyword | isNil | isList | isVector | isMap | isFunction =>
    refine hR.agree_predicate _ ?_ hargs
    intro a a' hpairs
    cases hpairs <;> rfl

/-! ## Patterns and shapes -/

/-- Related values, or one and the same symbol. Functions bind to such targets: what a parameter is
called does not matter to the values that are bound. -/
def Target (R : Value → Value → Prop) (pattern pattern' : Value) : Prop :=
  R pattern pattern' ∨ ∃ name, pattern = .symbol name ∧ pattern' = .symbol name

mutual

theorem rel_badTarget? (hR : Likeness R) : ∀ (pattern : Value) {pattern' : Value},
    R pattern pattern' → Option.Rel R (Pattern.badTarget? pattern) (Pattern.badTarget? pattern')
  | .symbol _, _, h => by
    cases hR.pairs h
    exact .none
  | .vector items, _, h => by
    cases hR.pairs h with
    | vector hitems => exact rel_badTargets? hR items hitems
  | .nil, _, h | .bool _, _, h | .number _, _, h | .str _, _, h | .keyword _, _, h
  | .list _, _, h | .map _, _, h | .function .., _, h | .host .., _, h | .transformer .., _, h
  | .environment _, _, h => by
    cases hR.pairs h; exact .some h

theorem rel_badTargets? (hR : Likeness R) : ∀ (patterns : List Value) {patterns' : List Value},
    patterns.Forall₂ R patterns' →
    Option.Rel R (Pattern.badTargets? patterns) (Pattern.badTargets? patterns')
  | [], _, h => by
    cases h
    exact .none
  | pattern :: patterns, _, h => by
    obtain ⟨pattern', patterns', hpattern, hpatterns, rfl⟩ := List.forall₂_cons_left_iff.1 h
    have hfirst := rel_badTarget? hR pattern hpattern
    rw [Pattern.badTargets?, Pattern.badTargets?]
    generalize Pattern.badTarget? pattern = bad, Pattern.badTarget? pattern' = bad' at hfirst ⊢
    cases hfirst with
    | some hbad => exact .some hbad
    | none => exact rel_badTargets? hR patterns hpatterns

end

/-- What keeps targets from being patterns is never a symbol, so it is related. -/
theorem rel_badTargets?_of_target (hR : Likeness R) {patterns patterns' : List Value}
    (h : patterns.Forall₂ (Target R) patterns') :
    Option.Rel R (Pattern.badTargets? patterns) (Pattern.badTargets? patterns') := by
  induction h with
  | nil => exact .none
  | @cons pattern pattern' patterns patterns' hpattern _ ih =>
    have hfirst : Option.Rel R (Pattern.badTarget? pattern) (Pattern.badTarget? pattern') := by
      rcases hpattern with hpattern | ⟨name, rfl, rfl⟩
      · exact hR.rel_badTarget? pattern hpattern
      · exact .none
    rw [Pattern.badTargets?, Pattern.badTargets?]
    generalize Pattern.badTarget? pattern = bad, Pattern.badTarget? pattern' = bad' at hfirst ⊢
    cases hfirst with
    | some hbad => exact .some hbad
    | none => exact ih

/-- The checks both pass, or they fail with the same fault about related values. -/
inductive Shaped (R : Value → Value → Prop) (form : SpecialForm) :
    Except ShapeError Unit → Except ShapeError Unit → Prop
  | ok : Shaped R form (.ok ()) (.ok ())
  | error {reason reason' : ShapeError} :
      Fault.Like R (.shape form reason) (.shape form reason') →
      Shaped R form (.error reason) (.error reason')

theorem Shaped.bind {form : SpecialForm} {x x' y y' : Except ShapeError Unit}
    (hx : Shaped R form x x') (hy : x = .ok () → Shaped R form y y') :
    Shaped R form (x >>= fun _ => y) (x' >>= fun _ => y') := by
  cases hx with
  | ok => exact hy rfl
  | error h => exact .error h

theorem shaped_exactly (form : SpecialForm) (required : Nat) {operands operands' : List Value}
    (h : operands.Forall₂ R operands') :
    Shaped R form (SpecialForm.checkExactly required operands)
      (SpecialForm.checkExactly required operands') := by
  unfold SpecialForm.checkExactly
  rw [h.length_eq]
  split
  · exact .ok
  · exact .error (.same rfl)

theorem shaped_atLeast (form : SpecialForm) (least : Nat) {operands operands' : List Value}
    (h : operands.length = operands'.length) :
    Shaped R form (SpecialForm.checkAtLeast least operands)
      (SpecialForm.checkAtLeast least operands') := by
  unfold SpecialForm.checkAtLeast
  rw [h]
  split
  · exact .ok
  · exact .error (.same rfl)

theorem shaped_targets (hR : Likeness R) (form : SpecialForm) {targets targets' : List Value}
    (h : targets.Forall₂ (Target R) targets') :
    Shaped R form (SpecialForm.checkTargets targets) (SpecialForm.checkTargets targets') := by
  have hbad := hR.rel_badTargets?_of_target h
  unfold SpecialForm.checkTargets
  generalize Pattern.badTargets? targets = bad, Pattern.badTargets? targets' = bad' at hbad ⊢
  cases hbad with
  | some hbad => exact .error (.about rfl hbad)
  | none => exact .ok

theorem forall₂_evens {S : Value → Value → Prop} {values values' : List Value}
    (h : values.Forall₂ S values') : (evens values).Forall₂ S (evens values') := by
  induction values using evens.induct generalizing values' with
  | case1 =>
    cases h
    exact .nil
  | case2 value =>
    obtain ⟨_, _, hvalue, hrest, rfl⟩ := List.forall₂_cons_left_iff.1 h
    cases hrest
    exact .cons hvalue .nil
  | case3 value _ rest ih =>
    obtain ⟨_, _, hvalue, hrest, rfl⟩ := List.forall₂_cons_left_iff.1 h
    obtain ⟨_, _, _, hbehind, rfl⟩ := List.forall₂_cons_left_iff.1 hrest
    exact .cons hvalue (ih hbehind)

theorem forall₂_target {values values' : List Value} (h : values.Forall₂ R values') :
    values.Forall₂ (Target R) values' :=
  h.imp fun _ _ hvalue => .inl hvalue

/-- The check of a function does not tell related parameters apart. -/
theorem shaped_fn (hR : Likeness R) {params params' body body' : List Value}
    (hparams : params.Forall₂ (Target R) params') (hbody : body.length = body'.length) :
    Shaped R .fnForm (SpecialForm.fnForm.check (.vector params :: body))
      (SpecialForm.fnForm.check (.vector params' :: body')) :=
  (shaped_atLeast _ 2 (by simp [hbody])).bind fun _ => hR.shaped_targets _ hparams

/-- The check of a special form does not tell related operands apart. -/
theorem shaped_check (hR : Likeness R) (form : SpecialForm) {operands operands' : List Value}
    (h : operands.Forall₂ R operands') :
    Shaped R form (form.check operands) (form.check operands') := by
  cases form with
  | quoteForm => exact shaped_exactly _ 1 h
  | ifForm => exact shaped_exactly _ 3 h
  | doForm => exact .ok
  | defForm =>
    refine (shaped_exactly _ 2 h).bind fun _ => ?_
    cases h with
    | nil => exact .ok
    | cons hgiven _ =>
      cases hR.pairs hgiven with
      | symbol => exact .ok
      | _ => exact .error (.about rfl hgiven)
  | letForm =>
    refine (shaped_atLeast _ 2 h.length_eq).bind fun _ => ?_
    cases h with
    | nil => exact .error (.same rfl)
    | cons hgiven _ =>
      cases hR.pairs hgiven with
      | vector hbindings =>
        simp only [hbindings.length_eq]
        split
        · exact hR.shaped_targets _ (forall₂_target (forall₂_evens hbindings))
        · exact .error (.same rfl)
      | _ => exact .error (.same rfl)
  | fnForm =>
    refine (shaped_atLeast _ 2 h.length_eq).bind fun _ => ?_
    cases h with
    | nil => exact .error (.same rfl)
    | cons hgiven _ =>
      cases hR.pairs hgiven with
      | vector hparams => exact hR.shaped_targets _ (forall₂_target hparams)
      | _ => exact .error (.same rfl)

/-- Related operands of a library transformer have related parts. -/
theorem agree_parts (hR : Likeness R) (expander : Expander) {operands operands' : List Value}
    (h : operands.Forall₂ R operands') :
    Agree R (fun parts parts' => parts.1 = parts'.1 ∧ R (.symbol parts.1) (.symbol parts'.1) ∧
      parts.2.1.Forall₂ R parts'.2.1 ∧ parts.2.2.Forall₂ R parts'.2.2)
      (expander.parts operands) (expander.parts operands') := by
  rcases h with _ | ⟨hname, _ | ⟨hparams, _ | ⟨hform, hforms⟩⟩⟩
  · exact .error (.same rfl)
  · exact .error (.same rfl)
  · exact .error (.same rfl)
  · cases hR.pairs hname with
    | symbol name =>
      cases hR.pairs hparams with
      | vector hitems => exact .ok ⟨rfl, hname, hitems, .cons hform hforms⟩
      | _ => exact .error (.about rfl hparams)
    | _ => exact .error (.about rfl hname)

/-! ## The check of a program -/

theorem learn_eq (hR : Likeness R) (name : String) {operands operands' : List Value}
    (h : operands.Forall₂ R operands') (known : List String) :
    Validation.learn name operands known = Validation.learn name operands' known := by
  cases h with
  | nil => rfl
  | cons hfirst _ =>
    cases hR.pairs hfirst <;> rfl

theorem forall₂_odds {values values' : List Value} (h : values.Forall₂ R values') :
    (odds values).Forall₂ R (odds values') := by
  induction values using odds.induct generalizing values' with
  | case1 _ value rest ih =>
    obtain ⟨_, _, _, hrest, rfl⟩ := List.forall₂_cons_left_iff.1 h
    obtain ⟨_, _, hvalue, hbehind, rfl⟩ := List.forall₂_cons_left_iff.1 hrest
    exact .cons hvalue (ih hbehind)
  | case2 values hvalues =>
    rcases h with _ | ⟨_, _ | _⟩
    · exact .nil
    · exact .nil
    · exact absurd rfl (hvalues _ _ _)

/-- Evaluation comes to related parts of related operands. -/
theorem forall₂_parts (hR : Likeness R) (form : SpecialForm) {operands operands' : List Value}
    (h : operands.Forall₂ R operands') :
    (form.parts operands).Forall₂ R (form.parts operands') := by
  cases form with
  | quoteForm => exact .nil
  | ifForm | doForm => exact h
  | defForm => exact forall₂_tail h
  | fnForm =>
    cases h with
    | nil => exact .nil
    | cons _ hbody => exact hbody
  | letForm =>
    cases h with
    | nil => exact .nil
    | cons hfirst hbody =>
      cases hR.pairs hfirst with
      | vector hbindings => exact List.rel_append (forall₂_odds hbindings) hbody
      | _ => exact .nil

section walk

variable {bound bound' : String → Bool}

theorem agree_walkAll_of_forall₂ {forms forms' : List Value}
    (h : forms.Forall₂ (fun form form' => ∀ known,
      Agree R Eq (Validation.walk bound form known) (Validation.walk bound' form' known)) forms')
    (known : List String) :
    Agree R Eq (Validation.walkAll bound forms known) (Validation.walkAll bound' forms' known) := by
  induction h generalizing known with
  | nil => exact .ok rfl
  | cons hform _ ih =>
    rw [Validation.walkAll, Validation.walkAll]
    refine (hform known).bind ?_
    rintro known' _ rfl
    exact ih known'

/-- The check of a form does not tell related forms apart, in scopes that take the same of their
names for transformers. -/
theorem agree_walk (hR : Likeness R)
    (hbound : ∀ name, R (.symbol name) (.symbol name) → bound name = bound' name)
    {form form' : Value} (h : R form form') (known : List String) :
    Agree R Eq (Validation.walk bound form known) (Validation.walk bound' form' known) := by
  -- the induction is on the size of the form, since the walk comes to parts of its parts
  induction hsize : sizeOf form using Nat.strongRecOn generalizing form form' known with
  | _ size ih =>
    subst hsize
    have hall : ∀ {parts parts' : List Value}, parts.Forall₂ R parts' →
        (∀ part ∈ parts, sizeOf part < sizeOf form) → ∀ known,
        Agree R Eq (Validation.walkAll bound parts known)
          (Validation.walkAll bound' parts' known) := by
      intro parts parts' hparts hlt known
      refine agree_walkAll_of_forall₂ (((List.forall₂_and_left _ _).2 ⟨hlt, hparts⟩).imp ?_) known
      exact fun part part' hpart known => ih _ hpart.1 hpart.2 known rfl
    cases hR.pairs h with
    | list hitems =>
      cases hitems with
      | nil => exact .ok rfl
      | @cons head head' operands operands' hhead hoperands =>
        have hltOperands : ∀ part ∈ operands,
            sizeOf part < sizeOf (Value.list (head :: operands)) :=
          fun _ hpart => sizeOf_item_lt (List.mem_cons_of_mem _ hpart)
        cases hR.pairs hhead with
        | symbol name =>
          cases hname : SpecialForm.ofName? name with
          | some special =>
            have hcheck := hR.shaped_check special hoperands
            generalize hleft : special.check operands = checked,
              hright : special.check operands' = checked' at hcheck
            cases hcheck with
            | ok =>
              rw [Validation.walk_special _ hname hleft, Validation.walk_special _ hname hright]
              exact hall (hR.forall₂_parts special hoperands) (fun _ => sizeOf_part_lt) known
            | error hfault =>
              rw [Validation.walk_shape _ hname hleft, Validation.walk_shape _ hname hright]
              exact .error hfault
          | none =>
            rw [Validation.walk_name hname, Validation.walk_name hname, ← hbound name hhead,
              ← hR.learn_eq name hoperands]
            split
            · exact .ok rfl
            · exact hall hoperands hltOperands known
        | _ =>
          simp only [Validation.walk]
          refine (ih _ (sizeOf_item_lt List.mem_cons_self) hhead known rfl).bind ?_
          rintro known' _ rfl
          exact hall hoperands hltOperands known'
    | _ => exact .ok rfl

theorem agree_walkAll (hR : Likeness R)
    (hbound : ∀ name, R (.symbol name) (.symbol name) → bound name = bound' name)
    {forms forms' : List Value} (h : forms.Forall₂ R forms') (known : List String) :
    Agree R Eq (Validation.walkAll bound forms known) (Validation.walkAll bound' forms' known) :=
  agree_walkAll_of_forall₂ (h.imp fun _ _ hform => hR.agree_walk hbound hform) known

/-- A function is checked by its parameters and its body. -/
theorem agree_walk_fn (hR : Likeness R)
    (hbound : ∀ name, R (.symbol name) (.symbol name) → bound name = bound' name)
    {params params' body body' : List Value} (hparams : params.Forall₂ (Target R) params')
    (hbody : body.Forall₂ R body') (known : List String) :
    Agree R Eq (Validation.walk bound (Expander.fnForm params body) known)
      (Validation.walk bound' (Expander.fnForm params' body') known) := by
  have hname : SpecialForm.ofName? "fn" = some .fnForm := SpecialForm.ofName?_name .fnForm
  have hcheck := hR.shaped_fn hparams hbody.length_eq
  unfold Expander.fnForm
  generalize hleft : SpecialForm.fnForm.check (.vector params :: body) = checked,
    hright : SpecialForm.fnForm.check (.vector params' :: body') = checked' at hcheck
  cases hcheck with
  | ok =>
    rw [Validation.walk_special _ hname hleft, Validation.walk_special _ hname hright]
    exact hR.agree_walkAll hbound hbody known
  | error hfault =>
    rw [Validation.walk_shape _ hname hleft, Validation.walk_shape _ hname hright]
    exact .error hfault

/-- A definition is checked by its right-hand side. -/
theorem agree_walk_def {name : String} {init init' : Value} {known : List String}
    (h : Agree R Eq (Validation.walk bound init known) (Validation.walk bound' init' known)) :
    Agree R Eq (Validation.walk bound (Expander.defForm name init) known)
      (Validation.walk bound' (Expander.defForm name init') known) := by
  have hname : SpecialForm.ofName? "def" = some .defForm := SpecialForm.ofName?_name .defForm
  unfold Expander.defForm
  rw [Validation.walk_special _ hname rfl, Validation.walk_special _ hname rfl]
  show Agree R Eq (Validation.walkAll bound [init] known) (Validation.walkAll bound' [init'] known)
  rw [Validation.walkAll, Validation.walkAll]
  refine h.bind ?_
  rintro known' _ rfl
  exact .ok rfl

end walk

end Likeness

end SmallLisp
