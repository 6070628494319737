import SmallLisp.Evaluator
import SmallLisp.Proofs.Equality

/-!
# Equality of values is an equivalence

On comparable values equality is reflexive as well as symmetric and transitive. The operation `=`
compares its first argument with each of the others and no two of the others, so that it answers
for all of its arguments, in whatever order they come, rests on all three laws.

* `Value.Comparable.equal_self`: a comparable value equals itself. For a map this takes distinct
  keys, since the entry that is found under a key has to be the one that the key stands in.
* `allEqual_iff`: all arguments equal the first one exactly if all of them are equal.
* **`Builtin.equal_equivalence`**: both laws together, for the operation as it is applied.
-/

namespace SmallLisp

namespace Value

/-- In a map of comparable values, a key is found with its own value. -/
theorem find?_key {entries : Entries} (h : Comparable (.map entries)) {entry : Value × Value}
    (hentry : entry ∈ entries) (hself : entry.1.equal entry.1 = true) :
    entries.find? (fun other => entry.1.equal other.1) = some entry := by
  obtain ⟨hd, hwithin⟩ := h.entries
  cases hfind : entries.find? fun other => entry.1.equal other.1 with
  | none => exact absurd hself (List.find?_eq_none.1 hfind entry hentry)
  | some found =>
    have hmem := List.mem_of_find?_eq_some hfind
    have hkey := List.find?_some hfind
    rw [hd.eq_of_equal equivOn_comparable hwithin (hwithin entry hentry).1 hmem hentry hkey hself]

/-- A comparable value equals itself. -/
theorem Comparable.equal_self {value : Value} (h : Comparable value) :
    value.equal value = true := by
  induction h with
  | leaf hleaf hplace => exact (equal_leaf hleaf hplace).2 hleaf
  | sequence hitems _ ih =>
    refine (equal_sequence hitems).2 ⟨_, hitems, ?_⟩
    exact List.forall₂_same.2 ih
  | @map entries hd hkeys hvalues ihkeys ihvalues =>
    have hmap : Comparable (.map entries) := .map hd hkeys hvalues
    refine equal_map.2 ⟨entries, rfl, rfl, entriesWithin_iff.2 ?_⟩
    intro entry hentry
    exact ⟨entry, find?_key hmap hentry (ihkeys entry hentry), ihvalues entry hentry⟩

end Value

open Value (Comparable equivOn_comparable)

/-- All arguments equal the first one exactly if every two of them are equal. -/
theorem allEqual_iff {args : List Value} (hargs : ∀ arg ∈ args, Comparable arg) :
    allEqual args = true ↔ ∀ a ∈ args, ∀ b ∈ args, a.equal b = true := by
  cases args with
  | nil => simp [allEqual]
  | cons first rest =>
    rw [allEqual, List.all_eq_true]
    constructor
    · intro hrest
      have hfirst : ∀ a ∈ first :: rest, first.equal a = true :=
        List.forall_mem_cons.2 ⟨(hargs first List.mem_cons_self).equal_self, hrest⟩
      intro a ha b hb
      have hsymm := equivOn_comparable.symm (hargs first List.mem_cons_self) (hargs a ha)
        (hfirst a ha)
      exact equivOn_comparable.trans (hargs a ha) (hargs first List.mem_cons_self) (hargs b hb)
        hsymm (hfirst b hb)
    · intro hall other hother
      exact hall first List.mem_cons_self other (List.mem_cons_of_mem _ hother)

/-- The order of the arguments does not matter to whether all of them are equal. -/
theorem allEqual_perm {args args' : List Value} (hargs : ∀ arg ∈ args, Comparable arg)
    (hperm : args'.Perm args) : allEqual args' = allEqual args := by
  have hargs' : ∀ arg ∈ args', Comparable arg := fun arg harg => hargs arg (hperm.mem_iff.1 harg)
  rw [Bool.eq_iff_iff, allEqual_iff hargs, allEqual_iff hargs']
  simp only [hperm.mem_iff]

/-- **Equality is an equivalence** on the values that hold no `nan`. Hence the operation that
compares its first argument with the others answers whether every two of its arguments are equal,
whatever their order, and does nothing else. -/
theorem Builtin.equal_equivalence :
    Equivalence (fun a b : {value : Value // Comparable value} => a.1.equal b.1 = true) ∧
    ∀ (depth serial : Nat) (m : Machine) (args : List Value), (∀ arg ∈ args, Comparable arg) →
      ∃ answer : Bool,
        (answer = true ↔ ∀ a ∈ args, ∀ b ∈ args, a.equal b = true) ∧
        ∀ args', args'.Perm args →
          (Engine.ofDepth (depth + 1)).apply (.host serial (.builtin .equal)) args' m =
              .ok (.bool answer) m ∧
          (Engine.ofDepth (depth + 1)).apply (.host serial (.builtin .notEqual)) args' m =
              .ok (.bool !answer) m := by
  constructor
  · constructor
    · exact fun a => a.2.equal_self
    · exact fun {a b} h => equivOn_comparable.symm a.2 b.2 h
    · exact fun {a b c} h h' => equivOn_comparable.trans a.2 b.2 c.2 h h'
  · intro depth serial m args hargs
    refine ⟨allEqual args, allEqual_iff hargs, ?_⟩
    intro args' hperm
    rw [← allEqual_perm hargs hperm]
    exact ⟨rfl, rfl⟩

/-- Two maps whose keys are a list and a vector, and whose keys and values are a whole number and a
binary64 number, are equal in either order. -/
theorem Builtin.equal_equivalence_maps :
    let a : Value := .map [(.list [.int 1], .float (.ofInt 1))]
    let b : Value := .map [(.vector [.float (.ofInt 1)], .int 1)]
    (∀ arg ∈ [a, b], Comparable arg) ∧
      (Engine.ofDepth 1).apply (.host 5 (.builtin .equal)) [b, a] (.fresh false) =
        .ok (.bool true) (.fresh false) := by
  intro a b
  have hint : Comparable (.int 1) := .int 1
  have hfloat : Comparable (.float (.ofInt 1)) := .ofInt 1
  have hlist : Comparable (.list [.int 1]) := .sequence rfl (by simpa using hint)
  have hvector : Comparable (.vector [.float (.ofInt 1)]) := .sequence rfl (by simpa using hfloat)
  have ha : Comparable a := .map (by simp [Entries.Distinct]) (by simpa using hlist)
    (by simpa using hfloat)
  have hb : Comparable b := .map (by simp [Entries.Distinct]) (by simpa using hvector)
    (by simpa using hint)
  have hargs : ∀ arg ∈ [a, b], Comparable arg := by simpa using ⟨ha, hb⟩
  refine ⟨hargs, ?_⟩
  obtain ⟨answer, hanswer, happly⟩ :=
    Builtin.equal_equivalence.2 0 5 (.fresh false) [a, b] hargs
  have hequal : ∀ x ∈ [a, b], ∀ y ∈ [a, b], x.equal y = true := by
    decide +kernel
  have htrue : answer = true := hanswer.2 hequal
  subst htrue
  exact (happly [b, a] (List.Perm.swap _ _ _)).1

end SmallLisp
