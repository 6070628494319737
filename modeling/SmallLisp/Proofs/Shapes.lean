import Mathlib.Data.List.Basic
import SmallLisp.Proofs.Capability
import SmallLisp.Shape

/-!
# Shapes of special forms, read backwards

The check of a special form says nothing but whether its operands are in shape. Here is what they
look like when they are, one statement for each form, and which of them evaluation comes to
(`SpecialForm.parts`). Behind that stands what the outcome of the check depends on, whether the
operands are in shape or not.
-/

namespace SmallLisp

/-- Every other value, from the second on. -/
def odds : List Value → List Value
  | _ :: value :: rest => value :: odds rest
  | _ => []

theorem mem_of_mem_odds {value : Value} {values : List Value} (h : value ∈ odds values) :
    value ∈ values := by
  induction values using odds.induct with
  | case1 first second rest ih =>
    rcases List.mem_cons.1 h with rfl | h
    · simp
    · simp [ih h]
  | case2 values hvalues =>
    rw [odds.eq_2 values hvalues] at h
    cases h

namespace SpecialForm

/-- The operands that evaluation may come to, for operands that are in shape. -/
def parts : SpecialForm → List Value → List Value
  | .quoteForm, _ => []
  | .ifForm, operands => operands
  | .defForm, operands => operands.tail
  | .doForm, operands => operands
  | .letForm, .vector bindings :: body => odds bindings ++ body
  | .fnForm, _ :: body => body
  | _, _ => []

/-- Evaluation comes to operands, and to values in a vector that is one. -/
theorem mem_parts {form : SpecialForm} {operands : List Value} {part : Value}
    (h : part ∈ form.parts operands) :
    part ∈ operands ∨ ∃ bindings, .vector bindings ∈ operands ∧ part ∈ bindings := by
  unfold parts at h
  split at h
  · cases h
  · exact .inl h
  · exact .inl (List.mem_of_mem_tail h)
  · exact .inl h
  · rename_i bindings body
    rcases List.mem_append.1 h with h | h
    · exact .inr ⟨bindings, List.mem_cons_self, mem_of_mem_odds h⟩
    · exact .inl (List.mem_cons_of_mem _ h)
  · exact .inl (List.mem_cons_of_mem _ h)
  · cases h

/-- The parts of a special form give no access beyond it. -/
theorem every_of_mem_parts {p : Value → Prop} {form : SpecialForm} {head : Value}
    {operands : List Value} (h : (Value.list (head :: operands)).Every p) :
    ∀ part ∈ form.parts operands, part.Every p := by
  intro part hpart
  have hoperands := (List.forall_mem_cons.1 ((Value.every_list _).1 h)).2
  rcases mem_parts hpart with hmem | ⟨bindings, hbindings, hmem⟩
  · exact hoperands part hmem
  · exact (Value.every_vector bindings).1 (hoperands _ hbindings) part hmem

theorem checkExactly_eq_ok {required : Nat} {operands : List Value}
    (h : checkExactly required operands = .ok ()) : operands.length = required := by
  unfold checkExactly at h
  split at h
  · assumption
  · cases h

theorem checkAtLeast_eq_ok {least : Nat} {operands : List Value}
    (h : checkAtLeast least operands = .ok ()) : least ≤ operands.length := by
  unfold checkAtLeast at h
  split at h
  · assumption
  · cases h

theorem checkTargets_eq_ok {targets : List Value} (h : checkTargets targets = .ok ()) :
    Pattern.badTargets? targets = none := by
  unfold checkTargets at h
  split at h
  · cases h
  · assumption

/-- A `quote` has one operand. -/
theorem quoteForm_shape {operands : List Value} (h : quoteForm.check operands = .ok ()) :
    ∃ operand, operands = [operand] :=
  List.length_eq_one_iff.1 (checkExactly_eq_ok h)

/-- An `if` has a test and two branches. -/
theorem ifForm_shape {operands : List Value} (h : ifForm.check operands = .ok ()) :
    ∃ test consequent alternative, operands = [test, consequent, alternative] :=
  List.length_eq_three.1 (checkExactly_eq_ok h)

/-- A `def` has a name and a right-hand side. -/
theorem defForm_shape {operands : List Value} (h : defForm.check operands = .ok ()) :
    ∃ name init, operands = [.symbol name, init] := by
  obtain ⟨_, hexactly, hfirst⟩ := exists_of_bind_eq_ok h
  obtain ⟨first, init, rfl⟩ := List.length_eq_two.1 (checkExactly_eq_ok hexactly)
  cases first with
  | symbol name => exact ⟨name, init, rfl⟩
  | _ => cases hfirst

/-- A `let` has a vector of patterns and right-hand sides, and a body. -/
theorem letForm_shape {operands : List Value} (h : letForm.check operands = .ok ()) :
    ∃ bindings body, operands = .vector bindings :: body ∧ body ≠ [] ∧
      bindings.length % 2 = 0 ∧ Pattern.badTargets? (evens bindings) = none := by
  obtain ⟨_, hleast, hparts⟩ := exists_of_bind_eq_ok h
  have hlength := checkAtLeast_eq_ok hleast
  split at hparts
  · rename_i bindings body
    split at hparts
    · rename_i heven
      refine ⟨bindings, body, rfl, ?_, heven, checkTargets_eq_ok hparts⟩
      rintro rfl
      simp at hlength
    · cases hparts
  · cases hparts

/-- A `fn` has a vector of patterns and a body. -/
theorem fnForm_shape {operands : List Value} (h : fnForm.check operands = .ok ()) :
    ∃ params body, operands = .vector params :: body ∧ body ≠ [] ∧
      Pattern.badTargets? params = none := by
  obtain ⟨_, hleast, hparts⟩ := exists_of_bind_eq_ok h
  have hlength := checkAtLeast_eq_ok hleast
  split at hparts
  · rename_i params body
    refine ⟨params, body, rfl, ?_, checkTargets_eq_ok hparts⟩
    rintro rfl
    simp at hlength
  · cases hparts

/-- A vector of patterns with their right-hand sides and a body that is not empty are in shape. -/
theorem letForm_check_of_shape {bindings body : List Value} (hbody : body ≠ [])
    (heven : bindings.length % 2 = 0) (htargets : Pattern.badTargets? (evens bindings) = none) :
    letForm.check (.vector bindings :: body) = .ok () := by
  have hlength : 2 ≤ (Value.vector bindings :: body).length := by
    have := List.length_pos_iff.2 hbody
    rw [List.length_cons]
    omega
  simp only [check, checkAtLeast, if_pos hlength, heven, if_true, checkTargets, htargets]
  rfl

/-! ## What a shape depends on -/

/-- Whether an `if` is in shape depends on the number of its operands. -/
theorem check_if_eq {operands operands' : List Value}
    (hlength : operands.length = operands'.length) :
    ifForm.check operands' = ifForm.check operands := by
  simp only [check, checkExactly, hlength]

/-- Whether operands are in shape depends on the first of them and on how many there are. -/
theorem check_of_head? {operands operands' : List Value} (special : SpecialForm)
    (hhead : operands.head? = operands'.head?) (hlength : operands.length = operands'.length) :
    special.check operands' = special.check operands := by
  rcases operands with _ | ⟨first, operands⟩
  · rw [List.length_eq_zero_iff.1 hlength.symm]
  · rcases operands' with _ | ⟨first', operands'⟩
    · cases hhead
    · obtain rfl : first = first' := Option.some.inj hhead
      rw [List.length_cons, List.length_cons] at hlength
      cases special <;>
        simp only [check, checkExactly, checkAtLeast, List.length_cons, hlength] <;>
        cases first <;> rfl

/-- Whether a `def` is in shape depends on its name and on the number of its operands. -/
theorem check_def_eq {operands operands' : List Value}
    (hlength : operands.length = operands'.length) (name : Value) :
    defForm.check (name :: operands') = defForm.check (name :: operands) :=
  check_of_head? defForm rfl (congrArg (· + 1) hlength)

/-- Of a body it is only checked that it holds something. -/
theorem checkAtLeast_eq {body body' : List Value} (hbody : body = [] ↔ body' = [])
    (first first' : Value) :
    checkAtLeast 2 (first' :: body') = checkAtLeast 2 (first :: body) := by
  rcases body with _ | ⟨form, body⟩
  · rw [hbody.1 rfl]
    rfl
  · rcases body' with _ | ⟨form', body'⟩
    · cases hbody.2 rfl
    · simp [checkAtLeast]

/-- Whether a `let` is in shape depends on its patterns, and on its body only in that it holds
something. -/
theorem check_let_eq {bindings bindings' body body' : List Value}
    (hlength : bindings'.length = bindings.length) (hevens : evens bindings' = evens bindings)
    (hbody : body = [] ↔ body' = []) :
    letForm.check (.vector bindings' :: body') =
      letForm.check (.vector bindings :: body) := by
  simp only [check, checkAtLeast_eq hbody (.vector bindings) (.vector bindings'),
    hlength, hevens]

theorem check_misbinding_eq {body body' : List Value} (hbody : body = [] ↔ body' = [])
    (given : Value) :
    letForm.check (given :: body') = letForm.check (given :: body) := by
  simp only [check, checkAtLeast_eq hbody given given]
  cases given <;> rfl

/-- A `let` without a vector is out of shape. -/
theorem misbinding_ne_ok {given : Value} (hgiven : ∀ bindings, given ≠ .vector bindings)
    (body : List Value) : letForm.check (given :: body) ≠ .ok () := by
  intro hcheck
  obtain ⟨bindings, body', heq, -⟩ := letForm_shape hcheck
  exact hgiven bindings (List.cons.inj heq).1

/-- Whether a function is in shape depends on its parameters, and on its body only in that it holds
something. -/
theorem check_fn_eq {body body' : List Value} (hbody : body = [] ↔ body' = []) (params : Value) :
    fnForm.check (params :: body') = fnForm.check (params :: body) := by
  simp only [check, checkAtLeast_eq hbody params params]
  cases params <;> rfl

end SpecialForm

end SmallLisp
