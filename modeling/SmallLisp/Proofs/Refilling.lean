import SmallLisp.Proofs.InShape

/-!
# What the check does not read

The check of a program passes over whatever is data when the program runs. Two programs that differ
in nothing else are therefore checked alike: either both pass, or both are refused with the same
error (**`Validation.checkAll_refilled`**), in whatever scope they are checked.

* `Validation.Refilled bound known form form'`: the forms are the same up to data, where the names in
  `known` and those that the scope binds so mean transformers. Data is what is quoted, what is in a
  vector or a map that is evaluated, and what is handed to a transformer.
* `Validation.RefilledRow`: so are the forms of a row. What is known in front of a form is what the
  check has learnt from those before it, so that what is data at one place depends on all that was
  walked before.
* `SpecialForm.SameOutline`: what the operands of a special form have in common so that they are in
  shape or out of shape for the same reason.

The proof follows the derivations. For each way in which forms can be refilled the walk has one
equation, and the two walks come to the same names behind the forms as well as to the same error;
without the names the induction would not pass from one form to the next.
-/

namespace SmallLisp

/-- A vector or a map. -/
inductive Value.IsLiteral : Value → Prop
  | vector (items : List Value) : IsLiteral (.vector items)
  | map (entries : Entries) : IsLiteral (.map entries)

/-- The operands have the same outline: there are as many, and those that are not evaluated are the
same. The right-hand sides of a `let` stand between its patterns. -/
def SpecialForm.SameOutline : SpecialForm → List Value → List Value → Prop
  | .quoteForm, operands, operands' => operands = operands'
  | .ifForm, operands, operands' => operands.length = operands'.length
  | .doForm, operands, operands' => operands.length = operands'.length
  | .letForm, .vector bindings :: body, .vector bindings' :: body' =>
    bindings.length = bindings'.length ∧ evens bindings = evens bindings' ∧
      body.length = body'.length
  | _, operands, operands' => operands.head? = operands'.head? ∧ operands.length = operands'.length

namespace Validation

variable {bound : String → Bool} {known : List String} {form form' : Value}
  {forms forms' operands operands' : List Value}

mutual

/-- The forms differ in data only. -/
inductive Refilled (bound : String → Bool) : List String → Value → Value → Prop
  /-- Nothing is different. -/
  | same {known : List String} (form : Value) : Refilled bound known form form
  /-- What is quoted is data. -/
  | quoted {known : List String} (datum datum' : Value) :
      Refilled bound known (.list [.symbol "quote", datum]) (.list [.symbol "quote", datum'])
  /-- A vector or a map that is evaluated is data. -/
  | literal {known : List String} {form form' : Value} : form.IsLiteral → form'.IsLiteral →
      Refilled bound known form form'
  /-- What is handed to a transformer is data. Where it is the library's transformer that defines
  another one, the name of that one is read. A list that a special form's name heads is that special
  form, and no call, whatever else the name means. -/
  | handed {known : List String} {name : String} {operands operands' : List Value} :
      SpecialForm.ofName? name = none → (known.contains name || bound name) = true →
      (name = Expander.defineTransformer.name → operands.head? = operands'.head?) →
      Refilled bound known (.list (.symbol name :: operands)) (.list (.symbol name :: operands'))
  /-- The head and the operands of any other call are evaluated. -/
  | call {known : List String} {head head' : Value} {operands operands' : List Value} :
      SpecialForm.ofHead? head = none →
      (∀ name, head = .symbol name → (known.contains name || bound name) = false) →
      RefilledRow bound known (head :: operands) (head' :: operands') →
      Refilled bound known (.list (head :: operands)) (.list (head' :: operands'))
  /-- Some of the operands of a special form are evaluated. -/
  | special {known : List String} {name : String} {form : SpecialForm}
      {operands operands' : List Value} : SpecialForm.ofName? name = some form →
      form.SameOutline operands operands' →
      RefilledRow bound known (form.parts operands) (form.parts operands') →
      Refilled bound known (.list (.symbol name :: operands)) (.list (.symbol name :: operands'))

/-- The rows of forms differ in data only. Nothing is asked of what stands behind a form that the
check refuses. -/
inductive RefilledRow (bound : String → Bool) : List String → List Value → List Value → Prop
  | nil {known : List String} : RefilledRow bound known [] []
  | cons {known : List String} {form form' : Value} {forms forms' : List Value} :
      Refilled bound known form form' →
      (∀ known', walk bound form known = .ok known' → RefilledRow bound known' forms forms') →
      RefilledRow bound known (form :: forms) (form' :: forms')

end

/-- The forms behind a form that passes are refilled where the names are known that it teaches. -/
theorem RefilledRow.cons_ok {known' : List String} (hform : Refilled bound known form form')
    (hwalk : walk bound form known = .ok known')
    (hforms : RefilledRow bound known' forms forms') :
    RefilledRow bound known (form :: forms) (form' :: forms') := by
  refine .cons hform fun other hother => ?_
  obtain rfl : known' = other := Except.ok.inj (hwalk.symm.trans hother)
  exact hforms

/-! ## Shapes -/

/-- Operands with the same outline are in shape, or they are out of shape for the same reason. -/
theorem check_of_sameOutline {special : SpecialForm}
    (h : special.SameOutline operands operands') :
    special.check operands' = special.check operands := by
  unfold SpecialForm.SameOutline at h
  split at h
  · rw [h]
  · exact SpecialForm.check_if_eq h
  · rfl
  · obtain ⟨hbindings, hevens, hbody⟩ := h
    refine SpecialForm.check_let_eq hbindings.symm hevens.symm ?_
    rw [← List.length_eq_zero_iff, hbody, List.length_eq_zero_iff]
  · exact SpecialForm.check_of_head? _ h.1 h.2

/-! ## The two walks -/

/-- A form and what it is refilled to are the same name, or neither of them is a name. -/
theorem Refilled.symbolName?_eq (h : Refilled bound known form form') :
    form'.symbolName? = form.symbolName? := by
  cases h with
  | literal hliteral hliteral' => cases hliteral <;> cases hliteral' <;> rfl
  | _ => rfl

theorem RefilledRow.symbolName?_eq {head head' : Value}
    (h : RefilledRow bound known (head :: operands) (head' :: operands')) :
    head'.symbolName? = head.symbolName? := by
  cases h with
  | cons hform _ => exact hform.symbolName?_eq

/-- What is learnt from a call depends on its operands only if they define a transformer, and then
on the first of them. -/
theorem learn_of_head? {name : String}
    (h : name = Expander.defineTransformer.name → operands.head? = operands'.head?) :
    learn name operands' known = learn name operands known := by
  by_cases hname : name = Expander.defineTransformer.name
  · have hhead := h hname
    rcases operands with _ | ⟨first, operands⟩ <;> rcases operands' with _ | ⟨first', operands'⟩
    · rfl
    · cases hhead
    · cases hhead
    · rw [learn_cons, learn_cons, Option.some.inj hhead]
  · rw [learn_of_ne hname, learn_of_ne hname]

/-- Calls are walked alike if their heads are the same name or none, and if the rows are walked
alike that they consist of. -/
theorem walk_call_eq {head head' : Value} (hhead : SpecialForm.ofHead? head = none)
    (hmeans : ∀ name, head = .symbol name → (known.contains name || bound name) = false)
    (hsymbol : head'.symbolName? = head.symbolName?)
    (hrow : walkAll bound (head' :: operands') known = walkAll bound (head :: operands) known) :
    walk bound (.list (head' :: operands')) known = walk bound (.list (head :: operands)) known := by
  cases hname : head.symbolName? with
  | none =>
    rw [walk_of_symbolName? hname, walk_of_symbolName? (hsymbol.trans hname), hrow]
  | some name =>
    have heq : head' = head :=
      (Value.eq_symbol (hsymbol.trans hname)).trans (Value.eq_symbol hname).symm
    subst heq
    rw [walk_call hhead hmeans, walk_call hhead hmeans, hrow]

/-- Rows are walked alike if their first forms are, and if the forms behind them are where the first
form is not refused. -/
theorem walkAll_cons_eq (hform : walk bound form' known = walk bound form known)
    (hforms : ∀ known', walk bound form known = .ok known' →
      walkAll bound forms' known' = walkAll bound forms known') :
    walkAll bound (form' :: forms') known = walkAll bound (form :: forms) known := by
  rw [walkAll, walkAll, hform]
  cases hwalk : walk bound form known with
  | error fault => rfl
  | ok known' => exact hforms known' hwalk

mutual

/-- The walk over a form does not read its data. -/
theorem walk_refilled {known : List String} {form form' : Value} :
    Refilled bound known form form' → walk bound form' known = walk bound form known
  | .same _ => rfl
  | .quoted _ _ => rfl
  | .literal hliteral hliteral' => by cases hliteral <;> cases hliteral' <;> rfl
  | .handed hname hmeans hfirst => by
    rw [walk_name hname, walk_name hname, if_pos hmeans, if_pos hmeans, learn_of_head? hfirst]
  | .call hhead hmeans hrow =>
    walk_call_eq hhead hmeans hrow.symbolName?_eq (walkAll_refilled hrow)
  | .special hname houtline hrow =>
    walk_special_eq hname (check_of_sameOutline houtline) fun _ => walkAll_refilled hrow

/-- Nor does the walk over a row of forms read theirs. -/
theorem walkAll_refilled {known : List String} {forms forms' : List Value} :
    RefilledRow bound known forms forms' →
      walkAll bound forms' known = walkAll bound forms known
  | .nil => rfl
  | .cons hform hforms => walkAll_cons_eq (walk_refilled hform) fun known' hwalk =>
    walkAll_refilled (hforms known' hwalk)

end

/-- **The check ignores data.** Programs that differ in nothing else both pass, or they are refused
with the same error. The scope may bind whatever names as transformers, or none. -/
theorem checkAll_refilled (bound : String → Bool) (h : RefilledRow bound [] forms forms') :
    checkAll bound forms = checkAll bound forms' := by
  rw [checkAll, checkAll, walkAll_refilled h]

/-- Data of each kind is refilled, among it operands that are passed over because of a definition in
front of them, and both programs are refused for what stands behind. -/
theorem checkAll_refilled_unless :
    let symbol := Value.symbol
    let bound := fun name => name == "defmacro"
    let forms : List Value :=
      [.list [symbol "defmacro", symbol "unless", .vector [symbol "test"], .nil],
        .list [symbol "let", .vector [symbol "x", .list [symbol "unless", .list [symbol "if"]]],
          .list [symbol "quote", .list [symbol "if"]], .vector [.list [symbol "def"]]],
        .list [symbol "if", symbol "x"]]
    let forms' : List Value :=
      [.list [symbol "defmacro", symbol "unless"],
        .list [symbol "let", .vector [symbol "x", .list [symbol "unless"]],
          .list [symbol "quote", .keyword "other"], .map [(.nil, .list [symbol "fn"])]],
        .list [symbol "if", symbol "x"]]
    RefilledRow bound [] forms forms' ∧ checkAll bound forms = checkAll bound forms' ∧
      checkAll bound forms' = .error (.shape .ifForm (.exactly 3 1)) := by
  intro symbol bound forms forms'
  have hinit : Refilled bound ["unless"] (.list [symbol "unless", .list [symbol "if"]])
      (.list [symbol "unless"]) := .handed rfl rfl fun hname => absurd hname (by decide)
  have hlet : Refilled bound ["unless"] forms[1] forms'[1] := by
    refine .special rfl ⟨rfl, rfl, rfl⟩ (.cons_ok hinit rfl ?_)
    exact .cons_ok (.quoted _ _) rfl (.cons_ok (.literal (.vector _) (.map _)) rfl .nil)
  have hdefined : walk bound forms[0] [] = .ok ["unless"] := rfl
  have hpassed : walk bound forms[1] ["unless"] = .ok ["unless"] := by cbv
  have hrow : RefilledRow bound [] forms forms' :=
    .cons_ok (.handed rfl rfl fun _ => rfl) hdefined
      (.cons_ok hlet hpassed (.cons (.same _) fun _ _ => .nil))
  exact ⟨hrow, checkAll_refilled bound hrow, by cbv⟩

end Validation

end SmallLisp
