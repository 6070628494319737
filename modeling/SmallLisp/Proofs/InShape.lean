import SmallLisp.Proofs.Shapes
import SmallLisp.Validation

/-!
# What the check establishes

The check walks over a program before it is evaluated. This file says what a program that passes it
is like, in terms of evaluation and not of the walk.

* `Value.Avoids`: a form mentions none of the given names, at no place and in no role.
* `InShape`: every special form that evaluation may come to is in shape. It is said without the
  check: by the rules of evaluation, that is by the parts of each special form.
* `inShape_of_walk`: the walk of the check comes to every part that evaluation comes to. This is
  where the two traversals are compared.
-/

namespace SmallLisp

/-! ## Names in forms -/

namespace Value

mutual

/-- The symbols in a value, at any depth. -/
def symbols : Value → List String
  | .symbol name => [name]
  | .list items => symbolsAll items
  | .vector items => symbolsAll items
  | .map entries => symbolsEntries entries
  | .function _ params body _ => params.symbols ++ symbolsAll body
  | .transformer _ target => target.symbols
  | _ => []

/-- The symbols in several values. -/
def symbolsAll : List Value → List String
  | [] => []
  | value :: values => value.symbols ++ symbolsAll values

/-- The symbols in the keys and values of a map. -/
def symbolsEntries : Entries → List String
  | [] => []
  | (key, value) :: entries => key.symbols ++ (value.symbols ++ symbolsEntries entries)

end

theorem mem_symbolsAll {name : String} {values : List Value} :
    name ∈ symbolsAll values ↔ ∃ value ∈ values, name ∈ value.symbols := by
  induction values with
  | nil => simp [symbolsAll]
  | cons value values ih => simp [symbolsAll, ih]

theorem eq_symbol {value : Value} {name : String} (h : value.symbolName? = some name) :
    value = .symbol name := by
  cases value <;> cases h
  rfl

/-- The value contains none of the names as a symbol. -/
def Avoids (names : List String) (value : Value) : Prop :=
  ∀ name ∈ value.symbols, name ∉ names

variable {names : List String}

theorem avoids_symbol {name : String} : (Value.symbol name).Avoids names ↔ name ∉ names :=
  List.forall_mem_singleton

theorem avoids_list {items : List Value} :
    (Value.list items).Avoids names ↔ ∀ item ∈ items, item.Avoids names := by
  simp only [Avoids, symbols, mem_symbolsAll]
  constructor
  · intro h item hitem name hname
    exact h name ⟨item, hitem, hname⟩
  · rintro h name ⟨item, hitem, hname⟩
    exact h item hitem name hname

theorem avoids_vector {items : List Value} :
    (Value.vector items).Avoids names ↔ ∀ item ∈ items, item.Avoids names :=
  avoids_list

end Value

/-! ## Shapes under evaluation -/

/-- Every special form that evaluation may come to is in shape. -/
inductive InShape : Value → Prop
  /-- A special form is in shape, and so are its parts. -/
  | special {head : Value} {operands : List Value} {form : SpecialForm} :
      SpecialForm.ofHead? head = some form → form.check operands = .ok () →
      (∀ part ∈ form.parts operands, InShape part) → InShape (.list (head :: operands))
  /-- The head and the operands of a call are in shape. -/
  | call {head : Value} {operands : List Value} : SpecialForm.ofHead? head = none →
      (∀ part ∈ head :: operands, InShape part) → InShape (.list (head :: operands))
  /-- Evaluation does not come to the parts of anything else. -/
  | other {form : Value} : (∀ head operands, form ≠ .list (head :: operands)) → InShape form

theorem InShape.special_inv {head : Value} {operands : List Value} {form : SpecialForm}
    (h : InShape (.list (head :: operands))) (hhead : SpecialForm.ofHead? head = some form) :
    form.check operands = .ok () ∧ ∀ part ∈ form.parts operands, InShape part := by
  cases h with
  | special hhead' hcheck hparts =>
    rw [hhead] at hhead'
    cases hhead'
    exact ⟨hcheck, hparts⟩
  | call hhead' => simp [hhead] at hhead'
  | other h => exact absurd rfl (h head operands)

theorem InShape.call_inv {head : Value} {operands : List Value}
    (h : InShape (.list (head :: operands))) (hhead : SpecialForm.ofHead? head = none) :
    ∀ part ∈ head :: operands, InShape part := by
  cases h with
  | special hhead' => simp [hhead] at hhead'
  | call _ hparts => exact hparts
  | other h => exact absurd rfl (h head operands)

/-! ## The walk of the check -/

namespace Validation

variable {bound : String → Bool}

theorem walkAll_singleton (form : Value) (known : List String) :
    walkAll bound [form] known = walk bound form known := by
  rw [walkAll]
  cases walk bound form known <;> rfl

theorem walkInits_eq (bindings : List Value) (known : List String) :
    walkInits bound bindings known = walkAll bound (odds bindings) known := by
  induction bindings using odds.induct generalizing known with
  | case1 pattern init bindings ih =>
    rw [walkInits, odds, walkAll]
    cases walk bound init known with
    | error fault => rfl
    | ok known' => exact ih known'
  | case2 bindings hbindings =>
    rw [walkInits.eq_2 _ _ _ hbindings, odds.eq_2 _ hbindings, walkAll]

/-- **The check comes to the parts that evaluation comes to**, and to no others. -/
theorem walk_special {name : String} {form : SpecialForm} {operands : List Value}
    (known : List String) (hname : SpecialForm.ofName? name = some form)
    (hcheck : form.check operands = .ok ()) :
    walk bound (.list (.symbol name :: operands)) known =
      walkAll bound (form.parts operands) known := by
  rw [walk, hname]
  dsimp only
  rw [hcheck]
  cases form with
  | quoteForm =>
    show _ = walkAll bound [] known
    rw [walkAll]
  | ifForm | doForm => rfl
  | defForm =>
    -- the name to be defined is walked as well, to no effect
    obtain ⟨defined, init, rfl⟩ := SpecialForm.defForm_shape hcheck
    rfl
  | letForm =>
    obtain ⟨bindings, body, rfl, -⟩ := SpecialForm.letForm_shape hcheck
    show (walkInits bound bindings known >>= fun known => walkAll bound body known) =
      walkAll bound (odds bindings ++ body) known
    rw [walkInits_eq, walkAll_append]
  | fnForm =>
    obtain ⟨params, body, rfl, -⟩ := SpecialForm.fnForm_shape hcheck
    rfl

theorem walk_shape {name : String} {form : SpecialForm} {operands : List Value}
    {reason : ShapeError} (known : List String) (hname : SpecialForm.ofName? name = some form)
    (hcheck : form.check operands = .error reason) :
    walk bound (.list (.symbol name :: operands)) known = .error (.shape form reason) := by
  rw [walk, hname]
  dsimp only
  rw [hcheck]

/-- A special form is checked by its parts, if its shape is the same. -/
theorem walk_special_eq {name : String} {special : SpecialForm} {operands operands' : List Value}
    {known : List String} (hname : SpecialForm.ofName? name = some special)
    (hcheck : special.check operands' = special.check operands)
    (hparts : special.check operands = .ok () →
      walkAll bound (special.parts operands') known =
        walkAll bound (special.parts operands) known) :
    walk bound (.list (.symbol name :: operands')) known =
      walk bound (.list (.symbol name :: operands)) known := by
  cases hleft : special.check operands with
  | error reason =>
    rw [walk_shape known hname hleft, walk_shape known hname (hcheck.trans hleft)]
  | ok =>
    rw [walk_special known hname hleft, walk_special known hname (hcheck.trans hleft),
      hparts hleft]

/-- What is learned from a call depends on the name at its first place. -/
theorem learn_cons (name : String) (form : Value) (operands : List Value) (known : List String) :
    learn name (form :: operands) known =
      match form.symbolName? with
      | some defined => if name = Expander.defineTransformer.name then defined :: known else known
      | none => known := by
  cases form <;> rfl

/-- Only a call that defines a transformer teaches a name. -/
theorem learn_of_ne {name : String} (hname : name ≠ Expander.defineTransformer.name)
    (operands : List Value) (known : List String) : learn name operands known = known := by
  rcases operands with _ | ⟨form, operands⟩
  · rfl
  · rw [learn_cons]
    cases form.symbolName? with
    | none => rfl
    | some defined => exact if_neg hname

/-- A list that is not headed by a name is walked like any row of forms. -/
theorem walk_of_symbolName? {head : Value} (hhead : head.symbolName? = none)
    (operands : List Value) (known : List String) :
    walk bound (.list (head :: operands)) known = walkAll bound (head :: operands) known := by
  cases head with
  | symbol name => cases hhead
  | _ => rfl

/-- A head that is not known to mean a transformer: the call is walked like any row of forms. -/
theorem walk_call {head : Value} {operands : List Value} {known : List String}
    (hhead : SpecialForm.ofHead? head = none)
    (hmeans : ∀ name, head = .symbol name → (known.contains name || bound name) = false) :
    walk bound (.list (head :: operands)) known = walkAll bound (head :: operands) known := by
  cases head with
  | symbol name =>
    rw [walk_name hhead, hmeans name rfl, if_neg Bool.false_ne_true, walkAll]
    rfl
  | _ => rfl

/-- What holds of each form that is walked holds of all of them. -/
theorem walkAll_ok {p : Value → Prop} {forms : List Value} {known : List String}
    (hforms : ∀ form ∈ forms, ∀ known, walk bound form [] = .ok known → known = [] ∧ p form)
    (h : walkAll bound forms [] = .ok known) : known = [] ∧ ∀ form ∈ forms, p form := by
  induction forms with
  | nil =>
    rw [walkAll] at h
    cases h
    exact ⟨rfl, by simp⟩
  | cons form forms ih =>
    rw [List.forall_mem_cons] at hforms
    rw [walkAll] at h
    cases hwalk : walk bound form [] with
    | error fault =>
      rw [hwalk] at h
      cases h
    | ok known' =>
      obtain ⟨rfl, hform⟩ := hforms.1 known' hwalk
      rw [hwalk] at h
      obtain ⟨rfl, hrest⟩ := ih hforms.2 h
      exact ⟨rfl, List.forall_mem_cons.2 ⟨hform, hrest⟩⟩

/-- If the walk over several forms fails, then the walk over one of them does. -/
theorem exists_walk_of_walkAll {forms : List Value} {known : List String} {fault : Fault}
    (h : walkAll bound forms known = .error fault) :
    ∃ form ∈ forms, ∃ known, walk bound form known = .error fault := by
  induction forms generalizing known with
  | nil =>
    rw [walkAll] at h
    cases h
  | cons form forms ih =>
    rw [walkAll] at h
    cases hwalk : walk bound form known with
    | error fault' =>
      rw [hwalk] at h
      cases h
      exact ⟨form, List.mem_cons_self, known, hwalk⟩
    | ok known' =>
      rw [hwalk] at h
      obtain ⟨part, hpart, hwalk'⟩ := ih h
      exact ⟨part, List.mem_cons_of_mem _ hpart, hwalk'⟩

end Validation

section walk

variable {bound : String → Bool} {names : List String}

theorem avoids_parts {head : Value} {operands : List Value} {form : SpecialForm}
    (h : (Value.list (head :: operands)).Avoids names) :
    ∀ part ∈ form.parts operands, part.Avoids names := by
  intro part hpart
  have hoperands := (List.forall_mem_cons.1 (Value.avoids_list.1 h)).2
  rcases SpecialForm.mem_parts hpart with hmem | ⟨bindings, hbindings, hmem⟩
  · exact hoperands part hmem
  · exact Value.avoids_vector.1 (hoperands _ hbindings) part hmem

theorem sizeOf_item_lt {items : List Value} {item : Value} (h : item ∈ items) :
    sizeOf item < sizeOf (Value.list items) := by
  have := List.sizeOf_lt_of_mem h
  rw [Value.list.sizeOf_spec]
  omega

theorem sizeOf_part_lt {head : Value} {operands : List Value} {form : SpecialForm} {part : Value}
    (h : part ∈ form.parts operands) : sizeOf part < sizeOf (Value.list (head :: operands)) := by
  rw [Value.list.sizeOf_spec, List.cons.sizeOf_spec]
  rcases SpecialForm.mem_parts h with hmem | ⟨bindings, hbindings, hmem⟩
  · have hpart := List.sizeOf_lt_of_mem hmem
    omega
  · have hvector := List.sizeOf_lt_of_mem hbindings
    have hpart := List.sizeOf_lt_of_mem hmem
    rw [Value.vector.sizeOf_spec] at hvector
    omega

/-- A form that passes the check in a scope where no name that it contains means a transformer is in
shape, and nothing is learnt from it. -/
theorem inShape_of_walk (hbound : ∀ name, name ∉ names → bound name = false) {form : Value}
    (havoids : form.Avoids names) {known : List String}
    (h : Validation.walk bound form [] = .ok known) : known = [] ∧ InShape form := by
  induction hsize : sizeOf form using Nat.strongRecOn generalizing form known with
  | _ size ih =>
    subst hsize
    by_cases hlist : ∃ head operands, form = .list (head :: operands)
    · obtain ⟨head, operands, rfl⟩ := hlist
      have hrow := Value.avoids_list.1 havoids
      cases hhead : SpecialForm.ofHead? head with
      | some special =>
        obtain ⟨name, rfl⟩ : ∃ name, head = .symbol name := by
          cases head with
          | symbol name => exact ⟨name, rfl⟩
          | _ => cases hhead
        cases hcheck : special.check operands with
        | error reason =>
          rw [Validation.walk_shape _ hhead hcheck] at h
          cases h
        | ok =>
          rw [Validation.walk_special _ hhead hcheck] at h
          have hparts : known = [] ∧ ∀ part ∈ special.parts operands, InShape part := by
            refine Validation.walkAll_ok ?_ h
            intro part hpart known' hwalk
            exact ih _ (sizeOf_part_lt hpart) (avoids_parts havoids part hpart) hwalk rfl
          exact ⟨hparts.1, .special hhead hcheck hparts.2⟩
      | none =>
        have hmeans : ∀ name, head = .symbol name →
            (([] : List String).contains name || bound name) = false := by
          rintro name rfl
          exact hbound name (Value.avoids_symbol.1 (hrow _ List.mem_cons_self))
        rw [Validation.walk_call hhead hmeans] at h
        have hparts : known = [] ∧ ∀ part ∈ head :: operands, InShape part := by
          refine Validation.walkAll_ok ?_ h
          intro part hpart known' hwalk
          exact ih _ (sizeOf_item_lt hpart) (hrow part hpart) hwalk rfl
        exact ⟨hparts.1, .call hhead hparts.2⟩
    · have hother : ∀ head operands, form ≠ .list (head :: operands) :=
        fun head operands heq => hlist ⟨head, operands, heq⟩
      rw [Validation.walk.eq_3 _ _ _ (fun name operands => hother (.symbol name) operands)
        hother] at h
      cases h
      exact ⟨rfl, .other hother⟩

/-- The forms of a program that passes the check are in shape. -/
theorem inShape_of_checkAll (hbound : ∀ name, name ∉ names → bound name = false)
    {forms : List Value} (havoids : ∀ form ∈ forms, form.Avoids names)
    (h : Validation.checkAll bound forms = .ok ()) : ∀ form ∈ forms, InShape form := by
  obtain ⟨known, hwalk, -⟩ := exists_of_map_eq_ok h
  exact (Validation.walkAll_ok (fun form hform _ hform' =>
    inShape_of_walk hbound (havoids form hform) hform') hwalk).2

end walk

end SmallLisp
