import Mathlib.Data.List.Forall2
import SmallLisp.Proofs.Likeness
import SmallLisp.Proofs.Printing

/-!
# Forms that differ in remarks

The reader makes a list headed by `comment` of a comment, and in a body that list is a form like any
other: it is looked up, expanded, checked and evaluated. Here is what it means that code differs
from other code in such remarks only, and what the check and the printer make of the difference.

* `Value.proper`: the value mentions `comment` in remarks only and `defn` at the head of calls only,
  and certain other names not at all. Data may mention any name, as long as the functions in it do
  not.
* `Strewn`: remarks have been put between the forms of a row, and none behind the last one.
* `Remarked`: remarks have been strewn into bodies that stand where they would be evaluated.
  `Remarked.induct` is the induction on such forms.
* **`Remarked.walk_eq`: the check of a program does not see the remarks**, if `comment` means a
  transformer where there are any.
* `Remarked.endsLike`: the printer sees them, but it does not fail over them.
-/

namespace SmallLisp

namespace Value

/-! ## Code and data -/

/-- What the reader makes of a comment. -/
def remark (text : String) : Value :=
  .list [.symbol "comment", .str text]

/-- The items are those of a remark. -/
def remarks : List Value → Bool
  | [.symbol name, .str _] => name == "comment"
  | _ => false

/-- The form is a remark. -/
def isRemark : Value → Bool
  | .list items => remarks items
  | _ => false

/-- The value is that symbol. -/
def named (name : String) : Value → Bool
  | .symbol other => other == name
  | _ => false

end Value

/-- The operation makes no transformers. -/
def HostOperation.harmless : HostOperation → Bool
  | .builtin operation => operation != .makeTransformer
  | .expander e => e != .defineTransformer
  | _ => true

namespace Value

mutual

/-- The value mentions none of the hidden names, `comment` in remarks only and `defn` only at the
head of a list, and holds nothing that is or makes a transformer. For data that goes only for the
functions in them, whose parameters and bodies are code. -/
def proper (hidden : List String) (code : Bool) : Value → Bool
  | .symbol name => !code || !(hidden.contains name || name == "comment" || name == "defn")
  | .list items => remarks items || properCall hidden code items
  | .vector items => properEach hidden code items
  | .map entries => properEntries hidden code entries
  | .function _ params body _ => properParams hidden params && properEach hidden true body
  | .host _ operation => operation.harmless
  | .transformer .. => false
  | _ => true

/-- All items are proper, or all but a head that is `defn`. -/
def properCall (hidden : List String) (code : Bool) : List Value → Bool
  | [] => true
  | head :: operands =>
    (head.named "defn" || proper hidden code head) && properEach hidden code operands

/-- All the values are proper. -/
def properEach (hidden : List String) (code : Bool) : List Value → Bool
  | [] => true
  | value :: values => proper hidden code value && properEach hidden code values

/-- All keys and values of a map are proper. -/
def properEntries (hidden : List String) (code : Bool) : Entries → Bool
  | [] => true
  | (key, value) :: entries =>
    proper hidden code key && (proper hidden code value && properEntries hidden code entries)

/-- All that a function takes for its patterns is proper code. -/
def properParams (hidden : List String) : Value → Bool
  | .list items => properEach hidden true items
  | .vector items => properEach hidden true items
  | .map entries => properKeys hidden entries
  | _ => true

/-- All keys of a map are proper code. -/
def properKeys (hidden : List String) : Entries → Bool
  | [] => true
  | (key, _) :: entries => proper hidden true key && properKeys hidden entries

end

/-- The code mentions `comment` and `defn` only where it should, and no hidden name. -/
def Tidy (hidden : List String) (form : Value) : Prop :=
  form.proper hidden true = true

/-- The code of all functions in the value is tidy. -/
def Clean (hidden : List String) (value : Value) : Prop :=
  value.proper hidden false = true

instance (hidden : List String) (form : Value) : Decidable (form.Tidy hidden) :=
  inferInstanceAs (Decidable (_ = true))

instance (hidden : List String) (value : Value) : Decidable (value.Clean hidden) :=
  inferInstanceAs (Decidable (_ = true))

variable {hidden : List String} {code : Bool}

theorem properEach_iff {values : List Value} :
    properEach hidden code values = true ↔ ∀ value ∈ values, value.proper hidden code = true := by
  induction values with
  | nil => simp [properEach]
  | cons value values ih => simp [properEach, ih]

theorem properEntries_iff {entries : Entries} :
    properEntries hidden code entries = true ↔
      ∀ entry ∈ entries, entry.1.proper hidden code = true ∧
        entry.2.proper hidden code = true := by
  induction entries with
  | nil => simp [properEntries]
  | cons entry entries ih =>
    obtain ⟨key, value⟩ := entry
    simp [properEntries, ih, and_assoc]

theorem remarks_iff {items : List Value} :
    remarks items = true ↔ ∃ text, items = [.symbol "comment", .str text] := by
  constructor
  · intro h
    unfold remarks at h
    split at h
    · rename_i name text
      exact ⟨text, by rw [beq_iff_eq.1 h]⟩
    · cases h
  · rintro ⟨text, rfl⟩
    rfl

theorem isRemark_iff {form : Value} : form.isRemark = true ↔ ∃ text, form = .remark text := by
  cases form with
  | list items => simp [isRemark, remarks_iff, remark]
  | _ => simp [isRemark, remark]

theorem named_iff {name : String} {value : Value} :
    value.named name = true ↔ value = .symbol name := by
  cases value <;> simp [named]

theorem properCall_cons {head : Value} {operands : List Value} :
    properCall hidden code (head :: operands) = true ↔
      (head = .symbol "defn" ∨ head.proper hidden code = true) ∧
        ∀ operand ∈ operands, operand.proper hidden code = true := by
  rw [properCall, Bool.and_eq_true, Bool.or_eq_true, named_iff, properEach_iff]

/-- A list is proper as a remark or as a call. -/
theorem proper_list {items : List Value} :
    (Value.list items).proper hidden code = true ↔
      (∃ text, items = [.symbol "comment", .str text]) ∨ properCall hidden code items = true := by
  rw [← remarks_iff, ← Bool.or_eq_true]
  rfl

theorem proper_vector {items : List Value} :
    (Value.vector items).proper hidden code = true ↔
      ∀ item ∈ items, item.proper hidden code = true :=
  properEach_iff

theorem tidy_symbol {name : String} :
    (Value.symbol name).Tidy hidden ↔ name ∉ hidden ∧ name ≠ "comment" ∧ name ≠ "defn" := by
  show (!true || !(hidden.contains name || name == "comment" || name == "defn")) = true ↔ _
  simp [and_assoc]

/-- A tidy list is a remark, a definition, or a call whose parts are all tidy. -/
theorem tidy_list_cons {head : Value} {operands : List Value} :
    (Value.list (head :: operands)).Tidy hidden ↔
      (∃ text, head = .symbol "comment" ∧ operands = [.str text]) ∨
        (head = .symbol "defn" ∨ head.Tidy hidden) ∧ ∀ operand ∈ operands, operand.Tidy hidden := by
  rw [Tidy, proper_list, properCall_cons]
  simp only [List.cons.injEq, Tidy]

theorem tidy_vector {items : List Value} :
    (Value.vector items).Tidy hidden ↔ ∀ item ∈ items, item.Tidy hidden :=
  proper_vector

theorem clean_symbol (name : String) : (Value.symbol name).Clean hidden := rfl

theorem clean_str (text : String) : (Value.str text).Clean hidden := rfl

theorem clean_list {items : List Value} :
    (Value.list items).Clean hidden ↔ ∀ item ∈ items, item.Clean hidden := by
  have hcall : properCall hidden false items = true ↔ ∀ item ∈ items, item.Clean hidden := by
    cases items with
    | nil => simp [properCall]
    | cons head operands =>
      have hnamed : head = .symbol "defn" → head.Clean hidden := by
        rintro rfl
        exact clean_symbol "defn"
      rw [properCall_cons, List.forall_mem_cons]
      exact and_congr_left fun _ => ⟨fun h => h.elim hnamed id, .inr⟩
  rw [Clean, proper_list, hcall, or_iff_right_iff_imp]
  rintro ⟨text, rfl⟩
  simp [clean_symbol, clean_str]

theorem clean_vector {items : List Value} :
    (Value.vector items).Clean hidden ↔ ∀ item ∈ items, item.Clean hidden :=
  proper_vector

theorem clean_map {entries : Entries} :
    (Value.map entries).Clean hidden ↔
      ∀ entry ∈ entries, entry.1.Clean hidden ∧ entry.2.Clean hidden :=
  properEntries_iff

theorem properParams_iff {params : Value} :
    properParams hidden params = true ↔
      ∀ pattern ∈ params.elements?.getD [], pattern.Tidy hidden := by
  cases params with
  | list items | vector items => exact properEach_iff
  | map entries =>
    show properKeys hidden entries = true ↔ ∀ key ∈ entries.map (·.1), key.Tidy hidden
    induction entries with
    | nil => simp [properKeys]
    | cons entry entries ih => simp [properKeys, ih, Tidy]
  | str text =>
    refine iff_of_true rfl fun pattern hpattern => ?_
    obtain ⟨c, -, rfl⟩ := List.mem_map.1 hpattern
    rfl
  | _ => simp [properParams, elements?]

/-- A function in tidy code and in clean data is the same: its parameters and its body are tidy. -/
theorem proper_function {serial : Nat} {params : Value} {body : List Value} {home : FrameId} :
    (Value.function serial params body home).proper hidden code = true ↔
      (∀ pattern ∈ params.elements?.getD [], pattern.Tidy hidden) ∧
        ∀ form ∈ body, form.Tidy hidden := by
  show (properParams hidden params && properEach hidden true body) = true ↔ _
  rw [Bool.and_eq_true, properParams_iff, properEach_iff]
  rfl

mutual

/-- Tidy code is clean data. -/
theorem Tidy.clean : ∀ {form : Value}, form.Tidy hidden → form.Clean hidden
  | .list items, h => by
    refine clean_list.2 ?_
    cases items with
    | nil => simp
    | cons head operands =>
      rcases tidy_list_cons.1 h with ⟨text, rfl, rfl⟩ | ⟨hhead, hoperands⟩
      · simp [Clean, proper]
      · refine List.forall_mem_cons.2 ⟨?_, clean_of_forall_tidy operands hoperands⟩
        rcases hhead with rfl | hhead
        · rfl
        · exact hhead.clean
  | .vector items, h => clean_vector.2 (clean_of_forall_tidy items (tidy_vector.1 h))
  | .map entries, h => clean_map.2 (clean_of_forall_entries entries (properEntries_iff.1 h))
  | .function .., h => proper_function.2 (proper_function.1 h)
  | .symbol _, _ => rfl
  | .host .., h => h
  | .transformer .., h => h
  | .nil, _ | .bool _, _ | .number _, _ | .str _, _ | .keyword _, _ | .environment _, _ => rfl

theorem clean_of_forall_tidy : ∀ forms : List Value, (∀ form ∈ forms, form.Tidy hidden) →
    ∀ form ∈ forms, form.Clean hidden
  | [], _ => by simp
  | form :: forms, h => by
    obtain ⟨hform, hforms⟩ := List.forall_mem_cons.1 h
    exact List.forall_mem_cons.2 ⟨hform.clean, clean_of_forall_tidy forms hforms⟩

theorem clean_of_forall_entries : ∀ entries : Entries,
    (∀ entry ∈ entries, entry.1.Tidy hidden ∧ entry.2.Tidy hidden) →
    ∀ entry ∈ entries, entry.1.Clean hidden ∧ entry.2.Clean hidden
  | [], _ => by simp
  | (key, value) :: entries, h => by
    obtain ⟨⟨hkey, hvalue⟩, hentries⟩ := List.forall_mem_cons.1 h
    exact List.forall_mem_cons.2 ⟨⟨hkey.clean, hvalue.clean⟩,
      clean_of_forall_entries entries hentries⟩

end

end Value

namespace Printer

/-- Both have a text, or neither has one, for the same reason. -/
inductive EndsLike {α : Type} : Except PrintError α → Except PrintError α → Prop
  | ok {a a' : α} : EndsLike (.ok a) (.ok a')
  | error {reason : PrintError} : EndsLike (.error reason) (.error reason)

theorem EndsLike.refl {α : Type} (x : Except PrintError α) : EndsLike x x := by
  cases x with
  | ok => exact .ok
  | error => exact .error

theorem EndsLike.bind {α β : Type} {x x' : Except PrintError α} {f f' : α → Except PrintError β}
    (hx : EndsLike x x') (hf : ∀ a a', EndsLike (f a) (f' a')) :
    EndsLike (x >>= f) (x' >>= f') := by
  cases hx with
  | ok => exact hf _ _
  | error => exact .error

/-- What is put to a text that is there does not matter. -/
theorem EndsLike.bind_right {α : Type} {x x' : Except PrintError α} (hx : EndsLike x x')
    (f : α → α) : EndsLike x (x' >>= fun a => .ok (f a)) := by
  cases hx with
  | ok => exact .ok
  | error => exact .error

end Printer

/-! ## Remarks put into code -/

/-- Remarks have been put between the related forms of two rows, none of them behind the last form,
if they may be put there at all. -/
inductive Strewn (R : Value → Value → Prop) (p : Prop) : List Value → List Value → Prop
  | nil : Strewn R p [] []
  | form {form form' : Value} {forms forms' : List Value} : R form form' →
      Strewn R p forms forms' → Strewn R p (form :: forms) (form' :: forms')
  | remark (text : String) {forms forms' : List Value} : p → forms ≠ [] →
      Strewn R p forms forms' → Strewn R p forms (.remark text :: forms')

/-- The bindings are of the same tidy patterns to related right-hand sides. The last pattern may
lack one. -/
inductive Inits (hidden : List String) (R : Value → Value → Prop) :
    List Value → List Value → Prop
  | nil : Inits hidden R [] []
  | single {pattern : Value} : pattern.Tidy hidden → Inits hidden R [pattern] [pattern]
  | cons {pattern init init' : Value} {bindings bindings' : List Value} : pattern.Tidy hidden →
      R init init' → Inits hidden R bindings bindings' →
      Inits hidden R (pattern :: init :: bindings) (pattern :: init' :: bindings')

/-- The code is tidy, and if it may be, remarks have been put into the bodies that are evaluated
where it is evaluated, and into those of the functions that it makes. It need not be in shape. -/
inductive Remarked (hidden : List String) (p : Prop) : Value → Value → Prop
  | same {form : Value} : form.Tidy hidden → Remarked hidden p form form
  | call {head head' : Value} {operands operands' : List Value} :
      SpecialForm.ofHead? head = none → Remarked hidden p head head' →
      operands.Forall₂ (Remarked hidden p) operands' →
      Remarked hidden p (.list (head :: operands)) (.list (head' :: operands'))
  | choice {operands operands' : List Value} : operands.Forall₂ (Remarked hidden p) operands' →
      Remarked hidden p (.list (.symbol "if" :: operands)) (.list (.symbol "if" :: operands'))
  | definition {name : Value} {operands operands' : List Value} : name.Tidy hidden →
      operands.Forall₂ (Remarked hidden p) operands' →
      Remarked hidden p (.list (.symbol "def" :: name :: operands))
        (.list (.symbol "def" :: name :: operands'))
  | sequence {forms forms' : List Value} : Strewn (Remarked hidden p) p forms forms' →
      Remarked hidden p (.list (.symbol "do" :: forms)) (.list (.symbol "do" :: forms'))
  | binding {bindings bindings' body body' : List Value} :
      Inits hidden (Remarked hidden p) bindings bindings' →
      Strewn (Remarked hidden p) p body body' →
      Remarked hidden p (.list (.symbol "let" :: .vector bindings :: body))
        (.list (.symbol "let" :: .vector bindings' :: body'))
  | misbinding {given : Value} {body body' : List Value} :
      (∀ bindings, given ≠ .vector bindings) → given.Tidy hidden →
      Strewn (Remarked hidden p) p body body' →
      Remarked hidden p (.list (.symbol "let" :: given :: body))
        (.list (.symbol "let" :: given :: body'))
  | function {params : Value} {body body' : List Value} : params.Tidy hidden →
      Strewn (Remarked hidden p) p body body' →
      Remarked hidden p (.list (.symbol "fn" :: params :: body))
        (.list (.symbol "fn" :: params :: body'))
  | defn {name params : Value} {body body' : List Value} : name.Tidy hidden →
      params.Tidy hidden → Strewn (Remarked hidden p) p body body' →
      Remarked hidden p (.list (.symbol "defn" :: name :: params :: body))
        (.list (.symbol "defn" :: name :: params :: body'))

namespace Strewn

variable {R : Value → Value → Prop} {p : Prop} {forms forms' : List Value}

theorem of_forall₂ (h : forms.Forall₂ R forms') : Strewn R p forms forms' := by
  induction h with
  | nil => exact .nil
  | cons h _ ih => exact .form h ih

/-- Only an empty row stays empty. -/
theorem eq_nil_iff (h : Strewn R p forms forms') : forms = [] ↔ forms' = [] := by
  induction h with
  | nil => rfl
  | form => simp
  | remark _ _ hne => simp [hne]

/-- Where no remarks may be put, the forms are related one by one. -/
theorem forall₂ (h : Strewn R p forms forms') (hp : ¬p) : forms.Forall₂ R forms' := by
  induction h with
  | nil => exact .nil
  | form h _ ih => exact .cons h ih
  | remark _ hp' => exact absurd hp' hp

theorem imp {S : Value → Value → Prop} {q : Prop} (hRS : ∀ form form', R form form' → S form form')
    (hpq : p → q) (h : Strewn R p forms forms') : Strewn S q forms forms' := by
  induction h with
  | nil => exact .nil
  | form h _ ih => exact .form (hRS _ _ h) ih
  | remark text hp hne _ ih => exact .remark text (hpq hp) hne ih

theorem left {P : Value → Prop} (h : Strewn (fun form _ => P form) p forms forms') :
    ∀ form ∈ forms, P form := by
  induction h with
  | nil => simp
  | form h _ ih => exact List.forall_mem_cons.2 ⟨h, ih⟩
  | remark _ _ _ _ ih => exact ih

end Strewn

namespace Inits

variable {hidden : List String} {R : Value → Value → Prop} {bindings bindings' : List Value}

theorem length_eq (h : Inits hidden R bindings bindings') : bindings'.length = bindings.length := by
  induction h with
  | nil | single => rfl
  | cons _ _ _ ih => simp [ih]

theorem evens_eq (h : Inits hidden R bindings bindings') : evens bindings' = evens bindings := by
  induction h with
  | nil | single => rfl
  | cons _ _ _ ih => rw [evens, evens, ih]

/-- Tidy bindings are bindings of tidy patterns. -/
theorem same (hR : ∀ form : Value, form.Tidy hidden → R form form)
    (htidy : ∀ value ∈ bindings, value.Tidy hidden) : Inits hidden R bindings bindings := by
  induction bindings using evens.induct with
  | case1 => exact .nil
  | case2 pattern => exact .single (htidy pattern List.mem_cons_self)
  | case3 pattern init bindings ih =>
    obtain ⟨hpattern, hrest⟩ := List.forall_mem_cons.1 htidy
    obtain ⟨hinit, hbindings⟩ := List.forall_mem_cons.1 hrest
    exact .cons hpattern (hR init hinit) (ih hbindings)

theorem left {P : Value → Prop} (htidy : ∀ pattern : Value, pattern.Tidy hidden → P pattern)
    (h : Inits hidden (fun init _ => P init) bindings bindings') :
    ∀ binding ∈ bindings, P binding := by
  induction h with
  | nil => simp
  | single hpattern => simp [htidy _ hpattern]
  | cons hpattern hinit _ ih =>
    exact List.forall_mem_cons.2 ⟨htidy _ hpattern, List.forall_mem_cons.2 ⟨hinit, ih⟩⟩

end Inits

namespace Remarked

variable {hidden : List String} {p q : Prop} {form form' : Value}

theorem forall₂_same {forms : List Value} (h : ∀ form ∈ forms, form.Tidy hidden) :
    forms.Forall₂ (Remarked hidden p) forms :=
  List.forall₂_same.2 fun form hform => .same (h form hform)

theorem strewn_same {forms : List Value} (h : ∀ form ∈ forms, form.Tidy hidden) :
    Strewn (Remarked hidden p) p forms forms :=
  .of_forall₂ (forall₂_same h)

/-- A name is the same on both sides. -/
theorem symbolName?_eq (h : Remarked hidden p form form') :
    form'.symbolName? = form.symbolName? := by
  cases h <;> rfl

theorem ofHead?_eq (h : Remarked hidden p form form') :
    SpecialForm.ofHead? form' = SpecialForm.ofHead? form := by
  cases h <;> rfl

/-- Nothing else becomes a remark, and a remark stays one. -/
theorem isRemark_eq (h : Remarked hidden p form form') : form'.isRemark = form.isRemark := by
  rw [Bool.eq_iff_iff, Value.isRemark_iff, Value.isRemark_iff]
  cases h with
  | same => rfl
  | @call head head' operands operands' _ hfirst _ =>
    -- the head of a call is tidy, so it is not the name of remarks
    have hhead : head.symbolName? ≠ some "comment" := by
      intro hname
      rw [Value.eq_symbol hname] at hfirst
      cases hfirst with
      | same htidy => exact (Value.tidy_symbol.1 htidy).2.1 rfl
    refine iff_of_false ?_ ?_
    · rintro ⟨text, heq⟩
      cases heq
      exact hhead (hfirst.symbolName?_eq.symm.trans rfl)
    · rintro ⟨text, heq⟩
      cases heq
      exact hhead rfl
  | _ => simp [Value.remark]

/-- What an induction on forms that differ in remarks has to show of each kind of form. -/
structure Inductive (hidden : List String) (p : Prop) (motive : Value → Value → Prop) : Prop where
  same : ∀ {form : Value}, form.Tidy hidden → motive form form
  call : ∀ {head head' : Value} {operands operands' : List Value},
    SpecialForm.ofHead? head = none → Remarked hidden p head head' → motive head head' →
    operands.Forall₂ (Remarked hidden p) operands' → operands.Forall₂ motive operands' →
    motive (.list (head :: operands)) (.list (head' :: operands'))
  choice : ∀ {operands operands' : List Value}, operands.Forall₂ motive operands' →
    motive (.list (.symbol "if" :: operands)) (.list (.symbol "if" :: operands'))
  definition : ∀ {name : Value} {operands operands' : List Value}, name.Tidy hidden →
    operands.Forall₂ motive operands' →
    motive (.list (.symbol "def" :: name :: operands)) (.list (.symbol "def" :: name :: operands'))
  sequence : ∀ {forms forms' : List Value}, Strewn motive p forms forms' →
    motive (.list (.symbol "do" :: forms)) (.list (.symbol "do" :: forms'))
  binding : ∀ {bindings bindings' body body' : List Value},
    Inits hidden motive bindings bindings' → Strewn motive p body body' →
    motive (.list (.symbol "let" :: .vector bindings :: body))
      (.list (.symbol "let" :: .vector bindings' :: body'))
  misbinding : ∀ {given : Value} {body body' : List Value},
    (∀ bindings, given ≠ .vector bindings) → given.Tidy hidden → Strewn motive p body body' →
    motive (.list (.symbol "let" :: given :: body)) (.list (.symbol "let" :: given :: body'))
  function : ∀ {params : Value} {body body' : List Value}, params.Tidy hidden →
    Strewn motive p body body' →
    motive (.list (.symbol "fn" :: params :: body)) (.list (.symbol "fn" :: params :: body'))
  defn : ∀ {name params : Value} {body body' : List Value}, name.Tidy hidden →
    params.Tidy hidden → Strewn motive p body body' →
    motive (.list (.symbol "defn" :: name :: params :: body))
      (.list (.symbol "defn" :: name :: params :: body'))

section induct

variable {motive : Value → Value → Prop}

mutual

/-- **Induction on forms that differ in remarks**: what goes for the parts goes for the whole. -/
theorem induct (step : Inductive hidden p motive) : ∀ {form form' : Value},
    Remarked hidden p form form' → motive form form'
  | _, _, .same h => step.same h
  | _, _, .call hhead hfirst hoperands =>
    step.call hhead hfirst (induct step hfirst) hoperands (induct_each step hoperands)
  | _, _, .choice hoperands => step.choice (induct_each step hoperands)
  | _, _, .definition hname hoperands => step.definition hname (induct_each step hoperands)
  | _, _, .sequence hforms => step.sequence (induct_strewn step hforms)
  | _, _, .binding hinits hbody =>
    step.binding (induct_inits step hinits) (induct_strewn step hbody)
  | _, _, .misbinding hvector hgiven hbody =>
    step.misbinding hvector hgiven (induct_strewn step hbody)
  | _, _, .function hparams hbody => step.function hparams (induct_strewn step hbody)
  | _, _, .defn hname hparams hbody => step.defn hname hparams (induct_strewn step hbody)

theorem induct_each (step : Inductive hidden p motive) : ∀ {forms forms' : List Value},
    forms.Forall₂ (Remarked hidden p) forms' → forms.Forall₂ motive forms'
  | _, _, .nil => .nil
  | _, _, .cons hform hforms => .cons (induct step hform) (induct_each step hforms)

theorem induct_inits (step : Inductive hidden p motive) : ∀ {bindings bindings' : List Value},
    Inits hidden (Remarked hidden p) bindings bindings' → Inits hidden motive bindings bindings'
  | _, _, .nil => .nil
  | _, _, .single hpattern => .single hpattern
  | _, _, .cons hpattern hinit hbindings =>
    .cons hpattern (induct step hinit) (induct_inits step hbindings)

theorem induct_strewn (step : Inductive hidden p motive) : ∀ {forms forms' : List Value},
    Strewn (Remarked hidden p) p forms forms' → Strewn motive p forms forms'
  | _, _, .nil => .nil
  | _, _, .form hform hforms => .form (induct step hform) (induct_strewn step hforms)
  | _, _, .remark text hp hne hforms => .remark text hp hne (induct_strewn step hforms)

end

end induct

/-- Remarks stay where they are if they may be put into more places. -/
theorem imp (hpq : p → q) (h : Remarked hidden p form form') : Remarked hidden q form form' := by
  have hstrewn : ∀ {forms forms' : List Value}, Strewn (Remarked hidden q) p forms forms' →
      Strewn (Remarked hidden q) q forms forms' := fun h => h.imp (fun _ _ => id) hpq
  exact induct {
    same := .same
    call := fun hhead _ hfirst _ hoperands => .call hhead hfirst hoperands
    choice := .choice
    definition := .definition
    sequence := fun hforms => .sequence (hstrewn hforms)
    binding := fun hinits hbody => .binding hinits (hstrewn hbody)
    misbinding := fun hvector hgiven hbody => .misbinding hvector hgiven (hstrewn hbody)
    function := fun hparams hbody => .function hparams (hstrewn hbody)
    defn := fun hname hparams hbody => .defn hname hparams (hstrewn hbody) } h

theorem strewn_imp (hpq : p → q) {forms forms' : List Value}
    (h : Strewn (Remarked hidden p) p forms forms') : Strewn (Remarked hidden q) q forms forms' :=
  h.imp (fun _ _ hform => hform.imp hpq) hpq

open Value (clean_list clean_vector)

/-- A list headed by a name is clean if its operands are. -/
theorem clean_named {name : String} {operands : List Value}
    (h : ∀ operand ∈ operands, operand.Clean hidden) :
    (Value.list (.symbol name :: operands)).Clean hidden :=
  clean_list.2 (List.forall_mem_cons.2 ⟨rfl, h⟩)

/-- Code into which remarks may be put is clean data. -/
theorem clean (h : Remarked hidden p form form') : form.Clean hidden := by
  have hcons : ∀ {form : Value} {forms : List Value}, form.Clean hidden →
      (∀ form ∈ forms, form.Clean hidden) → ∀ other ∈ form :: forms, other.Clean hidden :=
    fun hform hforms => List.forall_mem_cons.2 ⟨hform, hforms⟩
  have heach : ∀ {forms forms' : List Value},
      forms.Forall₂ (fun form _ => form.Clean hidden) forms' → ∀ form ∈ forms, form.Clean hidden :=
    fun h => (Strewn.of_forall₂ (p := False) h).left
  exact induct (motive := fun form _ => form.Clean hidden) {
    same := Value.Tidy.clean
    call := fun _ _ hhead _ hoperands => clean_list.2 (hcons hhead (heach hoperands))
    choice := fun hoperands => clean_named (heach hoperands)
    definition := fun hname hoperands => clean_named (hcons hname.clean (heach hoperands))
    sequence := fun hforms => clean_named hforms.left
    binding := fun hinits hbody => clean_named
      (hcons (clean_vector.2 (hinits.left fun _ => Value.Tidy.clean)) hbody.left)
    misbinding := fun _ hgiven hbody => clean_named (hcons hgiven.clean hbody.left)
    function := fun hparams hbody => clean_named (hcons hparams.clean hbody.left)
    defn := fun hname hparams hbody =>
      clean_named (hcons hname.clean (hcons hparams.clean hbody.left)) } h

theorem clean_strewn {forms forms' : List Value} (h : Strewn (Remarked hidden p) p forms forms') :
    ∀ form ∈ forms, form.Clean hidden :=
  (h.imp (fun _ _ hform => hform.clean) id).left

/-! ## The check of a program -/

section walk

variable {bound : String → Bool}

open SpecialForm (check_if_eq check_def_eq check_let_eq check_misbinding_eq misbinding_ne_ok
  check_fn_eq)
open Validation (walk walkAll walkAll_append walk_special_eq walk_name walk_of_symbolName? learn
  learn_cons learn_of_ne)

/-- A remark is passed over where `comment` means a transformer. -/
theorem walk_remark (hcomment : bound "comment" = true) (text : String) (known : List String) :
    walk bound (.remark text) known = .ok known := by
  have hname : SpecialForm.ofName? "comment" = none := by decide
  rw [Value.remark, walk_name hname, hcomment, Bool.or_true, if_pos rfl]
  rfl

theorem learn_eq {name : String} {operands operands' : List Value}
    (h : operands.Forall₂ (Remarked hidden p) operands') (known : List String) :
    learn name operands' known = learn name operands known := by
  cases h with
  | nil => rfl
  | cons hform _ => rw [learn_cons, learn_cons, hform.symbolName?_eq]

variable (bound) in
/-- The check does not tell the forms apart. -/
def CheckedAlike (form form' : Value) : Prop :=
  ∀ known, walk bound form' known = walk bound form known

theorem walkAll_eq {forms forms' : List Value} (h : forms.Forall₂ (CheckedAlike bound) forms')
    (known : List String) : walkAll bound forms' known = walkAll bound forms known := by
  induction h generalizing known with
  | nil => rfl
  | cons hform _ ih =>
    rw [walkAll, walkAll, hform]
    exact congrArg _ (funext ih)

theorem walkAll_eq_inits {bindings bindings' : List Value}
    (h : Inits hidden (CheckedAlike bound) bindings bindings') (known : List String) :
    walkAll bound (odds bindings') known = walkAll bound (odds bindings) known := by
  induction h generalizing known with
  | nil | single => rfl
  | cons _ hinit _ ih =>
    rw [odds, odds, walkAll, walkAll, hinit]
    exact congrArg _ (funext ih)

theorem walkAll_eq_strewn (hcomment : p → bound "comment" = true) {forms forms' : List Value}
    (h : Strewn (CheckedAlike bound) p forms forms') (known : List String) :
    walkAll bound forms' known = walkAll bound forms known := by
  induction h generalizing known with
  | nil => rfl
  | form hform _ ih =>
    rw [walkAll, walkAll, hform]
    exact congrArg _ (funext ih)
  | remark text hp _ _ ih =>
    rw [walkAll, walk_remark (hcomment hp)]
    exact ih known

/-- **The check does not see remarks.** -/
theorem walk_eq (hcomment : p → bound "comment" = true) (h : Remarked hidden p form form') :
    CheckedAlike bound form form' := by
  refine induct ?_ h
  constructor
  case same => exact fun _ _ => rfl
  case call =>
    intro head head' operands operands' hhead hfirst hchecked hoperands heach known
    have hsymbol := hfirst.symbolName?_eq
    cases hname : head.symbolName? with
    | none =>
      rw [walk_of_symbolName? hname, walk_of_symbolName? (hsymbol.trans hname)]
      exact walkAll_eq (.cons hchecked heach) known
    | some name =>
      rw [Value.eq_symbol hname] at hhead ⊢
      rw [Value.eq_symbol (hsymbol.trans hname), walk_name hhead, walk_name hhead,
        learn_eq hoperands, walkAll_eq heach]
  case choice =>
    intro operands operands' heach
    exact fun known => walk_special_eq (SpecialForm.ofName?_name .ifForm)
      (check_if_eq heach.length_eq) fun _ => walkAll_eq heach known
  case definition =>
    intro name operands operands' _ heach
    exact fun known => walk_special_eq (SpecialForm.ofName?_name .defForm)
      (check_def_eq heach.length_eq _) fun _ => walkAll_eq heach known
  case sequence =>
    intro forms forms' hforms
    exact fun known => walk_special_eq (SpecialForm.ofName?_name .doForm) rfl
      fun _ => walkAll_eq_strewn hcomment hforms known
  case binding =>
    intro bindings bindings' body body' hinits hbody known
    refine walk_special_eq (SpecialForm.ofName?_name .letForm)
      (check_let_eq hinits.length_eq hinits.evens_eq hbody.eq_nil_iff) fun _ => ?_
    simp only [SpecialForm.parts, walkAll_append]
    rw [walkAll_eq_inits hinits known]
    exact congrArg _ (funext (walkAll_eq_strewn hcomment hbody))
  case misbinding =>
    intro given body body' hvector _ hbody
    exact fun known => walk_special_eq (SpecialForm.ofName?_name .letForm)
      (check_misbinding_eq hbody.eq_nil_iff _)
      fun hcheck => absurd hcheck (misbinding_ne_ok hvector _)
  case function =>
    intro params body body' _ hbody
    exact fun known => walk_special_eq (SpecialForm.ofName?_name .fnForm)
      (check_fn_eq hbody.eq_nil_iff _) fun _ => walkAll_eq_strewn hcomment hbody known
  case defn =>
    -- where `defn` means a transformer the operands are passed over, and elsewhere they are walked
    intro name params body body' _ _ hbody known
    have hspecial : SpecialForm.ofName? "defn" = none := by decide
    have hoperands : walkAll bound (name :: params :: body') known =
        walkAll bound (name :: params :: body) known := by
      simp only [walkAll, walkAll_eq_strewn hcomment hbody]
    rw [walk_name hspecial, walk_name hspecial, learn_of_ne (by decide), learn_of_ne (by decide),
      hoperands]

end walk

/-! ## Printing -/

section print

variable {scope : Style → FrameId → Printer.Printed}

open Printer (EndsLike itemTexts valueText)

/-- What is printed between brackets has a text if the items have. -/
theorem endsLike_list {items items' : List Value}
    (h : EndsLike (itemTexts scope items) (itemTexts scope items')) (style : Style) :
    EndsLike (valueText scope style (.list items)) (valueText scope style (.list items')) := by
  rw [valueText, valueText]
  exact h.bind fun _ _ => .ok

theorem endsLike_vector {items items' : List Value}
    (h : EndsLike (itemTexts scope items) (itemTexts scope items')) (style : Style) :
    EndsLike (valueText scope style (.vector items)) (valueText scope style (.vector items')) := by
  rw [valueText, valueText]
  exact h.bind fun _ _ => .ok

theorem endsLike_cons {item item' : Value} {items items' : List Value}
    (hitem : EndsLike (valueText scope .source item) (valueText scope .source item'))
    (hitems : EndsLike (itemTexts scope items) (itemTexts scope items')) :
    EndsLike (itemTexts scope (item :: items)) (itemTexts scope (item' :: items')) := by
  rw [itemTexts, itemTexts]
  exact hitem.bind fun _ _ => hitems.bind fun _ _ => .ok

variable (scope) in
/-- Each form has a text if the other one has, in every style. -/
def PrintedAlike (form form' : Value) : Prop :=
  ∀ style, EndsLike (valueText scope style form) (valueText scope style form')

theorem endsLike_each {forms forms' : List Value} (h : forms.Forall₂ (PrintedAlike scope) forms') :
    EndsLike (itemTexts scope forms) (itemTexts scope forms') := by
  induction h with
  | nil => exact .refl _
  | cons hform _ ih => exact endsLike_cons (hform .source) ih

theorem endsLike_inits {bindings bindings' : List Value}
    (h : Inits hidden (PrintedAlike scope) bindings bindings') :
    EndsLike (itemTexts scope bindings) (itemTexts scope bindings') := by
  induction h with
  | nil | single => exact .refl _
  | cons _ hinit _ ih => exact endsLike_cons (.refl _) (endsLike_cons (hinit .source) ih)

theorem endsLike_strewn {forms forms' : List Value}
    (h : Strewn (PrintedAlike scope) p forms forms') :
    EndsLike (itemTexts scope forms) (itemTexts scope forms') := by
  induction h with
  | nil => exact .refl _
  | form hform _ ih => exact endsLike_cons (hform .source) ih
  | remark text _ _ _ ih =>
    obtain ⟨written, hwritten⟩ : ∃ written, valueText scope .source (.remark text) = .ok written :=
      ⟨_, rfl⟩
    rw [itemTexts, hwritten]
    exact ih.bind_right fun texts => written :: texts

/-- A remark in a form keeps it neither from having a text nor from having none. -/
theorem endsLike (h : Remarked hidden p form form') : PrintedAlike scope form form' := by
  -- what stands before a body is the same on both sides
  have hsame : ∀ {item : Value} {items items' : List Value},
      EndsLike (itemTexts scope items) (itemTexts scope items') →
      EndsLike (itemTexts scope (item :: items)) (itemTexts scope (item :: items')) :=
    fun h => endsLike_cons (.refl _) h
  exact induct {
    same := fun _ _ => .refl _
    call := fun _ _ hhead _ heach =>
      endsLike_list (endsLike_cons (hhead .source) (endsLike_each heach))
    choice := fun heach => endsLike_list (hsame (endsLike_each heach))
    definition := fun _ heach => endsLike_list (hsame (hsame (endsLike_each heach)))
    sequence := fun hforms => endsLike_list (hsame (endsLike_strewn hforms))
    binding := fun hinits hbody => endsLike_list (hsame
      (endsLike_cons (endsLike_vector (endsLike_inits hinits) .source) (endsLike_strewn hbody)))
    misbinding := fun _ _ hbody => endsLike_list (hsame (hsame (endsLike_strewn hbody)))
    function := fun _ hbody => endsLike_list (hsame (hsame (endsLike_strewn hbody)))
    defn := fun _ _ hbody => endsLike_list (hsame (hsame (hsame (endsLike_strewn hbody)))) } h

end print

end Remarked

end SmallLisp
