import SmallLisp.Proofs.Evaluation
import SmallLisp.Proofs.Frames
import SmallLisp.Proofs.InShape
import SmallLisp.Proofs.Reading
import SmallLisp.Session

/-!
# Checked programs stay in shape

A program without transformers that passes the check never runs into a form out of shape, whatever
earlier programs of the session have left behind.

* `Trusted`: the callables that such a program can hold. A function among them has patterns for
  parameters, and its body is again avoiding, in shape and without capabilities. So the guarantee
  travels with a function into frames and through later programs.
* **`Session.evalText_inShape`**: what follows for sessions.

The names that make transformers available are bound on the root, too, but to something that is not
trusted. The store is good as long as all other names are bound to trusted values.
-/

namespace SmallLisp

/-! ## Trust -/

/-- The names through which a session makes transformers available. -/
def reserved : List String := ["macro", "defmacro", "defn", "comment"]

/-- A form without transformers that is in shape and gives access to nothing. -/
structure Proper (form : Value) : Prop where
  avoids : form.Avoids reserved
  inShape : InShape form
  every : form.Every fun _ => False

/-- The callables that a program of proper forms can hold. -/
def Trusted : Value → Prop
  | .function _ params body _ =>
    (∃ patterns, params = .vector patterns ∧ Pattern.badTargets? patterns = none) ∧ body ≠ [] ∧
      ∀ form ∈ body, Proper form
  | .host _ (.builtin operation) => operation ≠ .makeTransformer
  | _ => False

/-- Every name that is not reserved is bound to something trusted. -/
def Trustworthy (store : Store) : Prop :=
  ∀ id name value, store.local? id name = some value → name ∉ reserved → value.Every Trusted

namespace Trustworthy

variable {store : Store}

theorem write (h : Trustworthy store) (id : FrameId) {name : String} {value : Value}
    (hvalue : name ∉ reserved → value.Every Trusted) : Trustworthy (store.write id name value) :=
  Store.Grants.write h id hvalue

theorem push (h : Trustworthy store) (outer : Option FrameId) :
    Trustworthy (store.push outer) :=
  Store.Grants.push h outer

theorem lookup? (h : Trustworthy store) {id : FrameId} {name : String} {value : Value}
    (hname : name ∉ reserved) (hlookup : store.lookup? id name = some value) :
    value.Every Trusted :=
  Store.Grants.lookup? h hname hlookup

/-- Only a reserved name can mean a transformer. -/
theorem bindsTransformer (h : Trustworthy store) (id : FrameId) (name : String)
    (hname : name ∉ reserved) : store.bindsTransformer id name = false := by
  unfold Store.bindsTransformer
  split
  · rename_i hlookup
    exact (Value.every_transformer.1 (h.lookup? hname hlookup)).1.elim
  · rfl

end Trustworthy

/-- The application of a trusted function is in shape. -/
theorem application_check {patterns arguments body : List Value}
    (htargets : Pattern.badTargets? patterns = none) (hbody : body ≠ [])
    (hlength : arguments.length = patterns.length) :
    SpecialForm.letForm.check (.vector (Engine.interleave patterns arguments) :: body) =
      .ok () := by
  refine SpecialForm.letForm_check_of_shape hbody ?_ ?_
  · rw [Engine.length_interleave hlength]
    omega
  · rw [Engine.evens_interleave hlength]
    exact htargets

/-- The discipline of programs without transformers that pass the check. -/
def shapeDiscipline : Discipline where
  Good := Trustworthy
  Leads _ _ := True
  Opens _ _ _ := True
  Trusts _ := Trusted
  Scope _ _ := True
  Code _ := Proper
  Allows := Fault.Ordinary
  leads_refl := trivial
  leads_trans _ _ := trivial
  trusts_mono _ h := h
  scope_mono _ _ := trivial
  code_mono _ h := h
  push hgood _ := ⟨hgood.push _, trivial⟩
  opens_leads _ := trivial
  opens_scope _ := trivial
  opens_trans _ _ := trivial
  extend hgood _ _ hvalue := ⟨hgood.write _ fun _ => hvalue, trivial, fun _ hc => hc⟩
  enter hgood _ := ⟨hgood, trivial, trivial⟩
  assign hgood _ hvalue := ⟨hgood.write _ fun _ => hvalue, trivial⟩
  lookup hgood _ hcode hlookup := hgood.lookup? (Value.avoids_symbol.1 hcode.avoids) hlookup
  every_of_code hcode := hcode.every.mono fun _ h => h.elim
  shape hcode hhead hcheck := by
    rw [(hcode.inShape.special_inv hhead).1] at hcheck
    cases hcheck
  parts hcode hhead _ part hpart := by
    refine ⟨avoids_parts hcode.avoids part hpart, ?_, ?_⟩
    · exact (hcode.inShape.special_inv hhead).2 part hpart
    · exact SpecialForm.every_of_mem_parts hcode.every part hpart
  call hcode hhead part hpart :=
    ⟨Value.avoids_list.1 hcode.avoids part hpart, hcode.inShape.call_inv hhead part hpart,
      (Value.every_list _).1 hcode.every part hpart⟩
  function := @fun _ _ params body _ _ hcode hhead hcheck _ => by
    obtain ⟨params', body', hoperands, hbody, htargets⟩ := SpecialForm.fnForm_shape hcheck
    obtain ⟨hparams, rfl⟩ := List.cons.inj hoperands
    cases hparams
    have havoids : ∀ form ∈ SpecialForm.fnForm.parts (.vector params :: body),
        form.Avoids reserved := avoids_parts hcode.avoids
    have hevery : ∀ form ∈ SpecialForm.fnForm.parts (.vector params :: body),
        form.Every fun _ => False := SpecialForm.every_of_mem_parts hcode.every
    have hshape := (hcode.inShape.special_inv hhead).2
    exact ⟨⟨params, rfl, htargets⟩, hbody,
      fun form hform => ⟨havoids form hform, hshape form hform, hevery form hform⟩⟩
  home h := ⟨trivial, (Value.every_function.1 h).1.2.2⟩
  application htrusts hparams hlength hcheck := by
    obtain ⟨⟨patterns, rfl, htargets⟩, hbody, -⟩ := htrusts
    cases hparams
    rw [application_check htargets hbody hlength] at hcheck
    cases hcheck
  uncallable htrusts hparams := by
    obtain ⟨⟨patterns, rfl, -⟩, -⟩ := htrusts
    cases hparams
  invoker h := h.elim
  expander h := h.elim
  expander_fault h := h.elim
  missing h := h.elim
  maker h := absurd rfl h
  environment h := h.elim
  expansion h := h.elim
  invalid h := h.elim
  ordinary h := h

/-! ## Forms of texts -/

theorem Atom.every_value (p : Value → Prop) (text : String) : (Atom.value text).Every p := by
  unfold Atom.value Atom.read
  split
  · exact Value.every_nil
  split
  · exact Value.every_bool true
  split
  · exact Value.every_bool false
  split
  · rename_i number _
    cases number with
    | ok n => exact Value.every_number n
    | error reason => exact Value.every_nil
  · split
    · exact Value.every_keyword _
    · exact Value.every_symbol text

theorem Bracket.every_collection {p : Value → Prop} {items : List Value} (bracket : Bracket)
    (h : ∀ item ∈ items, item.Every p) : (bracket.collection items).Every p := by
  cases bracket with
  | round => exact (Value.every_list items).2 h
  | square => exact (Value.every_vector items).2 h
  | curly =>
    rw [Bracket.collection, Entries.ofFlat]
    cases hflat : Entries.ofFlat? items with
    | none => simp
    | some entries => exact Entries.every_ofFlat? hflat h

namespace Tree

mutual

/-- A form that is read gives access to nothing. -/
theorem every_value (p : Value → Prop) : ∀ tree : Tree, tree.value.Every p
  | .atom text => by
    rw [value]
    exact Atom.every_value p text
  | .string text => by
    rw [value]
    exact Value.every_str _
  | .remark text => by simp [value]
  | .quoted mark tree => by
    have htree := every_value p tree
    simpa [value] using htree
  | .group bracket opening closing trees => by
    rw [value]
    exact bracket.every_collection (every_values p trees)

theorem every_values (p : Value → Prop) : ∀ trees : List Tree, ∀ form ∈ values trees, form.Every p
  | [] => by simp [values]
  | tree :: trees => by
    rw [values, List.forall_mem_cons]
    exact ⟨every_value p tree, every_values p trees⟩

end

end Tree

theorem Reader.forms_eq_of_readForms {source : String} {forms : List Value}
    (h : readForms source = .ok forms) : (readText source).forms = forms := by
  unfold readForms at h
  split at h
  · rename_i hread
    cases h
    rw [hread]
  · cases h

theorem Reader.every_of_mem_readForms {source : String} {forms : List Value} (p : Value → Prop)
    (h : readForms source = .ok forms) : ∀ form ∈ forms, form.Every p := by
  intro form hform
  rw [← forms_eq_of_readForms h] at hform
  obtain ⟨tree, -, rfl, -⟩ := exists_tree_of_mem_readText hform
  exact tree.every_value p

/-! ## Sessions -/

instance (names : List String) (value : Value) : Decidable (value.Avoids names) :=
  inferInstanceAs (Decidable (∀ name ∈ value.symbols, name ∉ names))

/-- No form of the text contains one of the names as a symbol. -/
def Reader.Avoids (names : List String) (source : String) : Prop :=
  match readForms source with
  | .ok forms => ∀ form ∈ forms, form.Avoids names
  | .error _ => True

instance (names : List String) (source : String) : Decidable (Reader.Avoids names source) :=
  match h : Reader.readForms source with
  | .ok forms =>
    decidable_of_iff (∀ form ∈ forms, form.Avoids names) (by simp [Reader.Avoids, h])
  | .error _ => .isTrue (by simp [Reader.Avoids, h])

namespace Session

/-- A machine with a session that was just started, on a root frame of number 0. -/
def fresh (verbose : Bool) : Machine :=
  (start 0).after ((Run.push none).after (.fresh verbose))

/-- The machine after the programs were evaluated on the root frame, one after the other, whether
they failed or not. -/
def evalAll (engine : Engine) (sources : List String) (m : Machine) : Machine :=
  sources.foldl (fun m source => (evalText engine 0 source).after m) m

/-! ### Starting -/

/-- The run keeps the store trustworthy. -/
def Stays {α : Type} (run : Run α) : Prop :=
  ∀ m, Trustworthy m.store →
    run.Ends m (fun _ store => Trustworthy store) fun _ store => Trustworthy store

theorem Stays.bind {α β : Type} {run : Run α} {f : α → Run β} (hrun : Stays run)
    (hf : ∀ a, Stays (f a)) : Stays (run >>= f) :=
  fun m hm => (hrun m hm).bind fun a m' hm' => hf a m' hm'

theorem Stays.after {α : Type} {run : Run α} (hrun : Stays run) {m : Machine}
    (hm : Trustworthy m.store) : Trustworthy (run.after m).store :=
  (hrun m hm).after (fun _ _ hstore => hstore) fun _ _ hstore => hstore

theorem stays_forM {α : Type} {f : α → Run Unit} (hf : ∀ a, Stays (f a)) (row : List α) :
    Stays (row.forM f) := by
  induction row with
  | nil => exact fun _ hm => hm
  | cons a row ih => exact (hf a).bind fun _ => ih

theorem stays_nextSerial : Stays Run.nextSerial :=
  fun _ hm => hm

/-- A session may bind a reserved name to anything, and any other name to something trusted. -/
theorem stays_define {frame : FrameId} {name : String} {value : Value}
    (hvalue : name ∉ reserved → value.Every Trusted) : Stays (define frame name value) := by
  intro m hm
  refine Run.ends_ofWriting ?_ ?_
  · intro u store hdefine
    rw [Store.define_symbol] at hdefine
    split at hdefine <;> cases hdefine
    exact hm.write frame hvalue
  · intro reason store hdefine
    rw [Store.define_symbol] at hdefine
    split at hdefine <;> cases hdefine
    exact hm

theorem stays_installBuiltins (frame : FrameId) : Stays (installBuiltins frame) := by
  refine stays_forM ?_ _
  intro operation m hm
  have hhost : (makeHost (.builtin operation)).Ends m (fun _ store => Trustworthy store)
      fun value store => Trustworthy store ∧ ∃ serial, value = .host serial (.builtin operation) :=
    ⟨hm, m.serial, rfl⟩
  refine hhost.bind ?_
  rintro value m' ⟨hm', serial, rfl⟩
  refine stays_define (fun hname => Value.every_host.2 ?_) m' hm'
  rintro rfl
  exact hname (by decide)

theorem stays_installTransformers (frame : FrameId) : Stays (installTransformers frame) := by
  refine stays_forM ?_ _
  intro expander
  have hreserved : expander.name ∈ reserved := by cases expander <;> decide
  refine Stays.bind (stays_nextSerial.bind fun _ m hm => hm) fun target => ?_
  exact stays_nextSerial.bind fun _ => stays_define fun hname => absurd hreserved hname

theorem stays_start (root : FrameId) : Stays (start root) := by
  intro m hm
  apply Run.ends_bind_store
  split
  · exact hm
  · refine Stays.bind (Stays.bind (stays_installBuiltins root)
      fun _ => stays_installTransformers root) (fun _ m' hm' => ?_) m hm
    apply Run.ends_bind_get
    split
    · exact hm'
    · exact hm'

/-- A session starts with trusted values under all names that are not reserved. -/
theorem trustworthy_fresh (verbose : Bool) : Trustworthy (fresh verbose).store := by
  apply (stays_start 0).after
  have hempty : Trustworthy Store.empty := fun id name value hlocal => by cases hlocal
  exact hempty.push none

/-! ### Evaluating -/

variable {engine : Engine} {frame : FrameId} {source : String} {forms : List Value} {m : Machine}

/-- A text that cannot be read changes nothing. -/
theorem evalText_unread {reason : ReadError} (hread : Reader.readForms source = .error reason) :
    evalText engine frame source m = .error (.fault (.read reason)) m := by
  unfold evalText
  rw [hread]
  rfl

theorem evalText_read (hread : Reader.readForms source = .ok forms) :
    evalText engine frame source m =
      match Validation.checkAll (m.store.bindsTransformer frame) forms with
      | .ok () => engine.evalBody forms frame m
      | .error fault => .error (.fault fault) m := by
  have hvalidate : validateAll frame forms m =
      Run.ofExcept (Validation.checkAll (m.store.bindsTransformer frame) forms) m := rfl
  unfold evalText
  rw [hread]
  show EStateM.bind (validateAll frame forms) (fun _ => engine.evalBody forms frame) m = _
  unfold EStateM.bind
  rw [hvalidate]
  cases Validation.checkAll (m.store.bindsTransformer frame) forms <;> rfl

/-- What holds of the store before a text is evaluated, and behind the evaluation of its forms if
they pass the check, holds behind that of the text. -/
theorem after_evalText {p : Store → Prop} (hbefore : p m.store)
    (hbody : ∀ forms, Reader.readForms source = .ok forms →
      Validation.checkAll (m.store.bindsTransformer frame) forms = .ok () →
      p ((engine.evalBody forms frame).after m).store) :
    p ((evalText engine frame source).after m).store := by
  cases hread : Reader.readForms source with
  | error reason =>
    rw [Run.after, evalText_unread hread]
    exact hbefore
  | ok forms =>
    cases hcheck : Validation.checkAll (m.store.bindsTransformer frame) forms with
    | error fault =>
      rw [Run.after, evalText_read hread, hcheck]
      exact hbefore
    | ok =>
      have hafter := hbody forms hread hcheck
      rw [Run.after] at hafter ⊢
      rw [evalText_read hread, hcheck]
      exact hafter

/-- What every one of the programs preserves is preserved by all of them. -/
theorem evalAll_preserves {p : Machine → Prop} {sources : List String} (hm : p m)
    (hsource : ∀ source ∈ sources, ∀ m, p m → p ((evalText engine 0 source).after m)) :
    p (evalAll engine sources m) :=
  List.foldlRecOn sources _ hm fun m hm source hmem => hsource source hmem m hm

/-- The text is read, and its forms pass the check together in a frame as it is now. -/
def Passes (frame : FrameId) (source : String) (m : Machine) : Prop :=
  ∃ forms, Reader.readForms source = .ok forms ∧
    Validation.checkAll (m.store.bindsTransformer frame) forms = .ok ()

instance (frame : FrameId) (source : String) (m : Machine) : Decidable (Passes frame source m) :=
  decidable_of_iff ((Reader.readForms source).toOption.any (fun forms =>
    (Validation.checkAll (m.store.bindsTransformer frame) forms).isOk) = true) (by
      unfold Passes
      cases Reader.readForms source with
      | error reason => simp [Except.toOption]
      | ok forms =>
        cases hcheck : Validation.checkAll (m.store.bindsTransformer frame) forms <;>
          simp [Except.toOption, Except.isOk, Except.toBool, hcheck])

/-- A program that avoids the reserved names and passes the check, on a machine that is trustworthy,
keeps to the discipline. -/
theorem keeps_evalBody_of_checkAll (depth : Nat) (hm : Trustworthy m.store)
    (havoids : Reader.Avoids reserved source) (hread : Reader.readForms source = .ok forms)
    (hcheck : Validation.checkAll (m.store.bindsTransformer frame) forms = .ok ()) :
    shapeDiscipline.Keeps m.store ((Engine.ofDepth depth).evalBody forms frame) m
      shapeDiscipline.Fit := by
  unfold Reader.Avoids at havoids
  rw [hread] at havoids
  have hshape := inShape_of_checkAll (hm.bindsTransformer frame) havoids hcheck
  apply Discipline.keeps_evalBody (shapeDiscipline.respects_ofDepth depth) hm trivial
  intro form hform
  exact ⟨havoids form hform, hshape form hform, Reader.every_of_mem_readForms _ hread form hform⟩

/-- A program that avoids the reserved names leaves a trustworthy machine trustworthy. -/
theorem trustworthy_evalText (depth : Nat) (hm : Trustworthy m.store)
    (havoids : Reader.Avoids reserved source) :
    Trustworthy ((evalText (.ofDepth depth) frame source).after m).store :=
  after_evalText hm fun _ hread hcheck =>
    (keeps_evalBody_of_checkAll depth hm havoids hread hcheck).after.1

/-- Programs that avoid the reserved names leave a trustworthy machine trustworthy. -/
theorem trustworthy_evalAll (depth : Nat) {sources : List String} (hm : Trustworthy m.store)
    (havoids : ∀ source ∈ sources, Reader.Avoids reserved source) :
    Trustworthy (evalAll (.ofDepth depth) sources m).store :=
  evalAll_preserves (p := fun m => Trustworthy m.store) hm fun source hmem _ hm =>
    trustworthy_evalText depth hm (havoids source hmem)

end Session

theorem Fault.Ordinary.eq_duplicate {fault : Fault} (h : fault.Ordinary)
    (hkind : fault.kind = .malformed) : ∃ name, fault = .bind (.duplicate name) := by
  cases fault with
  | bind reason =>
    cases reason with
    | duplicate name => exact ⟨name, rfl⟩
    | _ => cases hkind
  | read | shape | definition | uncallable | missingPart | missingArgument | notRoot => exact h.elim
  | _ => cases hkind

/-- **Checked programs stay in shape.** Let programs be evaluated one after the other in a new
session, and let none of them contain a name that makes transformers available. Then a program that
cannot be read or does not pass the check leaves the machine as it is. One that passes the check
never fails because a special form is out of shape, nor because something other than a pattern or a
name was to be bound; if its fault is one of form at all, then a name was bound twice. -/
theorem Session.evalText_inShape (verbose : Bool) (depth : Nat) (earlier : List String)
    (source : String) (havoids : ∀ text ∈ earlier ++ [source], Reader.Avoids reserved text) :
    let m := evalAll (.ofDepth depth) earlier (fresh verbose)
    let run := evalText (.ofDepth depth) 0 source
    (∀ reason, Reader.readForms source = .error reason →
      run m = .error (.fault (.read reason)) m) ∧
    ∀ forms, Reader.readForms source = .ok forms →
      (∀ fault, Validation.checkAll (m.store.bindsTransformer 0) forms = .error fault →
        run m = .error (.fault fault) m) ∧
      (Validation.checkAll (m.store.bindsTransformer 0) forms = .ok () →
        ∀ fault m', run m = .error (.fault fault) m' →
          (∀ form reason, fault ≠ .shape form reason) ∧
          (∀ pattern, fault ≠ .bind (.target pattern)) ∧
          (∀ given, fault ≠ .bind (.notName given)) ∧
          (fault.kind = .malformed → ∃ name, fault = .bind (.duplicate name))) := by
  intro m run
  rw [List.forall_mem_append] at havoids
  have hm : Trustworthy m.store := trustworthy_evalAll depth (trustworthy_fresh verbose) havoids.1
  refine ⟨fun reason hread => evalText_unread hread, fun forms hread => ⟨?_, ?_⟩⟩
  · intro fault hcheck
    simp only [run, evalText_read hread, hcheck]
  · intro hcheck fault m' hrun
    have hkeeps := keeps_evalBody_of_checkAll depth hm (havoids.2 source (by simp)) hread hcheck
    simp only [run, evalText_read hread, hcheck] at hrun
    unfold Discipline.Keeps Run.Ends at hkeeps
    rw [hrun] at hkeeps
    have hordinary : fault.Ordinary := hkeeps.2.2 fault rfl
    refine ⟨?_, ?_, ?_, hordinary.eq_duplicate⟩
    · rintro form reason rfl
      exact hordinary
    · rintro pattern rfl
      exact hordinary
    · rintro given rfl
      exact hordinary

/-- A function that binds its parameter once more is defined by one program and called by the next:
the fault is that of the name, not one of shape. -/
theorem Session.evalText_inShape_duplicate :
    let earlier := ["(def f (fn [x] (let [x x, y (if x 1 2), y x] y)))", "(f"]
    let m := evalAll (.ofDepth 12) earlier (fresh true)
    (∀ text ∈ earlier ++ ["(f 3)"], Reader.Avoids reserved text) ∧
    ∃ fault m', evalText (.ofDepth 12) 0 "(f 3)" m = .error (.fault fault) m' ∧
      ∃ name, fault = .bind (.duplicate name) := by
  intro earlier
  -- The machine is not left as a local definition, whose fields are compared by evaluating it.
  dsimp only
  generalize hm : evalAll (.ofDepth 12) earlier (fresh true) = m
  obtain ⟨havoids, hvalid, hmalformed⟩ :
      (∀ text ∈ earlier ++ ["(f 3)"], Reader.Avoids reserved text) ∧
      ((Reader.readForms "(f 3)").toOption.any fun forms =>
        (Validation.checkAll (m.store.bindsTransformer 0) forms).isOk) = true ∧
      ((evalText (.ofDepth 12) 0 "(f 3)").fault? m).any (fun fault => fault.kind = .malformed) =
        true := by
    subst hm
    decide +kernel
  obtain ⟨fault, m', hrun, hkind⟩ := Run.exists_fault_of_any hmalformed
  have hsession := (Session.evalText_inShape true 12 earlier "(f 3)" havoids).2
  rw [hm] at hsession
  refine ⟨havoids, fault, m', hrun, ?_⟩
  cases hread : Reader.readForms "(f 3)" with
  | error reason =>
    rw [hread] at hvalid
    cases hvalid
  | ok forms =>
    rw [hread] at hvalid
    cases hcheck : Validation.checkAll (m.store.bindsTransformer 0) forms with
    | error fault =>
      have hfails : (Validation.checkAll (m.store.bindsTransformer 0) forms).isOk = true := hvalid
      rw [hcheck] at hfails
      cases hfails
    | ok => exact ((hsession forms hread).2 hcheck fault m' hrun).2.2.2 (of_decide_eq_true hkind)

end SmallLisp
