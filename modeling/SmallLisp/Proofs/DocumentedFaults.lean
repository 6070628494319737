import SmallLisp.Proofs.EntryPaths
import SmallLisp.Proofs.Heredity

/-!
# Only documented faults escape

An evaluator takes forms apart and calls functions without asking each time whether the parts and
the arguments are there. In the model such a step ends with a fault of its own when they are not:
`missingPart`, `missingArgument`, `uncallable`, and the two in which a token ends inside an escape.
None of them is ever reached from the texts that are given to a session.

Two arguments meet here:

* `libraryDiscipline`: a program of a session holds no callables but functions with a vector of
  parameters and those of the library. Under this discipline every fault is documented, with one
  exception: the function behind a library transformer may have been called with too few arguments.
* `Value.confined`: these functions stand nowhere but behind their transformers, where they are
  called with the call and its scope. This looks at how values are put together, so it is handed on
  in the sense of `SmallLisp.Proofs.Heredity`. It rules the exception out, since a fault about a
  missing argument speaks of the function that was called.

**`Session.evalText_escapes`**: what escapes from the texts given to a session, and why.
-/

namespace SmallLisp

/-! ## What escapes -/

/-- The kind is one of the five of the language. -/
def FaultKind.OfLanguage : FaultKind → Prop
  | malformed | unbound | mistyped | arity | index => True
  | _ => False

/-- The text has a whole number with more digits than are read. -/
def Reader.HasLongNumeral (source : String) : Prop :=
  ∃ token ∈ (Lexer.scan source).tokens, token.kind = .atom ∧ Atom.TooLong token.text

/-- The kind under which a fault in evaluating a text escapes. -/
inductive Fault.Escapes (source : String) (store : Store) : Fault → FaultKind → Prop
  /-- A fault of the language. -/
  | language {fault : Fault} : fault.kind.OfLanguage → Escapes source store fault fault.kind
  /-- Its words would show a whole number with too many digits. -/
  | unshown {fault : Fault} : fault.kind.OfLanguage →
      fault.words? store = some (.error .longNumeral) → Escapes source store fault .badValue
  /-- Its words would show a scope that binds itself, which never comes to an end. -/
  | endless {fault : Fault} : fault.kind.OfLanguage →
      fault.words? store = some (.error .circular) → Escapes source store fault .tooDeep
  /-- Arithmetic on a whole number beyond the binary64 format. -/
  | overflow {operation : Builtin} {n : Int} : operation ∈ [.add, .sub, .mul, .div] →
      Binary64.Oversized n → Escapes source store (.overflow operation n) .overflow
  /-- A whole number with too many digits was to be printed. -/
  | unprintable : Escapes source store .unprintable .badValue
  /-- A whole number with too many digits was to be read. -/
  | longNumeral : Reader.HasLongNumeral source →
      Escapes source store (.read .longNumeral) .badValue

/-- The faults that a program can end with once it is read. -/
def Fault.Documented : Fault → Prop
  | .overflow operation n => operation.Rounds ∧ Binary64.Oversized n
  | .unprintable => True
  | fault => fault.kind.OfLanguage

theorem Fault.Ordinary.documented {fault : Fault} (h : fault.Ordinary) : fault.Documented := by
  cases fault with
  | bind reason => cases reason <;> first | exact h.elim | exact trivial
  | read | shape | definition | uncallable | missingPart | missingArgument | notRoot => exact h.elim
  | overflow => exact h
  | _ => exact trivial

theorem Fault.documented_shape (form : SpecialForm) (reason : ShapeError) :
    (Fault.shape form reason).Documented := by
  cases reason <;> exact trivial

/-- A fault is reported under its kind, unless what its words show has no text. -/
theorem Fault.escapes_report {source : String} {store : Store} {fault : Fault}
    (h : fault.kind.OfLanguage) :
    fault.Escapes source store (fault.report store).kind := by
  unfold report
  split
  · exact .language h
  · exact .language h
  · exact .unshown h (by assumption)
  · exact .endless h (by assumption)

theorem Fault.Documented.escapes {source : String} {store : Store} {fault : Fault}
    (h : fault.Documented) : fault.Escapes source store (fault.report store).kind := by
  cases fault with
  | overflow operation n => exact .overflow h.1 h.2
  | unprintable => exact .unprintable
  | _ => exact escapes_report h

/-! ## The check -/

/-- All that the check finds is a special form out of shape. -/
theorem Validation.shape_of_walk {bound : String → Bool} {form : Value} {known : List String}
    {fault : Fault} (h : walk bound form known = .error fault) :
    ∃ special reason, fault = .shape special reason := by
  induction hsize : sizeOf form using Nat.strongRecOn generalizing form known with
  | _ size ih =>
    subst hsize
    have hall : ∀ {parts : List Value} {known : List String},
        (∀ part ∈ parts, sizeOf part < sizeOf form) →
        walkAll bound parts known = .error fault →
          ∃ special reason, fault = .shape special reason := by
      intro parts known hlt h
      obtain ⟨part, hpart, known', hwalk⟩ := exists_walk_of_walkAll h
      exact ih _ (hlt part hpart) hwalk rfl
    by_cases hlist : ∃ head operands, form = .list (head :: operands)
    · obtain ⟨head, operands, rfl⟩ := hlist
      cases head with
      | symbol name =>
        cases hname : SpecialForm.ofName? name with
        | some special =>
          cases hcheck : special.check operands with
          | error reason =>
            rw [walk_shape known hname hcheck] at h
            cases h
            exact ⟨special, reason, rfl⟩
          | ok =>
            rw [walk_special known hname hcheck] at h
            exact hall (fun _ => sizeOf_part_lt) h
        | none =>
          rw [walk_name hname] at h
          split at h
          · cases h
          · exact hall (fun _ hpart => sizeOf_item_lt (List.mem_cons_of_mem _ hpart)) h
      | _ => exact hall (fun _ => sizeOf_item_lt) h
    · have hother : ∀ head operands, form ≠ .list (head :: operands) :=
        fun head operands heq => hlist ⟨head, operands, heq⟩
      rw [walk.eq_3 _ _ _ (fun name operands => hother (.symbol name) operands) hother] at h
      cases h

theorem Validation.documented_of_check {bound : String → Bool} {form : Value} {fault : Fault}
    (h : check bound form = .error fault) : fault.Documented := by
  unfold check at h
  cases hwalk : walk bound form [] with
  | ok known =>
    rw [hwalk] at h
    cases h
  | error fault' =>
    rw [hwalk] at h
    cases h
    obtain ⟨special, reason, rfl⟩ := shape_of_walk hwalk
    exact Fault.documented_shape special reason

/-! ## Where the functions behind library transformers stand -/

namespace Value

mutual

/-- The functions behind library transformers stand nowhere in the value but there. -/
def confined : Value → Bool
  | .list items => confinedAll items
  | .vector items => confinedAll items
  | .map entries => confinedEntries entries
  | .function _ params body _ => params.confined && confinedAll body
  | .host _ (.expander _) => false
  | .transformer _ (.host _ _) => true
  | .transformer _ target => target.confined
  | _ => true

/-- The same for several values. -/
def confinedAll : List Value → Bool
  | [] => true
  | value :: values => value.confined && confinedAll values

/-- The same for the keys and values of a map. -/
def confinedEntries : Entries → Bool
  | [] => true
  | (key, value) :: entries => key.confined && (value.confined && confinedEntries entries)

end

theorem confinedAll_iff {values : List Value} :
    confinedAll values = true ↔ ∀ value ∈ values, value.confined = true := by
  induction values with
  | nil => simp [confinedAll]
  | cons value values ih => simp [confinedAll, ih]

theorem confinedEntries_iff {entries : Entries} :
    confinedEntries entries = true ↔
      ∀ entry ∈ entries, entry.1.confined = true ∧ entry.2.confined = true := by
  induction entries with
  | nil => simp [confinedEntries]
  | cons entry entries ih =>
    obtain ⟨key, value⟩ := entry
    simp [confinedEntries, ih, and_assoc]

/-- A program of a session can hold the capability: a function with a vector of parameters, or what
the library offers. -/
def ofLibrary : Value → Bool
  | .function _ (.vector _) _ _ => true
  | .function .. => false
  | .host _ (.probe _) => false
  | .host _ (.invoker _) => false
  | _ => true

end Value

/-- That these functions stand nowhere but behind their transformers is handed on. -/
def confinement : Heredity where
  Holds value := value.confined = true
  nil := rfl
  bool _ := rfl
  number _ := rfl
  str _ := rfl
  symbol _ := rfl
  keyword _ := rfl
  environment _ := rfl
  list := Value.confinedAll_iff
  vector := Value.confinedAll_iff
  map := Value.confinedEntries_iff
  function := by
    intro serial params body home
    rw [← Value.confinedAll_iff, ← Bool.and_eq_true]
    rfl
  transformer := by
    intro serial target htarget
    cases target <;> first | rfl | exact htarget
  target := by
    intro serial target h
    cases target with
    | host number operation =>
      cases operation with
      | expander expander => exact .inr ⟨number, expander, rfl⟩
      | builtin | probe | invoker => exact .inl rfl
    | _ => exact .inl h
  maker := rfl

/-! ## The discipline of a session -/

/-- The fault is that of a function behind a library transformer that lacks an argument. -/
def Fault.LacksArgument (fault : Fault) : Prop :=
  ∃ serial expander, fault = .missingArgument (.host serial (.expander expander))

theorem Expander.documented_of_expand {expander : Expander} {operands : List Value} {fault : Fault}
    (h : expander.expand operands = .error fault) : fault.Documented := by
  have hparts : ∀ {expander : Expander} {fault : Fault},
      expander.parts operands = .error fault → fault.Documented := by
    intro expander fault h
    unfold parts at h
    split at h
    · split at h <;> cases h <;> exact trivial
    · cases h
      exact trivial
  cases expander with
  | remark => cases h
  | defineFunction | defineTransformer =>
    rw [expand] at h
    cases hresult : parts _ operands with
    | error fault' =>
      rw [hresult] at h
      cases h
      exact hparts hresult
    | ok triple =>
      rw [hresult] at h
      cases h

/-- The discipline of a session that offers the library and nothing else. -/
def libraryDiscipline : Discipline where
  Good := Store.Grants [] (Value.Every (·.ofLibrary = true))
  Leads _ _ := True
  Opens _ _ _ := True
  Trusts _ c := c.ofLibrary = true
  Scope _ _ := True
  Code _ form := form.Every (·.ofLibrary = true)
  Allows fault := fault.Documented ∨ fault.LacksArgument
  leads_refl := trivial
  leads_trans _ _ := trivial
  trusts_mono _ h := h
  scope_mono _ _ := trivial
  code_mono _ h := h
  push hgood _ := ⟨hgood.push _, trivial⟩
  opens_leads _ := trivial
  opens_scope _ := trivial
  opens_trans _ _ := trivial
  extend hgood _ _ hvalue := ⟨hgood.write _ fun _ => hvalue, trivial, fun _ hc => hc⟩
  enter hgood _ := ⟨hgood, trivial, trivial⟩
  assign hgood _ hvalue := ⟨hgood.write _ fun _ => hvalue, trivial⟩
  lookup hgood _ _ hlookup := hgood.lookup? (by simp) hlookup
  every_of_code hcode := hcode
  shape _ _ _ := .inl (Fault.documented_shape _ _)
  parts hcode _ _ := SpecialForm.every_of_mem_parts hcode
  call hcode _ := (Value.every_list _).1 hcode
  function _ _ _ _ := rfl
  home h := ⟨trivial, (Value.every_function.1 h).2.2⟩
  application _ _ _ _ := .inl (Fault.documented_shape _ _)
  uncallable := by
    intro s serial params body home htrusts hparams
    cases params with
    | vector patterns => cases hparams
    | _ => cases htrusts
  invoker h := by cases h
  expander _ harguments hexpand := Expander.every_expand hexpand harguments rfl
  expander_fault _ hfault := .inl (Expander.documented_of_expand hfault)
  missing _ := .inr ⟨_, _, rfl⟩
  maker _ _ := rfl
  environment _ _ := rfl
  expansion _ hform _ := hform
  invalid _ hcheck := .inl (Validation.documented_of_check hcheck)
  ordinary h := .inl h.documented

/-! ## Sessions -/

namespace Session

/-- All that is bound is what a session offers, or what programs can make of it. -/
structure Sound (m : Machine) : Prop where
  library : m.store.Grants [] (Value.Every (·.ofLibrary = true))
  confined : m.store.Grants [] (·.confined = true)

theorem sound_fresh (verbose : Bool) : Sound (fresh verbose) := by
  have hbound : ∀ frame ∈ (fresh verbose).store.frames.toList, ∀ var ∈ frame.vars,
      (∀ c ∈ var.2.capabilities, c.ofLibrary = true) ∧ var.2.confined = true := by
    cases verbose <;> decide
  exact ⟨.of_frames fun frame hframe var hvar _ => (hbound frame hframe var hvar).1,
    .of_frames fun frame hframe var hvar _ => (hbound frame hframe var hvar).2⟩

variable {m : Machine} {frame : FrameId} {source : String} {forms : List Value}

/-- The forms of a text are evaluated under the discipline of a session. -/
theorem keeps_evalBody (hm : Sound m) (depth : Nat) (frame : FrameId)
    (hread : Reader.readForms source = .ok forms) :
    libraryDiscipline.Keeps m.store ((Engine.ofDepth depth).evalBody forms frame) m
      libraryDiscipline.Fit :=
  Discipline.keeps_evalBody (libraryDiscipline.respects_ofDepth depth) hm.library trivial
    (Reader.every_of_mem_readForms _ hread)

theorem sound_evalText (hm : Sound m) (depth : Nat) (frame : FrameId) (source : String) :
    Sound ((evalText (.ofDepth depth) frame source).after m) := by
  have hlibrary : ((evalText (.ofDepth depth) frame source).after m).store.Grants []
      (Value.Every (·.ofLibrary = true)) :=
    after_evalText hm.library fun _ hread _ => (keeps_evalBody hm depth frame hread).after.1
  exact ⟨hlibrary, (confinement.handsOn_evalText hm.confined depth frame source).grants⟩

theorem sound_evalAll (hm : Sound m) (depth : Nat) (sources : List String) :
    Sound (evalAll (.ofDepth depth) sources m) :=
  evalAll_preserves hm fun source _ _ hm => sound_evalText hm depth 0 source

/-- A text that is read ends with a documented fault if it ends with one. -/
theorem documented_of_evalText (hm : Sound m) {depth : Nat} {fault : Fault} {m' : Machine}
    (hread : Reader.readForms source = .ok forms)
    (h : evalText (.ofDepth depth) frame source m = .error (.fault fault) m') :
    fault.Documented := by
  have hallows : fault.Documented ∨ fault.LacksArgument := by
    have hrun := h
    rw [evalText_read hread] at hrun
    cases hcheck : Validation.checkAll (m.store.bindsTransformer frame) forms with
    | error fault' =>
      rw [hcheck] at hrun
      cases hrun
      rw [← Validation.check_asProgram] at hcheck
      exact .inl (Validation.documented_of_check hcheck)
    | ok =>
      have hkeeps := keeps_evalBody hm depth frame hread
      rw [hcheck] at hrun
      replace hrun :
          (Engine.ofDepth depth).evalBody forms frame m = .error (.fault fault) m' := hrun
      exact (Run.Ends.of_error hkeeps hrun).2.2 fault rfl
  rcases hallows with hdocumented | ⟨serial, expander, rfl⟩
  · exact hdocumented
  · -- the fault speaks of the function, which no program gets hold of
    have hhands := confinement.handsOn_evalText hm.confined depth frame source
    have hsubject := hhands.fault (.missingArgument (.host serial (.expander expander)))
      (Run.outcome_of_error h) _ rfl
    cases hsubject

/-- **Only documented faults escape.** On a fresh session that offers the library and nothing else,
let any texts be evaluated, one after the other, whether they fail or not. If the next text ends
with a fault, that is one of the five kinds of the language, or it is that of an addition, a
subtraction, a multiplication or a division on a whole number beyond the binary64 format, or it is
that of a whole number with too many digits, which is read or printed. -/
theorem evalText_escapes {verbose : Bool} {depth : Nat} {earlier : List String} {source : String}
    {fault : Fault} {m' : Machine}
    (h : evalText (.ofDepth depth) 0 source (evalAll (.ofDepth depth) earlier (fresh verbose)) =
      .error (.fault fault) m') :
    fault.Escapes source m'.store (fault.report m'.store).kind := by
  have hm := sound_evalAll (sound_fresh verbose) depth earlier
  cases hread : Reader.readForms source with
  | ok forms => exact (documented_of_evalText hm hread h).escapes
  | error reason =>
    rw [evalText_unread hread] at h
    cases h
    rcases Reader.refusal_of_readForms hread with hkind | ⟨rfl, hlong⟩
    · have hlanguage : (Fault.read reason).kind.OfLanguage := by
        show reason.kind.OfLanguage
        rw [hkind]
        exact trivial
      exact Fault.escapes_report hlanguage
    · exact .longNumeral hlong

/-- A transformer made of an operation, which does not count the call and the scope among its
arguments as a function does, ends with a documented fault when it is called. -/
theorem evalText_escapes_operation :
    ∃ fault m', evalText (.ofDepth 12) 0 "(m 1 2)"
        (evalAll (.ofDepth 12) ["(def m (macro first))"] (fresh true)) =
          .error (.fault fault) m' ∧
      fault.kind = .arity ∧
      fault.Escapes "(m 1 2)" m'.store (fault.report m'.store).kind := by
  have harity : ((evalText (.ofDepth 12) 0 "(m 1 2)").fault?
      (evalAll (.ofDepth 12) ["(def m (macro first))"] (fresh true))).any
        (fun fault => fault.kind = .arity) = true := by decide
  obtain ⟨fault, m', hrun, hkind⟩ := Run.exists_fault_of_any harity
  exact ⟨fault, m', hrun, of_decide_eq_true hkind, evalText_escapes hrun⟩

end Session

end SmallLisp
