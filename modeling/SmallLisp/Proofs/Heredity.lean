import Mathlib.Order.CompleteBooleanAlgebra
import Mathlib.Order.CompletePartialOrder
import SmallLisp.Proofs.CoupledEvaluation
import SmallLisp.Proofs.Frames
import SmallLisp.Proofs.ShapeSafety

/-!
# What evaluation hands on

A property of values is handed on by evaluation if it goes through the constructors and the library
keeps it: then it holds of all that a run makes out of what has it. That is a coupling of a run with
itself, in which values are related to themselves if they have the property. So nothing about
evaluation has to be proved again, and what couplings say about faults comes for free: what a fault
speaks of has the property too.

Unlike the capabilities of a discipline, such a property can look at how a value is put together. It
need not hold of the target of a library transformer, which no program gets hold of.

* `Heredity`: the property, with what it has to go through.
* `Heredity.coupling`: a run beside itself. It also keeps whether lines are written to the log.
* **`Heredity.coupled`: evaluation hands the property on.**
* `Heredity.HandsOn`: one run hands the property on, to its value, to what its fault speaks of and
  to what is bound behind it; `Heredity.handsOn_eval` and `Heredity.handsOn_evalText` say which runs
  do.
-/

namespace SmallLisp

/-- A property of values that goes through their constructors. -/
structure Heredity where
  /-- The value has the property. -/
  Holds : Value → Prop
  nil : Holds .nil
  bool : ∀ b, Holds (.bool b)
  number : ∀ n, Holds (.number n)
  str : ∀ text, Holds (.str text)
  symbol : ∀ name, Holds (.symbol name)
  keyword : ∀ name, Holds (.keyword name)
  environment : ∀ frame, Holds (.environment frame)
  list : ∀ {items}, Holds (.list items) ↔ ∀ item ∈ items, Holds item
  vector : ∀ {items}, Holds (.vector items) ↔ ∀ item ∈ items, Holds item
  map : ∀ {entries}, Holds (.map entries) ↔ ∀ entry ∈ entries, Holds entry.1 ∧ Holds entry.2
  function : ∀ {serial params body home},
    Holds (.function serial params body home) ↔ Holds params ∧ ∀ form ∈ body, Holds form
  /-- A transformer may be made of what has the property. -/
  transformer : ∀ {serial target}, Holds target → Holds (.transformer serial target)
  /-- The target of a transformer has the property, or stands behind a library transformer. -/
  target : ∀ {serial target}, Holds (.transformer serial target) →
    Holds target ∨ ∃ number expander, target = .host number (.expander expander)
  /-- The operation that the library places into forms has the property. -/
  maker : Holds Expander.transformerMaker

namespace Heredity

variable (h : Heredity)

/-- The values are the same, and have the property. -/
def Same (a a' : Value) : Prop :=
  a = a' ∧ h.Holds a

/-- The machines are the same. Names are bound to values with the property, and lines are written to
the log or not, as given. -/
structure Twins (verbose : Bool) (m m' : Machine) : Prop where
  same : m = m'
  grants : m.store.Grants [] h.Holds
  verbose : m.verbose = verbose

variable {h} {verbose : Bool} {m m' : Machine}

theorem holds_elements? {value : Value} {items : List Value} (hitems : value.elements? = some items)
    (hvalue : h.Holds value) : ∀ item ∈ items, h.Holds item := by
  cases value with
  | list =>
    cases hitems
    exact h.list.1 hvalue
  | vector =>
    cases hitems
    exact h.vector.1 hvalue
  | map entries =>
    cases hitems
    intro item hitem
    obtain ⟨entry, hentry, rfl⟩ := List.mem_map.1 hitem
    exact (h.map.1 hvalue entry hentry).1
  | str text =>
    cases hitems
    intro item hitem
    obtain ⟨c, -, rfl⟩ := List.mem_map.1 hitem
    exact h.str _
  | _ => cases hitems

variable (h)

theorem likeness : Likeness h.Same :=
  likeness_eq_and h.nil h.bool h.number h.str h.list h.vector h.map

variable {h}

mutual

/-- What gives access to nothing has the property. -/
theorem holds_of_every : ∀ value : Value, value.Every (fun _ => False) → h.Holds value
  | .nil, _ => h.nil
  | .bool b, _ => h.bool b
  | .number n, _ => h.number n
  | .str text, _ => h.str text
  | .symbol name, _ => h.symbol name
  | .keyword name, _ => h.keyword name
  | .list items, hvalue => h.list.2 (holds_of_everyAll items ((Value.every_list items).1 hvalue))
  | .vector items, hvalue =>
    h.vector.2 (holds_of_everyAll items ((Value.every_vector items).1 hvalue))
  | .map entries, hvalue =>
    h.map.2 (holds_of_everyEntries entries ((Value.every_map entries).1 hvalue))
  | .function .., hvalue => (Value.every_function.1 hvalue).1.elim
  | .host .., hvalue => (Value.every_host.1 hvalue).elim
  | .transformer .., hvalue => (Value.every_transformer.1 hvalue).1.elim
  | .environment _, hvalue => (Value.every_environment.1 hvalue).elim

theorem holds_of_everyAll : ∀ values : List Value, (∀ value ∈ values, value.Every fun _ => False) →
    ∀ value ∈ values, h.Holds value
  | [], _ => by simp
  | value :: values, hvalues => by
    rw [List.forall_mem_cons] at hvalues ⊢
    exact ⟨holds_of_every value hvalues.1, holds_of_everyAll values hvalues.2⟩

theorem holds_of_everyEntries : ∀ entries : Entries,
    (∀ entry ∈ entries, (entry.1.Every fun _ => False) ∧ entry.2.Every fun _ => False) →
    ∀ entry ∈ entries, h.Holds entry.1 ∧ h.Holds entry.2
  | [], _ => by simp
  | (key, value) :: entries, hentries => by
    rw [List.forall_mem_cons] at hentries ⊢
    exact ⟨⟨holds_of_every key hentries.1.1, holds_of_every value hentries.1.2⟩,
      holds_of_everyEntries entries hentries.2⟩

end

theorem same_of_target {a a' : Value} (htarget : Likeness.Target h.Same a a') : h.Same a a' := by
  rcases htarget with hsame | ⟨name, rfl, rfl⟩
  · exact hsame
  · exact ⟨rfl, h.symbol name⟩

/-- The forms that library transformers make have the property if their operands do. -/
theorem agree_expand (expander : Expander) {operands operands' : List Value}
    (hoperands : operands.Forall₂ h.Same operands') :
    Agree h.Same h.Same (expander.expand operands) (expander.expand operands') := by
  have hparts := h.likeness.agree_parts expander hoperands
  cases expander with
  | remark => exact .ok ⟨rfl, h.nil⟩
  | defineFunction =>
    refine hparts.bind ?_
    rintro ⟨name, params, body⟩ ⟨_, _, _⟩ ⟨rfl, -, hparams, hbody⟩
    obtain ⟨heq, hpatterns⟩ := forall₂_eq_and.1 hparams
    obtain ⟨heq', hforms⟩ := forall₂_eq_and.1 hbody
    cases heq
    cases heq'
    refine .ok ⟨rfl, ?_⟩
    simpa [Expander.defForm, Expander.fnForm, h.list, h.vector, h.symbol] using ⟨hpatterns, hforms⟩
  | defineTransformer =>
    refine hparts.bind ?_
    rintro ⟨name, params, body⟩ ⟨_, _, _⟩ ⟨rfl, -, hparams, hbody⟩
    obtain ⟨heq, hpatterns⟩ := forall₂_eq_and.1 hparams
    obtain ⟨heq', hforms⟩ := forall₂_eq_and.1 hbody
    cases heq
    cases heq'
    refine .ok ⟨rfl, ?_⟩
    simpa [Expander.defForm, Expander.fnForm, h.list, h.vector, h.symbol, h.maker] using
      ⟨hpatterns, hforms⟩

variable (h)

/-- A run beside itself. -/
def coupling (verbose : Bool) : Coupling Unit where
  Like _ := h.Same
  Twins _ := h.Twins verbose
  Scope _ := Eq
  Opens _ := Eq
  Admits _ _ := h.Same
  Fresh _ := Eq
  likeness _ := h.likeness
  like_mono _ hlike := hlike
  scope_mono _ hscope := hscope
  opens_mono _ hopens := hopens
  opens_scope hopens := hopens
  admits_mono _ hadmits := hadmits
  admits_of_like hlike := hlike
  verbose htwins := by rw [htwins.same]
  push htwins hscope := by
    cases htwins.same
    cases hscope
    exact ⟨(), le_rfl, rfl, rfl, htwins.grants.push _, htwins.verbose⟩
  guard htwins hopens name := by
    cases htwins.same
    cases hopens
    rfl
  extend htwins hopens hvalue := by
    cases htwins.same
    cases hopens
    cases hvalue.1
    exact ⟨rfl, htwins.grants.write _ fun _ => hvalue.2, htwins.verbose⟩
  enter htwins hopens := by
    cases htwins.same
    cases hopens
    exact ⟨rfl, htwins.grants, htwins.verbose⟩
  assign htwins hscope _ hvalue := by
    cases htwins.same
    cases hscope
    cases hvalue.1
    exact ⟨rfl, htwins.grants.write _ fun _ => hvalue.2, htwins.verbose⟩
  lookup {w m m' id id' name} htwins hscope _ := by
    cases htwins.same
    cases hscope
    cases hlookup : m.store.lookup? id name with
    | none => exact .none
    | some value => exact .some ⟨rfl, htwins.grants.lookup? (by simp) hlookup⟩
  print htwins hvalue style := by
    rw [htwins.same, hvalue.1]
  serial htwins := by
    cases htwins.same
    exact ⟨(), le_rfl, rfl, rfl, htwins.grants, htwins.verbose⟩
  logLine htwins line := by
    cases htwins.same
    exact ⟨rfl, htwins.grants, htwins.verbose⟩
  record htwins hprobe harguments := by
    cases htwins.same
    cases hprobe.1
    obtain ⟨rfl, -⟩ := forall₂_eq_and.1 harguments
    exact ⟨rfl, rfl, htwins.grants, htwins.verbose⟩
  function hfresh hparams hbody hscope := by
    cases hfresh
    cases hscope
    obtain ⟨rfl, hpatterns⟩ := forall₂_eq_and.1 (hparams.imp fun _ _ => same_of_target)
    obtain ⟨rfl, hforms⟩ := forall₂_eq_and.1 hbody
    exact ⟨rfl, h.function.2 ⟨h.vector.2 hpatterns, hforms⟩⟩
  function_inv {w serial serial' params params' body body' home home'} hlike := by
    obtain ⟨heq, hholds⟩ := hlike
    cases heq
    obtain ⟨hparams, hbody⟩ := h.function.1 hholds
    refine ⟨?_, List.forall₂_same.2 fun form hform => ⟨rfl, hbody form hform⟩, rfl⟩
    cases helements : params.elements? with
    | none => exact .none
    | some patterns =>
      refine .some (List.forall₂_same.2 fun pattern hpattern => .inl ⟨rfl, ?_⟩)
      exact holds_elements? helements hparams pattern hpattern
  transformer hfresh _ htarget := by
    cases hfresh
    cases htarget.1
    exact ⟨rfl, h.transformer htarget.2⟩
  expander _ _ hoperands := agree_expand _ hoperands

/-- Calls of transformers hand the property on: also of those of the library, whose targets do not
have it. -/
theorem transforms (verbose : Bool) : (h.coupling verbose).Transforms := by
  intro depth hengine w m m' serial serial' target target' head head' operands operands' frame
    frame' htwins hscope hcallee hcall
  obtain ⟨heq, hholds⟩ := hcallee
  cases heq
  cases hscope
  refine Coupling.couples_transform hengine htwins rfl hcall rfl ?_
  have hoperands := (List.forall₂_cons.1 hcall).2
  rcases h.target hholds with htarget | ⟨number, expander, rfl⟩
  · exact hengine.apply htwins ⟨rfl, htarget⟩
      (.cons (h.likeness.list hcall) (.cons ⟨rfl, h.environment frame⟩ hoperands))
  · cases depth with
    | zero => exact Pairing.couples_exhausted htwins
    | succ depth => exact Pairing.couples_ofExcept htwins (agree_expand expander hoperands)

/-- **Evaluation hands the property on.** -/
theorem coupled (verbose : Bool) (depth : Nat) : (h.coupling verbose).Coupled (.ofDepth depth) :=
  Coupling.coupled_ofDepth (h.transforms verbose) depth

/-! ## Runs -/

variable {h}

/-- What a fault speaks of has the property. -/
theorem holds_subject {fault fault' : Fault} (hlike : Fault.Like h.Same fault fault') :
    ∀ subject ∈ fault.subject?, h.Holds subject := by
  cases hlike with
  | same hnone =>
    rw [hnone]
    exact fun _ hsubject => nomatch hsubject
  | about hsome hvalue =>
    rw [hsome]
    rintro _ ⟨⟩
    exact hvalue.2

/-- The run hands the property on: to its value, to what its fault speaks of, and to all that is
bound behind it. -/
structure HandsOn (h : Heredity) (run : Run Value) (m : Machine) : Prop where
  grants : (run.after m).store.Grants [] h.Holds
  verbose : (run.after m).verbose = m.verbose
  value : ∀ value, run.outcome m = .ok value → h.Holds value
  fault : ∀ fault, run.outcome m = .error (.fault fault) →
    ∀ subject ∈ fault.subject?, h.Holds subject

theorem handsOn_of_couples {run : Run Value}
    (hrun : (h.coupling m.verbose).Couples () run run m m fun _ => h.Same) : h.HandsOn run m := by
  obtain ⟨_, -, htwins, hends⟩ := hrun.exists_twins
  refine ⟨htwins.grants, htwins.verbose, fun value hvalue => ?_, fun fault hfault => ?_⟩
  · rcases hends with ⟨a, b, ha, -, hsame⟩ | ⟨stop, stop', hstop, -, -⟩
    · rw [hvalue] at ha
      cases ha
      exact hsame.2
    · rw [hvalue] at hstop
      cases hstop
  · rcases hends with ⟨a, b, ha, -, -⟩ | ⟨stop, stop', hstop, -, hlike⟩
    · rw [hfault] at ha
      cases ha
    · rw [hfault] at hstop
      cases hstop
      cases hlike with
      | fault hlike => exact holds_subject hlike

variable (hm : m.store.Grants [] h.Holds)

include hm

theorem handsOn_eval (depth : Nat) (frame : FrameId) {form : Value} (hform : h.Holds form) :
    h.HandsOn ((Engine.ofDepth depth).eval form frame) m :=
  handsOn_of_couples ((h.coupled m.verbose depth).eval ⟨rfl, hm, rfl⟩ rfl ⟨rfl, hform⟩)

/-- The forms of a text have every such property. -/
theorem handsOn_evalText (depth : Nat) (frame : FrameId) (source : String) :
    h.HandsOn (Session.evalText (.ofDepth depth) frame source) m := by
  refine handsOn_of_couples (Coupling.couples_evalText (h.coupled m.verbose depth) ⟨rfl, hm, rfl⟩
    rfl source fun forms hread => List.forall₂_same.2 fun form hform => ⟨rfl, ?_⟩)
  exact holds_of_every form (Reader.every_of_mem_readForms _ hread form hform)

omit hm

/-- The property that every value has. -/
def unconditional : Heredity where
  Holds _ := True
  nil := trivial
  bool _ := trivial
  number _ := trivial
  str _ := trivial
  symbol _ := trivial
  keyword _ := trivial
  environment _ := trivial
  list := by simp
  vector := by simp
  map := by simp
  function := by simp
  transformer _ := trivial
  target _ := .inl trivial
  maker := trivial

/-- Evaluation does not change whether lines are written to the log. -/
theorem verbose_after_eval (depth : Nat) (form : Value) (frame : FrameId) (m : Machine) :
    (((Engine.ofDepth depth).eval form frame).after m).verbose = m.verbose :=
  (unconditional.handsOn_eval (fun _ _ _ _ _ => trivial) depth frame trivial).verbose

end Heredity

end SmallLisp
