import SmallLisp.Proofs.CoupledEvaluation
import SmallLisp.Proofs.Depth
import SmallLisp.Proofs.LibraryForms
import SmallLisp.Proofs.RemarkedStores

/-!
# Evaluating code that differs in remarks

A remark is evaluated like any other form, and that takes depth: the code with the remark in it may
give up where the code without it does not. So the two runs are not compared at one depth but on an
engine that does not count what a remark takes.

* `Engine.tolerant`: the engine of a depth, with remarks evaluated at a depth that is enough for
  them. It lies between the engines of that depth and of the next one
  (`Engine.extends_tolerant`, `Engine.tolerant_extends`).
* `Remarks.Carries`: an engine that evaluates code that differs in remarks alike, and passes over
  remarks. One lemma for each function of the evaluator that handles code; what works on values only
  is done by `SmallLisp.Proofs.CoupledEvaluation` already.
* **`Remarks.carries_tolerant`: the tolerant engine of every depth does.**
-/

namespace SmallLisp

/-! ## An engine for remarks -/

instance (store : Store) (id : FrameId) (expander : Expander) :
    Decidable (store.MeansLibrary id expander) :=
  decidable_of_iff ((store.lookup? id expander.name).any (·.isLibraryOf expander) = true) (by
    rw [Option.any_eq_true]
    exact Iff.rfl)

namespace Engine

/-- The engine of a depth, but remarks that mean what they mean in the library are evaluated at a
depth of their own. -/
def tolerant : Nat → Engine
  | 0 => spent
  | depth + 1 =>
    { eval := fun form frame => do
        if form.isRemark ∧ (← Run.store).MeansLibrary frame .remark then
          (ofDepth (depth + 2)).eval form frame
        else (tolerant depth).evalWith form frame
      apply := fun callee arguments => (tolerant depth).applyWith callee arguments }

variable {depth : Nat} {form : Value} {frame : FrameId} {m : Machine}

theorem tolerant_eval_remark (h : form.isRemark ∧ m.store.MeansLibrary frame .remark) :
    (tolerant (depth + 1)).eval form frame m = (ofDepth (depth + 2)).eval form frame m := by
  show (if form.isRemark ∧ m.store.MeansLibrary frame .remark then
    (ofDepth (depth + 2)).eval form frame else (tolerant depth).evalWith form frame) m = _
  rw [if_pos h]

theorem tolerant_eval_other (h : ¬(form.isRemark ∧ m.store.MeansLibrary frame .remark)) :
    (tolerant (depth + 1)).eval form frame m = (tolerant depth).evalWith form frame m := by
  show (if form.isRemark ∧ m.store.MeansLibrary frame .remark then
    (ofDepth (depth + 2)).eval form frame else (tolerant depth).evalWith form frame) m = _
  rw [if_neg h]

theorem extends_tolerant (depth : Nat) : (ofDepth depth).Extends (tolerant depth) := by
  induction depth with
  | zero => exact ⟨fun _ _ => .refl _, fun _ _ => .refl _⟩
  | succ depth ih =>
    refine ⟨fun form frame m => ?_, extends_applyWith ih⟩
    by_cases h : form.isRemark ∧ m.store.MeansLibrary frame .remark
    · rw [tolerant_eval_remark h]
      exact (ofDepth_extends (Nat.le_succ (depth + 1))).eval form frame m
    · rw [tolerant_eval_other h]
      exact extends_evalWith ih form frame m

theorem tolerant_extends (depth : Nat) : (tolerant depth).Extends (ofDepth (depth + 1)) := by
  induction depth with
  | zero => exact ofDepth_extends (Nat.zero_le 1)
  | succ depth ih =>
    refine ⟨fun form frame m => ?_, extends_applyWith ih⟩
    by_cases h : form.isRemark ∧ m.store.MeansLibrary frame .remark
    · exact .inr (tolerant_eval_remark h).symm
    · have heq : (tolerant (depth + 1)).eval form frame m = _ := tolerant_eval_other h
      rcases extends_evalWith ih form frame m with ⟨m', hgives⟩ | hstep
      · exact .inl ⟨m', heq.trans hgives⟩
      · exact .inr (hstep.trans heq.symm)

/-- A name is looked up. -/
theorem tolerant_eval_symbol (depth : Nat) (name : String) (frame : FrameId) :
    (tolerant (depth + 1)).eval (.symbol name) frame = Run.lookup frame name := by
  funext m
  exact tolerant_eval_other (by simp [Value.isRemark])

theorem lookup_of_meansLibrary {expander : Expander}
    (h : m.store.MeansLibrary frame expander) :
    ∃ serial number, Run.lookup frame expander.name m =
      .ok (.transformer serial (.host number (.expander expander))) m := by
  obtain ⟨value, hlookup, hlibrary⟩ := h
  obtain ⟨serial, number, rfl⟩ := Value.isLibraryOf_iff.1 hlibrary
  have hstore : Run.store m = .ok m.store m := rfl
  refine ⟨serial, number, ?_⟩
  rw [Run.lookup, Run.bind_ok hstore, hlookup]
  rfl

/-- Logging what has become of a remark changes the log. -/
theorem logExpansion_remark (text : String) (m : Machine) :
    ∃ lines, logExpansion (.remark text) .nil m = .ok () { m with log := lines } := by
  obtain ⟨written, hwritten⟩ : ∃ written, m.store.print .inspect (.remark text) = .ok written :=
    ⟨_, rfl⟩
  have hstore : Run.store m = .ok m.store m := rfl
  have hprint : Run.print .inspect (.remark text) m = .ok written m := by
    rw [Run.print, Run.bind_ok hstore, hwritten]
    rfl
  have hlog : logExpansion (.remark text) .nil m = (if m.verbose then do
      let before ← Run.print .inspect (.remark text)
      let after ← Run.print .inspect .nil
      Run.logLine s!"Expanded {before} -> {after}" else pure () : Run Unit) m := rfl
  rw [hlog]
  split
  · rw [Run.bind_ok hprint]
    exact ⟨_, rfl⟩
  · exact ⟨_, rfl⟩

/-- A remark comes to `nil`, and nothing but the log shows that it has been evaluated. -/
theorem eval_remark (h : m.store.MeansLibrary frame .remark) (text : String) (depth : Nat) :
    ∃ lines, (ofDepth (depth + 2)).eval (.remark text) frame m =
      .ok .nil { m with log := lines } := by
  obtain ⟨serial, number, hlookup⟩ := lookup_of_meansLibrary h
  obtain ⟨lines, hlog⟩ := logExpansion_remark text m
  refine ⟨lines, ?_⟩
  have hexpand : (ofDepth (depth + 1)).expandWith (.host number (.expander .remark))
      (.remark text) frame m = .ok .nil { m with log := lines } := by
    show (do
      logExpansion (.remark text) .nil
      return .nil : Run Value) m = _
    rw [Run.bind_ok hlog]
    rfl
  show (do
    let callee ← Run.lookup frame Expander.remark.name
    (ofDepth (depth + 1)).evalCall callee (.symbol "comment") [.str text] frame : Run Value) m = _
  rw [Run.bind_ok hlookup, evalCall]
  show (do
    let expansion ← (ofDepth (depth + 1)).expandWith (.host number (.expander .remark))
      (.remark text) frame
    validate expansion frame
    (ofDepth (depth + 1)).eval expansion frame : Run Value) m = _
  rw [Run.bind_ok hexpand]
  rfl

end Engine

namespace Remarks

open Pairing
open Value (Resembles)

variable {hidden : List String} {w : Sites} {m m' : Machine} {engine : Engine} {frame : FrameId}

/-- The engine evaluates code that differs in remarks alike, and passes over remarks. -/
structure Carries (hidden : List String) (engine : Engine) : Prop where
  eval : ∀ {w m m' frame form form'}, Twins hidden w m m' →
    Remarked hidden (w.Mem frame) form form' →
    (pairing hidden).Couples w (engine.eval form frame) (engine.eval form' frame) m m'
      (Resembles hidden)
  apply : (pairing hidden).Applies engine
  skip : ∀ {m frame} text, m.store.MeansLibrary frame .remark → engine = .spent ∨
    ∃ lines, engine.eval (.remark text) frame m = .ok .nil { m with log := lines }

/-! ## Sequences of forms -/

/-- What programs hold is no transformer of the library. -/
theorem not_isLibraryOf {value value' : Value} (h : value.Resembles hidden w value')
    (expander : Expander) : ¬value.isLibraryOf expander ∧ ¬value'.isLibraryOf expander := by
  cases h <;> exact ⟨Bool.false_ne_true, Bool.false_ne_true⟩

/-- A name that means the library's transformer on the one side does on the other. -/
theorem meansLibrary_iff (h : Twins hidden w m m') {expander : Expander} :
    m'.store.MeansLibrary frame expander ↔ m.store.MeansLibrary frame expander := by
  have hvalue := h.store.rel_lookup? frame expander.name
  unfold Store.MeansLibrary
  generalize m.store.lookup? frame expander.name = value,
    m'.store.lookup? frame expander.name = value' at hvalue ⊢
  cases hvalue with
  | none => rfl
  | some hvalue =>
    rcases hvalue with hvalue | ⟨rfl, -⟩
    · obtain ⟨hleft, hright⟩ := not_isLibraryOf hvalue expander
      simp [hleft, hright]
    · rfl

/-- Remarks in a row of forms are passed over. What has come of the form before a remark is lost,
and that does not matter, since some form follows. -/
theorem couples_foldlM_strewn (hengine : Carries hidden engine) {p : Prop}
    (hp : p → w.Mem frame) (htwins : Twins hidden w m m') {forms forms' : List Value}
    (hforms : Strewn (Remarked hidden p) p forms forms') {start start' : Value}
    (hstart : forms = [] → start.Resembles hidden w start') :
    (pairing hidden).Couples w (forms.foldlM (fun _ form => engine.eval form frame) start)
      (forms'.foldlM (fun _ form => engine.eval form frame) start') m m' (Resembles hidden) := by
  induction hforms generalizing w m m' start start' with
  | nil => exact couples_pure htwins (hstart rfl)
  | @form form form' forms forms' hform hforms ih =>
    rw [List.foldlM_cons, List.foldlM_cons]
    refine (hengine.eval htwins (hform.imp hp)).bind ?_
    intro w₂ a a' n n' hle htwins₂ ha
    exact ih (fun h => hle _ (hp h)) htwins₂ fun _ => ha
  | @remark text forms forms' hsite hne _ ih =>
    have hmeans := (meansLibrary_iff htwins).2
      (htwins.store.library frame (hp hsite) .remark List.mem_cons_self)
    rcases hengine.skip text hmeans with rfl | ⟨lines, hskip⟩
    · obtain ⟨form, forms, rfl⟩ := List.exists_cons_of_ne_nil hne
      exact couples_exhausted htwins
    · have hnil : forms = [] → start.Resembles hidden w .nil := fun hnil => absurd hnil hne
      have hrest := ih hp (htwins.log m.log lines) hnil
      unfold Pairing.Couples at hrest ⊢
      rw [List.foldlM_cons, Run.bind_ok hskip]
      exact hrest

theorem couples_evalBody (hengine : Carries hidden engine) (htwins : Twins hidden w m m')
    {forms forms' : List Value}
    (hforms : Strewn (Remarked hidden (w.Mem frame)) (w.Mem frame) forms forms') :
    (pairing hidden).Couples w (engine.evalBody forms frame) (engine.evalBody forms' frame) m m'
      (Resembles hidden) :=
  couples_foldlM_strewn hengine id htwins hforms fun _ => .nil

theorem couples_evalEach (hengine : Carries hidden engine) (htwins : Twins hidden w m m')
    {forms forms' : List Value}
    (hforms : forms.Forall₂ (Remarked hidden (w.Mem frame)) forms') :
    (pairing hidden).Couples w (engine.evalEach frame forms) (engine.evalEach frame forms') m m'
      fun w₂ => List.Forall₂ (Resembles hidden w₂) := by
  refine couples_evalEach_of_eval htwins ?_ hforms
  intro w₂ n n' form form' hle htwins₂ hform
  exact hengine.eval htwins₂ (hform.imp (hle frame))

/-! ## Binding -/

mutual

/-- The names of tidy patterns are bound alike. -/
theorem binds_bind {id : FrameId} : ∀ {pattern value value' : Value} {m m' : Machine},
    Twins hidden w m m' → pattern.Tidy hidden → value.Resembles hidden w value' →
    (pairing hidden).Binds w (Pattern.bind id pattern value) (Pattern.bind id pattern value') m m'
  | .symbol name, value, value', m, m', htwins, hpattern, hvalue => by
    rw [Pattern.bind, Pattern.bind]
    refine binds_define_of_twins htwins ?_ ?_
    · have hlocal := htwins.store.rel_local? id name
      rw [htwins.store.isRoot_eq]
      generalize m.store.local? id name = bound, m'.store.local? id name = bound' at hlocal ⊢
      cases hlocal <;> rfl
    · exact htwins.update le_rfl (htwins.store.write id hpattern hvalue _ _) htwins.serial
  | .vector patterns, _, _, _, _, htwins, hpattern, hvalue => by
    rw [Pattern.bind, Pattern.bind]
    rcases like_positions (c := pairing hidden) hvalue with ⟨items, items', hleft, hright, hitems⟩ |
      ⟨reason, reason', hleft, hright, hfault⟩
    · rw [hleft, hright]
      exact binds_bindEach htwins (Value.tidy_vector.1 hpattern) hitems
    · rw [hleft, hright]
      exact binds_throw htwins hfault
  | .nil, _, _, _, _, htwins, h, _ | .bool _, _, _, _, _, htwins, h, _
  | .number _, _, _, _, _, htwins, h, _ | .str _, _, _, _, _, htwins, h, _
  | .keyword _, _, _, _, _, htwins, h, _ | .list _, _, _, _, _, htwins, h, _
  | .map _, _, _, _, _, htwins, h, _ | .function .., _, _, _, _, htwins, h, _
  | .host .., _, _, _, _, htwins, h, _ | .transformer .., _, _, _, _, htwins, h, _
  | .environment _, _, _, _, _, htwins, h, _ =>
    binds_throw htwins (.about rfl (Resembles.self h.clean))

theorem binds_bindEach {id : FrameId} : ∀ {patterns items items' : List Value} {m m' : Machine},
    Twins hidden w m m' → (∀ pattern ∈ patterns, pattern.Tidy hidden) →
    items.Forall₂ (Resembles hidden w) items' →
    (pairing hidden).Binds w (Pattern.bindEach id patterns items)
      (Pattern.bindEach id patterns items') m m'
  | [], _, _, _, _, htwins, _, _ => by
    rw [Pattern.bindEach, Pattern.bindEach]
    exact .ok le_rfl htwins rfl
  | pattern :: patterns, items, items', m, m', htwins, hpatterns, hitems => by
    obtain ⟨hpattern, hrest⟩ := List.forall_mem_cons.1 hpatterns
    rw [Pattern.bindEach, Pattern.bindEach]
    refine (binds_bind htwins hpattern
      ((Resembles.likeness hidden w).head?_getD hitems)).seq ?_
    intro n n' htwins'
    exact binds_bindEach htwins' hrest (Likeness.forall₂_tail hitems)

end

theorem couples_bindInits (hengine : Carries hidden engine) (htwins : Twins hidden w m m')
    {id : FrameId} {p : Prop} (hp : p → w.Mem id) {bindings bindings' : List Value}
    (hbindings : Inits hidden (Remarked hidden p) bindings bindings') :
    (pairing hidden).Couples w (engine.bindInits id bindings) (engine.bindInits id bindings') m m'
      fun _ _ _ => True := by
  induction hbindings generalizing w m m' with
  | nil => exact couples_pure htwins trivial
  | single => exact couples_fail htwins (.same rfl)
  | cons hpattern hinit _ ih =>
    rw [Engine.bindInits, Engine.bindInits]
    refine (hengine.eval htwins (hinit.imp hp)).bind ?_
    intro w₂ value value' n n' hle htwins₂ hvalue
    refine Couples.bind (binds_bind htwins₂ hpattern hvalue) ?_
    rintro w₃ _ _ n n' - htwins₃ rfl
    exact ih htwins₃ fun h => hle _ (hp h)

/-- A frame is made, bound by the given computations and entered; it is a site if it lies in one. -/
theorem couples_open (hengine : Carries hidden engine) (htwins : Twins hidden w m m')
    {outer : FrameId} {body body' : List Value}
    (hbody : Strewn (Remarked hidden (w.Mem outer)) (w.Mem outer) body body')
    {binding binding' : FrameId → Run Unit}
    (hbinding : ∀ w₂ n n' id, w ≤ w₂ → Twins hidden w₂ n n' → (w.Mem outer → w₂.Mem id) →
      (pairing hidden).Couples w₂ (binding id) (binding' id) n n' fun _ _ _ => True) :
    (pairing hidden).Couples w (do
      let id ← Run.push (some outer)
      binding id
      Run.enter id
      engine.evalBody body id) (do
      let id ← Run.push (some outer)
      binding' id
      Run.enter id
      engine.evalBody body' id) m m' (Resembles hidden) := by
  have hpush : (pairing hidden).Couples w (Run.push (some outer)) (Run.push (some outer)) m m'
      fun w₂ id id' => id = id' ∧ (w.Mem outer → w₂.Mem id) := by
    have hle := w.le_grow outer m.store.size
    refine .ok hle (htwins.update hle (htwins.store.push outer) htwins.serial) ?_
    exact ⟨htwins.store.size.symm, fun hsite => .inr ⟨rfl, hsite⟩⟩
  refine hpush.bind ?_
  rintro w₂ id _ n n' hle htwins₂ ⟨rfl, hsite⟩
  refine (hbinding w₂ n n' id hle htwins₂ hsite).bind ?_
  intro w₃ _ _ n n' hle' htwins₃ _
  have henter : (pairing hidden).Couples w₃ (Run.enter id) (Run.enter id) n n'
      fun w₄ _ _ => w₄ = w₃ :=
    .ok le_rfl (htwins₃.update le_rfl (htwins₃.store.enter id) htwins₃.serial) rfl
  refine henter.bind ?_
  rintro w₄ _ _ n n' - htwins₄ rfl
  exact couples_foldlM_strewn hengine (fun h => hle' _ (hsite h)) htwins₄ hbody fun _ => .nil

/-! ## Special forms -/

theorem target_self {patterns : List Value} (h : ∀ pattern ∈ patterns, pattern.Tidy hidden) :
    patterns.Forall₂ (Likeness.Target (Resembles hidden w)) patterns :=
  Likeness.forall₂_target (Resembles.self_each fun pattern hpattern => (h pattern hpattern).clean)

theorem like_of_shaped {special : SpecialForm} {operands : List Value} {reason : ShapeError}
    (h : Likeness.Shaped (Resembles hidden w) special (special.check operands)
      (special.check operands)) (hcheck : special.check operands = .error reason) :
    Fault.Like (Resembles hidden w) (.shape special reason) (.shape special reason) := by
  rw [hcheck] at h
  cases h with
  | error h => exact h

/-- A special form that is out of shape is so for the same reason on both sides. -/
theorem couples_of_check (htwins : Twins hidden w m m') {special : SpecialForm} {head form' : Value}
    {operands operands' : List Value} {p : Prop}
    (hform : Remarked hidden p (.list (head :: operands)) form')
    (hcheck : special.check operands' = special.check operands)
    (hok : special.check operands = .ok () →
      (pairing hidden).Couples w (engine.evalSpecial special operands frame)
        (engine.evalSpecial special operands' frame) m m' (Resembles hidden)) :
    (pairing hidden).Couples w (engine.evalSpecial special operands frame)
      (engine.evalSpecial special operands' frame) m m' (Resembles hidden) := by
  cases hleft : special.check operands with
  | ok => exact hok hleft
  | error reason =>
    have hself := Resembles.self_each (w := w)
      (List.forall_mem_cons.1 (Value.clean_list.1 hform.clean)).2
    rw [engine.evalSpecial_of_error hleft, engine.evalSpecial_of_error (hcheck.trans hleft)]
    refine couples_fail htwins (like_of_shaped ?_ hleft)
    exact (Resembles.likeness hidden w).shaped_check special hself

/-- A choice is made alike, and what is chosen is evaluated alike. -/
theorem couples_choice (hengine : Carries hidden engine) (htwins : Twins hidden w m m')
    {operands operands' : List Value}
    (hoperands : operands.Forall₂ (Remarked hidden (w.Mem frame)) operands') :
    (pairing hidden).Couples w (engine.evalSpecial .ifForm operands frame)
      (engine.evalSpecial .ifForm operands' frame) m m' (Resembles hidden) := by
  refine couples_of_check htwins (.choice hoperands)
    (SpecialForm.check_if_eq hoperands.length_eq) fun hcheck => ?_
  obtain ⟨test, consequent, alternative, rfl⟩ := SpecialForm.ifForm_shape hcheck
  rcases hoperands with _ | ⟨htest, _ | ⟨hconsequent, _ | ⟨halternative, _ | _⟩⟩⟩
  refine (hengine.eval htwins htest).bind ?_
  intro w₂ value value' n n' hle htwins₂ hvalue
  rw [(Resembles.likeness hidden w₂).truthy_eq hvalue]
  split
  · exact hengine.eval htwins₂ (hconsequent.imp (hle frame))
  · exact hengine.eval htwins₂ (halternative.imp (hle frame))

theorem couples_definition (hengine : Carries hidden engine) (htwins : Twins hidden w m m')
    {given : Value} (hgiven : given.Tidy hidden) {operands operands' : List Value}
    (hoperands : operands.Forall₂ (Remarked hidden (w.Mem frame)) operands') :
    (pairing hidden).Couples w (engine.evalSpecial .defForm (given :: operands) frame)
      (engine.evalSpecial .defForm (given :: operands') frame) m m' (Resembles hidden) := by
  refine couples_of_check htwins (.definition hgiven hoperands)
    (SpecialForm.check_def_eq hoperands.length_eq given) fun hcheck => ?_
  obtain ⟨name, init, hshape⟩ := SpecialForm.defForm_shape hcheck
  cases hshape
  rcases hoperands with _ | ⟨hinit, _ | _⟩
  rw [Engine.evalSpecial_def, Engine.evalSpecial_def]
  refine (hengine.eval htwins hinit).bind ?_
  intro w₂ value value' n n' hle htwins₂ hvalue
  have hassign : (pairing hidden).Couples w₂ (Run.defineGlobal frame name value)
      (Run.defineGlobal frame name value') n n' fun w₃ _ _ => w₃ = w₂ := by
    refine .ok le_rfl (htwins₂.update le_rfl ?_ htwins₂.serial) rfl
    rw [htwins₂.store.root_eq]
    exact htwins₂.store.write _ hgiven hvalue _ _
  refine hassign.bind ?_
  rintro w₃ _ _ n n' - htwins₃ rfl
  refine (couples_logDefinition htwins₃ name).bind ?_
  intro w₄ _ _ n n' hle' htwins₄ _
  exact couples_pure htwins₄ (hvalue.mono hle')

/-- A `let` whose right-hand sides and whose body differ in remarks. -/
theorem couples_binding (hengine : Carries hidden engine) (htwins : Twins hidden w m m')
    {bindings bindings' body body' : List Value}
    (hinits : Inits hidden (Remarked hidden (w.Mem frame)) bindings bindings')
    (hbody : Strewn (Remarked hidden (w.Mem frame)) (w.Mem frame) body body') :
    (pairing hidden).Couples w (engine.evalSpecial .letForm (.vector bindings :: body) frame)
      (engine.evalSpecial .letForm (.vector bindings' :: body') frame) m m' (Resembles hidden) := by
  have hequal := SpecialForm.check_let_eq hinits.length_eq hinits.evens_eq hbody.eq_nil_iff
  refine couples_of_check htwins (.binding hinits hbody) hequal fun hcheck => ?_
  simp only [Engine.evalSpecial, hcheck, hequal.trans hcheck]
  refine couples_open hengine htwins hbody ?_
  intro w₂ n n' id hle htwins₂ hsite
  exact couples_bindInits hengine htwins₂ hsite hinits

/-- A `let` without a vector is out of shape, whatever its body. -/
theorem couples_misbinding (engine : Engine) (htwins : Twins hidden w m m') {given : Value}
    {body body' : List Value} (hvector : ∀ bindings, given ≠ .vector bindings)
    (hgiven : given.Tidy hidden)
    (hbody : Strewn (Remarked hidden (w.Mem frame)) (w.Mem frame) body body') :
    (pairing hidden).Couples w (engine.evalSpecial .letForm (given :: body) frame)
      (engine.evalSpecial .letForm (given :: body') frame) m m' (Resembles hidden) :=
  couples_of_check htwins (.misbinding hvector hgiven hbody)
    (SpecialForm.check_misbinding_eq hbody.eq_nil_iff given)
    fun hcheck => absurd hcheck (SpecialForm.misbinding_ne_ok hvector body)

/-- Functions whose bodies differ in remarks are made. -/
theorem couples_function (engine : Engine) (htwins : Twins hidden w m m') {given : Value}
    {body body' : List Value} (hgiven : given.Tidy hidden)
    (hbody : Strewn (Remarked hidden (w.Mem frame)) (w.Mem frame) body body') :
    (pairing hidden).Couples w (engine.evalSpecial .fnForm (given :: body) frame)
      (engine.evalSpecial .fnForm (given :: body') frame) m m' (Resembles hidden) := by
  have hequal := SpecialForm.check_fn_eq hbody.eq_nil_iff given
  refine couples_of_check htwins (.function hgiven hbody) hequal fun hcheck => ?_
  obtain ⟨params, forms, hshape, -⟩ := SpecialForm.fnForm_shape hcheck
  cases hshape
  simp only [Engine.evalSpecial, hcheck, hequal.trans hcheck]
  refine (couples_nextSerial (c := pairing hidden) htwins).bind ?_
  rintro w₂ serial _ n n' hle htwins₂ rfl
  exact couples_pure htwins₂
    (.function (Value.tidy_vector.1 hgiven) (Remarked.strewn_imp (hle frame) hbody))

/-- A tidy special form is evaluated alike, whether it is in shape or not. -/
theorem couples_special (hengine : Carries hidden engine) (htwins : Twins hidden w m m')
    (special : SpecialForm) {head : Value} {operands : List Value}
    (hform : (Value.list (head :: operands)).Tidy hidden)
    (hoperands : ∀ operand ∈ operands, operand.Tidy hidden) :
    (pairing hidden).Couples w (engine.evalSpecial special operands frame)
      (engine.evalSpecial special operands frame) m m' (Resembles hidden) := by
  refine couples_of_check (p := False) htwins (.same hform) rfl fun hcheck => ?_
  cases special with
  | quoteForm =>
    obtain ⟨operand, rfl⟩ := SpecialForm.quoteForm_shape hcheck
    simp only [Engine.evalSpecial, hcheck]
    exact couples_pure htwins (Resembles.self (hoperands operand (by simp)).clean)
  | ifForm => exact couples_choice hengine htwins (Remarked.forall₂_same hoperands)
  | defForm =>
    obtain ⟨name, init, rfl⟩ := SpecialForm.defForm_shape hcheck
    obtain ⟨hname, hinit⟩ := List.forall_mem_cons.1 hoperands
    exact couples_definition hengine htwins hname (Remarked.forall₂_same hinit)
  | doForm => exact couples_evalBody hengine htwins (Remarked.strewn_same hoperands)
  | letForm =>
    obtain ⟨bindings, body, rfl, -⟩ := SpecialForm.letForm_shape hcheck
    obtain ⟨hbindings, hbody⟩ := List.forall_mem_cons.1 hoperands
    exact couples_binding hengine htwins (.same (fun _ => .same) (Value.tidy_vector.1 hbindings))
      (Remarked.strewn_same hbody)
  | fnForm =>
    obtain ⟨params, body, rfl, -⟩ := SpecialForm.fnForm_shape hcheck
    obtain ⟨hparams, hbody⟩ := List.forall_mem_cons.1 hoperands
    exact couples_function engine htwins hparams (Remarked.strewn_same hbody)

/-! ## Calls -/

/-- What code holds is no transformer, so a call of it evaluates its operands. -/
theorem couples_evalCall (hengine : Carries hidden engine) (htwins : Twins hidden w m m')
    {callee callee' : Value} (hcallee : callee.Resembles hidden w callee') (head head' : Value)
    {operands operands' : List Value}
    (hoperands : operands.Forall₂ (Remarked hidden (w.Mem frame)) operands') :
    (pairing hidden).Couples w (engine.evalCall callee head operands frame)
      (engine.evalCall callee' head' operands' frame) m m' (Resembles hidden) := by
  have happly : (pairing hidden).Couples w (do
      let arguments ← engine.evalEach frame operands
      engine.apply callee arguments) (do
      let arguments ← engine.evalEach frame operands'
      engine.apply callee' arguments) m m' (Resembles hidden) := by
    refine (couples_evalEach hengine htwins hoperands).bind ?_
    intro w₂ arguments arguments' n n' hle htwins₂ harguments
    exact hengine.apply htwins₂ (hcallee.mono hle) harguments
  cases hcallee.pairs with
  | transformer => cases hcallee
  | function | host => exact happly
  | _ => exact couples_fail htwins (.about rfl hcallee)

/-- The operands of a `defn` are the same, or their bodies differ in remarks. -/
inductive Defines (hidden : List String) (p : Prop) : List Value → List Value → Prop
  | same {operands : List Value} : (∀ operand ∈ operands, operand.Tidy hidden) →
      Defines hidden p operands operands
  | inBody {name params : Value} {body body' : List Value} : name.Tidy hidden →
      params.Tidy hidden → Strewn (Remarked hidden p) p body body' →
      Defines hidden p (name :: params :: body) (name :: params :: body')

namespace Defines

variable {p : Prop} {operands operands' : List Value}

/-- Where no remarks may be put, the operands are related one by one. -/
theorem forall₂ (h : Defines hidden p operands operands') (hp : ¬p) :
    operands.Forall₂ (Remarked hidden p) operands' := by
  cases h with
  | same htidy => exact Remarked.forall₂_same htidy
  | inBody hname hparams hbody =>
    exact .cons (.same hname) (.cons (.same hparams) (hbody.forall₂ hp))

theorem remarked (h : Defines hidden p operands operands') :
    Remarked hidden p (.list (.symbol "defn" :: operands))
      (.list (.symbol "defn" :: operands')) := by
  cases h with
  | same htidy => exact .same (Value.tidy_list_cons.2 (.inr ⟨.inl rfl, htidy⟩))
  | inBody hname hparams hbody => exact .defn hname hparams hbody

theorem agree_expand_body {name params : Value} {body body' : List Value} (hname : name.Tidy hidden)
    (hparams : params.Tidy hidden) (hbody : Strewn (Remarked hidden p) p body body') :
    Agree (Resembles hidden w) (Remarked hidden p)
      (Expander.defineFunction.expand (name :: params :: body))
      (Expander.defineFunction.expand (name :: params :: body')) := by
  rcases body with _ | ⟨form, body⟩
  · rw [hbody.eq_nil_iff.1 rfl]
    exact .error (.same rfl)
  rcases body' with _ | ⟨form', body'⟩
  · cases hbody.eq_nil_iff.2 rfl
  cases name with
  | symbol name =>
    cases params with
    | vector params => exact .ok (.definition hname (.cons (.function hparams hbody) .nil))
    | _ => exact .error (.about rfl (Resembles.self hparams.clean))
  | _ => exact .error (.about rfl (Resembles.self hname.clean))

/-- The forms that `defn` makes differ in remarks. -/
theorem agree_expand (h : Defines hidden p operands operands') :
    Agree (Resembles hidden w) (Remarked hidden p) (Expander.defineFunction.expand operands)
      (Expander.defineFunction.expand operands') := by
  cases h with
  | inBody hname hparams hbody => exact agree_expand_body hname hparams hbody
  | same htidy =>
    match operands with
    | [] | [_] => exact .error (.same rfl)
    | name :: params :: body =>
      obtain ⟨hname, hrest⟩ := List.forall_mem_cons.1 htidy
      obtain ⟨hparams, hbody⟩ := List.forall_mem_cons.1 hrest
      exact agree_expand_body hname hparams (Remarked.strewn_same hbody)

end Defines

/-- What has been expanded is logged on both sides, if it can be printed; what is logged may differ
in remarks. -/
theorem couples_logExpansion (htwins : Twins hidden w m m') {p : Prop}
    {call call' expansion expansion' : Value} (hcall : Remarked hidden p call call')
    (hexpansion : Remarked hidden p expansion expansion') :
    (pairing hidden).Couples w (Engine.logExpansion call expansion)
      (Engine.logExpansion call' expansion') m m' fun _ _ _ => True := by
  have hprint : ∀ {form form' : Value}, Remarked hidden p form form' → ∀ {w₂ n n'},
      Twins hidden w₂ n n' → (pairing hidden).Couples w₂ (Run.print .inspect form)
        (Run.print .inspect form') n n' fun _ _ _ => True := by
    intro form form' hform w₂ n n' htwins₂
    apply couples_bind_store
    have hends := htwins₂.store.endsLike_print hform .inspect
    generalize n.store.print .inspect form = x, n'.store.print .inspect form' = x' at hends ⊢
    cases hends with
    | ok => exact couples_pure htwins₂ trivial
    | @error reason =>
      cases reason with
      | longNumeral => exact couples_fail htwins₂ (.same rfl)
      | circular => exact couples_exhausted htwins₂
  apply couples_bind_get
  rw [htwins.verbose]
  split
  · refine (hprint hcall htwins).bind ?_
    intro w₂ before before' n n' _ htwins₂ _
    refine (hprint hexpansion htwins₂).bind ?_
    intro w₃ after after' n n' _ htwins₃ _
    exact .ok le_rfl (htwins₃.log _ _) trivial
  · exact couples_pure htwins trivial

/-- Where remarks may be put, the check of a program takes `comment` for a transformer. -/
theorem bindsTransformer_comment (htwins : Twins hidden w m m') (hsite : w.Mem frame) :
    m.store.bindsTransformer frame "comment" = true := by
  obtain ⟨value, hlookup, hlibrary⟩ :=
    htwins.store.library frame hsite .remark List.mem_cons_self
  obtain ⟨serial, number, rfl⟩ := Value.isLibraryOf_iff.1 hlibrary
  unfold Store.bindsTransformer
  rw [show m.store.lookup? frame "comment" = _ from hlookup]

/-- Code that differs in remarks is checked alike. -/
theorem couples_validate (htwins : Twins hidden w m m') {p : Prop} (hp : p → w.Mem frame)
    {form form' : Value} (hform : Remarked hidden p form form') :
    (pairing hidden).Couples w (Engine.validate form frame) (Engine.validate form' frame) m m'
      fun _ _ _ => True := by
  refine couples_validate_of_walk htwins ?_
  rw [htwins.store.bindsTransformer_eq,
    hform.walk_eq fun h => bindsTransformer_comment htwins (hp h)]
  exact (Resembles.likeness hidden w).agree_walk (fun _ _ => rfl) (Resembles.self hform.clean) []

/-! ## Names -/

/-- A name is looked up alike. -/
theorem couples_lookup (htwins : Twins hidden w m m') (name : String) :
    (pairing hidden).Couples w (Run.lookup frame name) (Run.lookup frame name) m m'
      fun w₂ value value' => w₂ = w ∧ m.store.lookup? frame name = some value ∧
        Bound hidden w name value value' := by
  apply couples_bind_store
  have hvalue := htwins.store.rel_lookup? frame name
  generalize m.store.lookup? frame name = value, m'.store.lookup? frame name = value' at hvalue ⊢
  cases hvalue with
  | none => exact couples_fail htwins (.about rfl (.symbol name))
  | some hvalue => exact couples_pure htwins ⟨rfl, rfl, hvalue⟩

/-- The head of a call is a name. -/
theorem couples_eval_symbol (htwins : Twins hidden w m m') (depth : Nat) (name : String) :
    (pairing hidden).Couples w ((Engine.tolerant depth).eval (.symbol name) frame)
      ((Engine.tolerant depth).eval (.symbol name) frame) m m'
      fun w₂ value value' => w₂ = w ∧ m.store.lookup? frame name = some value ∧
        Bound hidden w name value value' := by
  cases depth with
  | zero => exact couples_exhausted htwins
  | succ depth =>
    rw [Engine.tolerant_eval_symbol]
    exact couples_lookup htwins name

/-! ## Definitions -/

/-- The transformer `defn` of the library is called with operands that differ in remarks. -/
theorem couples_define {depth : Nat} (hengine : Carries hidden (.tolerant depth))
    (htwins : Twins hidden w m m') {operands operands' : List Value}
    (hoperands : Defines hidden (w.Mem frame) operands operands') (serial number : Nat) :
    (pairing hidden).Couples w
      ((Engine.tolerant depth).evalCall
        (.transformer serial (.host number (.expander .defineFunction))) (.symbol "defn")
        operands frame)
      ((Engine.tolerant depth).evalCall
        (.transformer serial (.host number (.expander .defineFunction))) (.symbol "defn")
        operands' frame) m m' (Resembles hidden) := by
  cases depth with
  | zero => exact .error le_rfl htwins .exhausted
  | succ depth =>
    have hcall : ∀ operands, (Engine.tolerant (depth + 1)).evalCall
        (.transformer serial (.host number (.expander .defineFunction))) (.symbol "defn")
        operands frame = (do
          let expansion ← Run.ofExcept (Expander.defineFunction.expand operands)
          Engine.logExpansion (.list (.symbol "defn" :: operands)) expansion
          Engine.validate expansion frame
          (Engine.tolerant (depth + 1)).eval expansion frame) := by
      intro operands
      have hexpand : (Engine.tolerant (depth + 1)).expandWith
          (.host number (.expander .defineFunction)) (.list (.symbol "defn" :: operands)) frame =
            (do
              let expansion ← Run.ofExcept (Expander.defineFunction.expand operands)
              Engine.logExpansion (.list (.symbol "defn" :: operands)) expansion
              return expansion) := rfl
      simp only [Engine.evalCall, hexpand, bind_assoc, pure_bind]
    rw [hcall, hcall]
    refine Couples.bind (couples_ofExcept (q := fun _ => Remarked hidden (w.Mem frame)) htwins
      hoperands.agree_expand) ?_
    intro w₂ expansion expansion' n n' hle htwins₂ hexpansion
    refine (couples_logExpansion htwins₂ hoperands.remarked hexpansion).bind ?_
    intro w₃ _ _ n n' hle' htwins₃ _
    have hmem : w.Mem frame → w₃.Mem frame := fun hsite => hle' _ (hle _ hsite)
    refine (couples_validate htwins₃ hmem hexpansion).bind ?_
    intro w₄ _ _ n n' hle'' htwins₄ _
    exact hengine.eval htwins₄ (hexpansion.imp fun hsite => hle'' _ (hmem hsite))

/-- A call of `defn`, whatever the name means. -/
theorem couples_defn {depth : Nat} (hengine : Carries hidden (.tolerant depth))
    (htwins : Twins hidden w m m') {operands operands' : List Value}
    (hoperands : Defines hidden (w.Mem frame) operands operands') :
    (pairing hidden).Couples w
      ((Engine.tolerant depth).evalWith (.list (.symbol "defn" :: operands)) frame)
      ((Engine.tolerant depth).evalWith (.list (.symbol "defn" :: operands')) frame) m m'
      (Resembles hidden) := by
  refine Couples.bind (couples_eval_symbol htwins depth "defn") ?_
  rintro w₂ callee callee' n n' - htwins₂ ⟨rfl, hlookup, hcallee | ⟨rfl, hexempt⟩⟩
  · -- the name has been bound to something else, so this is no site
    have hsite : ¬w₂.Mem frame := by
      intro hsite
      obtain ⟨found, hfound, hlibrary⟩ :=
        htwins.store.library frame hsite .defineFunction (by simp)
      obtain rfl := Option.some.inj (hlookup.symm.trans hfound)
      exact (not_isLibraryOf hcallee _).1 hlibrary
    exact couples_evalCall hengine htwins₂ hcallee _ _ (hoperands.forall₂ hsite)
  · have hlibrary : callee.isLibraryOf .defineFunction = true := hexempt
    obtain ⟨serial, number, rfl⟩ := Value.isLibraryOf_iff.1 hlibrary
    exact couples_define hengine htwins₂ hoperands serial number

/-! ## Evaluation -/

/-- A remark where `comment` has been bound to something else. -/
theorem couples_eval_remark {depth : Nat} (hengine : Carries hidden (.tolerant depth))
    (htwins : Twins hidden w m m') (hother : ¬m.store.MeansLibrary frame .remark) (text : String) :
    (pairing hidden).Couples w ((Engine.tolerant depth).evalWith (.remark text) frame)
      ((Engine.tolerant depth).evalWith (.remark text) frame) m m' (Resembles hidden) := by
  refine Couples.bind (couples_eval_symbol htwins depth "comment") ?_
  rintro w₂ callee callee' n n' - htwins₂ ⟨rfl, hlookup, hcallee | ⟨rfl, hexempt⟩⟩
  · have htext : (Value.str text).Tidy hidden := rfl
    exact couples_evalCall hengine htwins₂ hcallee _ _ (.cons (.same htext) .nil)
  · exact absurd ⟨callee, hlookup, hexempt⟩ hother

theorem couples_call (hengine : Carries hidden engine) (htwins : Twins hidden w m m')
    {head head' : Value} {operands operands' : List Value}
    (hhead : SpecialForm.ofHead? head = none) (hfirst : Remarked hidden (w.Mem frame) head head')
    (hoperands : operands.Forall₂ (Remarked hidden (w.Mem frame)) operands') :
    (pairing hidden).Couples w (engine.evalWith (.list (head :: operands)) frame)
      (engine.evalWith (.list (head' :: operands')) frame) m m' (Resembles hidden) := by
  have hhead' : SpecialForm.ofHead? head' = none := hfirst.ofHead?_eq.trans hhead
  simp only [Engine.evalWith, hhead, hhead']
  refine (hengine.eval htwins hfirst).bind ?_
  intro w₂ callee callee' n n' hle htwins₂ hcallee
  exact couples_evalCall hengine htwins₂ hcallee _ _
    (hoperands.imp fun _ _ hoperand => hoperand.imp (hle frame))

/-- Tidy code is evaluated alike. -/
theorem couples_tidy {depth : Nat} (hengine : Carries hidden (.tolerant depth))
    (htwins : Twins hidden w m m') {form : Value} (hform : form.Tidy hidden)
    (hother : ¬(form.isRemark ∧ m.store.MeansLibrary frame .remark)) :
    (pairing hidden).Couples w ((Engine.tolerant depth).evalWith form frame)
      ((Engine.tolerant depth).evalWith form frame) m m' (Resembles hidden) := by
  cases form with
  | symbol name =>
    refine Couples.mono (couples_lookup htwins name) ?_
    rintro _ value value' _ ⟨rfl, -, hvalue⟩
    exact hvalue.resembles hform
  | list items =>
    cases items with
    | nil => exact couples_pure htwins (Resembles.self hform.clean)
    | cons head operands =>
      rcases Value.tidy_list_cons.1 hform with ⟨text, rfl, rfl⟩ | ⟨rfl | hhead, hoperands⟩
      · exact couples_eval_remark hengine htwins (fun h => hother ⟨rfl, h⟩) text
      · exact couples_defn hengine htwins (.same hoperands)
      · cases hspecial : SpecialForm.ofHead? head with
        | some special =>
          simp only [Engine.evalWith, hspecial]
          exact couples_special hengine htwins special hform hoperands
        | none =>
          exact couples_call hengine htwins hspecial (.same hhead)
            (Remarked.forall₂_same hoperands)
  | _ => exact couples_pure htwins (Resembles.self hform.clean)

/-- One level of evaluation. -/
theorem couples_evalWith {depth : Nat} (hengine : Carries hidden (.tolerant depth))
    (htwins : Twins hidden w m m') {form form' : Value}
    (hform : Remarked hidden (w.Mem frame) form form')
    (hother : ¬(form.isRemark ∧ m.store.MeansLibrary frame .remark)) :
    (pairing hidden).Couples w ((Engine.tolerant depth).evalWith form frame)
      ((Engine.tolerant depth).evalWith form' frame) m m' (Resembles hidden) := by
  cases hform with
  | same htidy => exact couples_tidy hengine htwins htidy hother
  | call hhead hfirst hoperands => exact couples_call hengine htwins hhead hfirst hoperands
  | choice hoperands => exact couples_choice hengine htwins hoperands
  | definition hname hoperands => exact couples_definition hengine htwins hname hoperands
  | sequence hforms => exact couples_evalBody hengine htwins hforms
  | binding hinits hbody => exact couples_binding hengine htwins hinits hbody
  | misbinding hvector hgiven hbody =>
    exact couples_misbinding (.tolerant depth) htwins hvector hgiven hbody
  | function hparams hbody =>
    exact couples_function (.tolerant depth) htwins hparams hbody
  | defn hname hparams hbody => exact couples_defn hengine htwins (.inBody hname hparams hbody)

/-! ## Application -/

/-- A function is called with values that resemble each other. -/
theorem couples_applyFunction (hengine : Carries hidden engine) (htwins : Twins hidden w m m')
    {callee callee' : Value} (hcallee : callee.Resembles hidden w callee')
    {patterns body body' arguments arguments' : List Value} {home : FrameId}
    (hpatterns : ∀ pattern ∈ patterns, pattern.Tidy hidden)
    (hbody : Strewn (Remarked hidden (w.Mem home)) (w.Mem home) body body')
    (harguments : arguments.Forall₂ (Resembles hidden w) arguments') :
    (pairing hidden).Couples w (engine.applyFunction callee patterns body home arguments)
      (engine.applyFunction callee' patterns body' home arguments') m m' (Resembles hidden) := by
  unfold Engine.applyFunction
  rw [← harguments.length_eq]
  by_cases harity : arguments.length = patterns.length
  · have harity' : arguments'.length = patterns.length := harguments.length_eq.symm.trans harity
    rw [if_neg (not_not.2 harity), if_neg (not_not.2 harity),
      SpecialForm.check_let_eq
        ((Engine.length_interleave harity').trans (Engine.length_interleave harity).symm)
        ((Engine.evens_interleave harity').trans (Engine.evens_interleave harity).symm)
        hbody.eq_nil_iff]
    have hshaped := Coupling.shaped_application (Resembles.likeness hidden w)
      (target_self hpatterns) (Eq.refl body.length) harity harity
    cases hcheck : SpecialForm.letForm.check
        (.vector (Engine.interleave patterns arguments) :: body) with
    | error reason => exact couples_fail htwins (like_of_shaped hshaped hcheck)
    | ok =>
      refine couples_open hengine htwins hbody ?_
      intro w₂ n n' id hle htwins₂ _
      refine Couples.mono (binds_bindEach htwins₂ hpatterns ?_) fun _ _ _ _ _ => trivial
      exact harguments.imp fun _ _ hargument => hargument.mono hle
  · rw [if_pos harity, if_pos harity]
    exact couples_fail htwins (.about rfl hcallee)

/-- One level of application. -/
theorem couples_applyWith (hengine : Carries hidden engine) (htwins : Twins hidden w m m')
    {callee callee' : Value} (hcallee : callee.Resembles hidden w callee')
    {arguments arguments' : List Value}
    (harguments : arguments.Forall₂ (Resembles hidden w) arguments') :
    (pairing hidden).Couples w (engine.applyWith callee arguments)
      (engine.applyWith callee' arguments') m m' (Resembles hidden) := by
  cases hcallee.pairs with
  | function serial serial' params =>
    have hfunction := hcallee
    cases hfunction with
    | function hparams hbody =>
      rw [Engine.applyWith, Engine.applyWith]
      cases helements : params.elements? with
      | none => exact couples_fail htwins (.same rfl)
      | some patterns =>
        rw [helements] at hparams
        exact couples_applyFunction hengine htwins hcallee hparams hbody harguments
  | host => exact couples_callHost hengine.apply htwins hcallee harguments
  | _ => exact couples_fail htwins (.about rfl hcallee)

/-! ## Every depth -/

theorem carries_spent : Carries hidden .spent where
  eval htwins _ := couples_exhausted htwins
  apply htwins _ _ := couples_exhausted htwins
  skip _ _ := .inl rfl

/-- **The tolerant engine of every depth carries on over remarks.** -/
theorem carries_tolerant (depth : Nat) : Carries hidden (.tolerant depth) := by
  induction depth with
  | zero => exact carries_spent
  | succ depth ih =>
    refine ⟨?_, fun htwins hcallee harguments => couples_applyWith ih htwins hcallee harguments,
      fun text hmeans => .inr ?_⟩
    · intro w m m' frame form form' htwins hform
      have hequal : form'.isRemark ∧ m'.store.MeansLibrary frame .remark ↔
          form.isRemark ∧ m.store.MeansLibrary frame .remark := by
        rw [hform.isRemark_eq, meansLibrary_iff htwins]
      unfold Pairing.Couples
      by_cases h : form.isRemark ∧ m.store.MeansLibrary frame .remark
      · obtain ⟨hremark', hmeans'⟩ := hequal.2 h
        rw [Engine.tolerant_eval_remark h, Engine.tolerant_eval_remark ⟨hremark', hmeans'⟩]
        obtain ⟨text, rfl⟩ := Value.isRemark_iff.1 h.1
        obtain ⟨text', rfl⟩ := Value.isRemark_iff.1 hremark'
        obtain ⟨lines, hrun⟩ := Engine.eval_remark h.2 text depth
        obtain ⟨lines', hrun'⟩ := Engine.eval_remark hmeans' text' depth
        rw [hrun, hrun']
        exact .ok le_rfl (htwins.log lines lines') .nil
      · rw [Engine.tolerant_eval_other h, Engine.tolerant_eval_other (mt hequal.1 h)]
        exact couples_evalWith ih htwins hform h
    · rw [Engine.tolerant_eval_remark ⟨Value.isRemark_iff.2 ⟨text, rfl⟩, hmeans⟩]
      exact Engine.eval_remark hmeans text depth

/-! ## Programs -/

/-- Programs that differ in remarks are checked alike. -/
theorem couples_validateAll (htwins : Twins hidden w m m') {forms forms' : List Value}
    (hforms : Strewn (Remarked hidden (w.Mem frame)) (w.Mem frame) forms forms') :
    (pairing hidden).Couples w (Session.validateAll frame forms) (Session.validateAll frame forms')
      m m' fun _ _ _ => True := by
  have hcomment : w.Mem frame → m.store.bindsTransformer frame "comment" = true :=
    bindsTransformer_comment htwins
  have hchecked := hforms.imp (fun _ _ hform => hform.walk_eq hcomment) id
  have hself : Agree (Resembles hidden w) Eq
      (Validation.walkAll (m.store.bindsTransformer frame) forms [])
      (Validation.walkAll (m.store.bindsTransformer frame) forms []) :=
    (Resembles.likeness hidden w).agree_walkAll (fun _ _ => rfl)
      (Resembles.self_each (Remarked.clean_strewn hforms)) []
  apply couples_bind_store
  apply couples_ofExcept htwins
  rw [htwins.store.bindsTransformer_eq]
  unfold Validation.checkAll
  rw [Remarked.walkAll_eq_strewn hcomment hchecked]
  generalize Validation.walkAll (m.store.bindsTransformer frame) forms [] = walked at hself ⊢
  cases hself with
  | ok => exact .ok trivial
  | error hfault => exact .error hfault

/-- **Texts that read as programs that differ in remarks are evaluated alike.** -/
theorem couples_evalText (hengine : Carries hidden engine) (htwins : Twins hidden w m m')
    {source source' : String} {forms forms' : List Value}
    (hread : Reader.readForms source = .ok forms) (hread' : Reader.readForms source' = .ok forms')
    (hforms : Strewn (Remarked hidden (w.Mem frame)) (w.Mem frame) forms forms') :
    (pairing hidden).Couples w (Session.evalText engine frame source)
      (Session.evalText engine frame source') m m' (Resembles hidden) := by
  unfold Session.evalText
  rw [hread, hread']
  refine (couples_validateAll htwins hforms).bind ?_
  intro w₂ _ _ n n' hle htwins₂ _
  exact couples_evalBody hengine htwins₂ (Remarked.strewn_imp (hle frame) hforms)

end Remarks

end SmallLisp
