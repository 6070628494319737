import SmallLisp.Proofs.Discipline
import SmallLisp.Proofs.LibraryForms

/-!
# Evaluation keeps every discipline

One lemma for each function of the evaluator: begun in a good store, with an engine for the inner
calls that respects the discipline, it keeps the discipline. The lemma about a function is proved
from those about the functions that it calls.

* `Discipline.keeps_evalWith`, `Discipline.keeps_applyWith`: one level of evaluation and of
  application.
* **`Discipline.respects_ofDepth`: the engine of every depth respects every discipline.** The
  induction is on the depth.
-/

namespace SmallLisp

namespace Discipline

variable {d : Discipline} {α β : Type} {s s' : Store} {m : Machine}

/-! ## Forms -/

section evaluator

variable {engine : Engine}

/-- Evaluates forms in order. -/
theorem keeps_evalBody (hengine : d.Respects engine) {frame : FrameId} {forms : List Value}
    (hgood : d.Good m.store) (hscope : d.Scope m.store frame)
    (hforms : ∀ form ∈ forms, d.Code m.store form) :
    d.Keeps m.store (engine.evalBody forms frame) m d.Fit := by
  unfold Engine.evalBody
  have hnil : d.Fit m.store .nil := Value.every_nil
  generalize Value.nil = value at hnil ⊢
  induction forms generalizing m value with
  | nil => exact keeps_pure hgood d.leads_refl hnil
  | cons form forms ih =>
    rw [List.forall_mem_cons] at hforms
    rw [List.foldlM_cons]
    apply (hengine.eval hgood hscope hforms.1).bind
    intro value m' hgood' hleads hvalue
    refine Keeps.trans hleads (ih hgood' (d.scope_mono hleads hscope) ?_ value hvalue)
    exact fun form hform => d.code_mono hleads (hforms.2 form hform)

theorem keeps_evalEach (hengine : d.Respects engine) {frame : FrameId} {forms : List Value}
    (hgood : d.Good m.store) (hscope : d.Scope m.store frame)
    (hforms : ∀ form ∈ forms, d.Code m.store form) :
    d.Keeps m.store (engine.evalEach frame forms) m fun s values =>
      ∀ value ∈ values, d.Fit s value := by
  induction forms generalizing m with
  | nil => exact keeps_pure hgood d.leads_refl (by simp)
  | cons form forms ih =>
    rw [List.forall_mem_cons] at hforms
    rw [Engine.evalEach]
    apply (hengine.eval hgood hscope hforms.1).bind
    intro value m' hgood' hleads hvalue
    refine Keeps.trans hleads (Keeps.bind (ih hgood' (d.scope_mono hleads hscope) ?_) ?_)
    · exact fun form hform => d.code_mono hleads (hforms.2 form hform)
    · intro values m'' hgood'' hleads' hvalues
      apply keeps_pure hgood'' hleads'
      rw [List.forall_mem_cons]
      exact ⟨hvalue.mono hleads', hvalues⟩

/-- Evaluates and binds, pair by pair. -/
theorem ends_bindInits (hengine : d.Respects engine) {id : FrameId} {bindings : List Value}
    (heven : bindings.length % 2 = 0) (htargets : Pattern.badTargets? (evens bindings) = none)
    (hgood : d.Good m.store) (hopens : d.Opens s id m.store)
    (hinits : ∀ init ∈ odds bindings, d.Code s init) :
    (engine.bindInits id bindings).Ends m (d.Stops s) fun _ s' =>
      d.Good s' ∧ d.Opens s id s' := by
  induction bindings using evens.induct generalizing m with
  | case1 =>
    rw [Engine.bindInits]
    exact Run.ends_pure ⟨hgood, hopens⟩
  | case2 pattern => simp at heven
  | case3 pattern init bindings ih =>
    rw [evens, Pattern.badTargets?] at htargets
    split at htargets
    · cases htargets
    rename_i htarget
    rw [odds, List.forall_mem_cons] at hinits
    rw [Engine.bindInits]
    have hleads := d.opens_leads hopens
    have heval : (engine.eval init id).Ends m (d.Stops s) (d.Gives m.store d.Fit) :=
      Run.Ends.mono (hengine.eval hgood (d.opens_scope hopens) (d.code_mono hleads hinits.1))
        (fun _ _ hstops => hstops.trans hleads) fun _ _ hgives => hgives
    apply heval.bind
    rintro value m' ⟨hgood', hleads', hvalue⟩
    refine (ends_binds (binds_bind pattern htarget hgood' (d.opens_trans hopens hleads')
      hvalue)).bind ?_
    rintro u m'' ⟨hgood'', hopens''⟩
    have hrest : bindings.length % 2 = 0 := by
      simp only [List.length_cons] at heven
      omega
    exact ih hrest htargets hgood'' hopens'' hinits.2

/-- A frame that is bound is entered, and a body is evaluated in it. -/
theorem keeps_enter (hengine : d.Respects engine) {id : FrameId} {body : List Value}
    (hgood : d.Good m.store) (hopens : d.Opens s id m.store)
    (hbody : ∀ form ∈ body, d.Code s form) :
    d.Keeps s (Run.enter id >>= fun _ => engine.evalBody body id) m d.Fit := by
  obtain ⟨hgood', hleads, hscope⟩ := d.enter hgood hopens
  have henter : d.Keeps s (Run.enter id) m fun s' _ => s' = m.store.enter id :=
    Run.ends_enter ⟨hgood', hleads, rfl⟩
  apply henter.bind
  intro u m' hgood' hleads hstore
  refine Keeps.trans hleads (keeps_evalBody hengine hgood' ?_ ?_)
  · rw [hstore]
    exact hscope
  · exact fun form hform => d.code_mono hleads (hbody form hform)

/-- A frame is made, bound by the given computation and entered. -/
theorem keeps_open (hengine : d.Respects engine) {outer : FrameId} {body : List Value}
    {binding : FrameId → Run Unit} (hgood : d.Good m.store) (hscope : d.Scope m.store outer)
    (hbinding : ∀ id m', d.Good m'.store → d.Opens m.store id m'.store →
      (binding id).Ends m' (d.Stops m.store) fun _ s' => d.Good s' ∧ d.Opens m.store id s')
    (hbody : ∀ form ∈ body, d.Code m.store form) :
    d.Keeps m.store (do
      let id ← Run.push (some outer)
      binding id
      Run.enter id
      engine.evalBody body id) m d.Fit := by
  have hpush : (Run.push (some outer)).Ends m (d.Stops m.store) fun id s' =>
      d.Good s' ∧ d.Opens m.store id s' := Run.ends_push (d.push hgood hscope)
  apply hpush.bind
  rintro id m' ⟨hgood', hopens⟩
  apply (hbinding id m' hgood' hopens).bind
  rintro u m'' ⟨hgood'', hopens'⟩
  exact keeps_enter hengine hgood'' hopens' hbody

theorem keeps_logDefinition {name : String} (hgood : d.Good m.store) (hleads : d.Leads s m.store) :
    d.Keeps s (Engine.logDefinition name) m fun s' _ => s' = m.store := by
  apply Run.ends_bind_get
  split
  · exact Run.ends_logLine ⟨hgood, hleads, rfl⟩
  · exact keeps_pure hgood hleads rfl

/-- Evaluates a special form. -/
theorem keeps_evalSpecial (hengine : d.Respects engine) {head : Value} {form : SpecialForm}
    {operands : List Value} {frame : FrameId} (hgood : d.Good m.store)
    (hscope : d.Scope m.store frame) (hcode : d.Code m.store (.list (head :: operands)))
    (hhead : SpecialForm.ofHead? head = some form) :
    d.Keeps m.store (engine.evalSpecial form operands frame) m d.Fit := by
  cases hcheck : form.check operands with
  | error reason =>
    rw [engine.evalSpecial_of_error hcheck]
    exact keeps_fail hgood d.leads_refl (d.shape hcode hhead hcheck)
  | ok =>
    have hparts := d.parts hcode hhead hcheck
    cases form with
    | quoteForm =>
      obtain ⟨operand, rfl⟩ := SpecialForm.quoteForm_shape hcheck
      simp only [Engine.evalSpecial, hcheck]
      have hfit := (Value.every_list _).1 (d.every_of_code hcode)
      exact keeps_pure hgood d.leads_refl (hfit operand (by simp))
    | ifForm =>
      obtain ⟨test, consequent, alternative, rfl⟩ := SpecialForm.ifForm_shape hcheck
      simp only [Engine.evalSpecial, hcheck]
      simp only [SpecialForm.parts, List.forall_mem_cons] at hparts
      obtain ⟨htest, hconsequent, halternative, -⟩ := hparts
      apply (hengine.eval hgood hscope htest).bind
      intro value m' hgood' hleads _
      have hscope' := d.scope_mono hleads hscope
      split
      · exact Keeps.trans hleads (hengine.eval hgood' hscope' (d.code_mono hleads hconsequent))
      · exact Keeps.trans hleads (hengine.eval hgood' hscope' (d.code_mono hleads halternative))
    | defForm =>
      obtain ⟨name, init, rfl⟩ := SpecialForm.defForm_shape hcheck
      simp only [Engine.evalSpecial, hcheck]
      apply (hengine.eval hgood hscope (hparts init (by simp [SpecialForm.parts]))).bind
      intro value m' hgood' hleads hvalue
      have hdefine : d.Keeps m.store (Run.defineGlobal frame name value) m' fun s' _ =>
          d.Fit s' value := by
        obtain ⟨hgood'', hleads'⟩ := d.assign hgood' (d.scope_mono hleads hscope) hvalue
        exact Run.ends_defineGlobal ⟨hgood'', d.leads_trans hleads hleads', hvalue.mono hleads'⟩
      apply hdefine.bind
      intro u m₂ hgood₂ hleads₂ hvalue₂
      apply (keeps_logDefinition hgood₂ hleads₂).bind
      intro u m₃ hgood₃ hleads₃ hstore
      exact keeps_pure hgood₃ hleads₃ (by rw [hstore]; exact hvalue₂)
    | doForm =>
      simp only [Engine.evalSpecial, hcheck]
      exact keeps_evalBody hengine hgood hscope hparts
    | letForm =>
      obtain ⟨bindings, body, rfl, -, heven, htargets⟩ := SpecialForm.letForm_shape hcheck
      simp only [Engine.evalSpecial, hcheck]
      simp only [SpecialForm.parts, List.forall_mem_append] at hparts
      refine keeps_open hengine hgood hscope ?_ hparts.2
      intro id m' hgood' hopens
      exact ends_bindInits hengine heven htargets hgood' hopens hparts.1
    | fnForm =>
      obtain ⟨params, body, rfl, -, -⟩ := SpecialForm.fnForm_shape hcheck
      simp only [Engine.evalSpecial, hcheck]
      have hfit := (Value.every_list _).1 (d.every_of_code hcode)
      have hserial : d.Keeps m.store Run.nextSerial m fun s' _ => s' = m.store :=
        Run.ends_nextSerial fun _ => ⟨hgood, d.leads_refl, rfl⟩
      apply hserial.bind
      intro serial m' hgood' hleads hstore
      apply keeps_pure hgood' hleads
      rw [hstore]
      refine Value.every_function.2 ⟨d.function hcode hhead hcheck hscope, ?_, ?_⟩
      · exact hfit (.vector params) (by simp)
      · exact fun form hform => hfit form (by simp [hform])

/-! ## Transformers -/

theorem keeps_logExpansion {call expansion : Value} (hgood : d.Good m.store)
    (hleads : d.Leads s m.store) :
    d.Keeps s (Engine.logExpansion call expansion) m fun s' _ => s' = m.store := by
  apply Run.ends_bind_get
  split
  · apply (keeps_print hgood hleads).bind
    intro before m₂ hgood₂ hleads₂ hstore₂
    apply (keeps_print hgood₂ hleads₂).bind
    intro after m₃ hgood₃ hleads₃ hstore₃
    exact Run.ends_logLine ⟨hgood₃, hleads₃, hstore₃.trans hstore₂⟩
  · exact keeps_pure hgood hleads rfl

/-- Applies the target of a transformer to a call. -/
theorem keeps_expandWith (hengine : d.Respects engine) {serial : Nat} {target head : Value}
    {operands : List Value} {frame : FrameId} (hgood : d.Good m.store)
    (hscope : d.Scope m.store frame) (htarget : d.Fit m.store (.transformer serial target))
    (hcall : d.Fit m.store (.list (head :: operands))) :
    d.Keeps m.store (engine.expandWith target (.list (head :: operands)) frame) m d.Fit := by
  obtain ⟨htrusts, htarget⟩ := Value.every_transformer.1 htarget
  have happly : d.Keeps m.store (do
      let expansion ← engine.apply target
        (.list (head :: operands) :: .environment frame :: operands)
      Engine.logExpansion (.list (head :: operands)) expansion
      return expansion) m d.Fit := by
    refine Keeps.bind (hengine.apply hgood htarget ?_) ?_
    · have hparts := (Value.every_list _).1 hcall
      simp only [List.forall_mem_cons] at hparts ⊢
      exact ⟨hcall, Value.every_environment.2 (d.environment htrusts hscope), hparts.2⟩
    · intro expansion m₂ hgood₂ hleads₂ hexpansion
      apply (keeps_logExpansion hgood₂ hleads₂).bind
      intro u m₃ hgood₃ hleads₃ hstore
      exact keeps_pure hgood₃ hleads₃ (by rw [hstore]; exact hexpansion)
  unfold Engine.expandWith
  dsimp only
  split
  · split
    · exact keeps_fail hgood d.leads_refl (d.ordinary trivial)
    · exact happly
  · exact happly

/-- Evaluates a call whose head has been evaluated. -/
theorem keeps_evalCall (hengine : d.Respects engine) {callee head : Value}
    {operands : List Value} {frame : FrameId} (hgood : d.Good m.store)
    (hscope : d.Scope m.store frame) (hcallee : d.Fit m.store callee)
    (hcode : ∀ part ∈ head :: operands, d.Code m.store part) :
    d.Keeps m.store (engine.evalCall callee head operands frame) m d.Fit := by
  have hcall : d.Fit m.store (.list (head :: operands)) :=
    (Value.every_list _).2 fun part hpart => d.every_of_code (hcode part hpart)
  have happly : d.Keeps m.store (do
      let arguments ← engine.evalEach frame operands
      engine.apply callee arguments) m d.Fit := by
    rw [List.forall_mem_cons] at hcode
    apply (keeps_evalEach hengine hgood hscope hcode.2).bind
    intro arguments m' hgood' hleads harguments
    exact Keeps.trans hleads (hengine.apply hgood' (hcallee.mono hleads) harguments)
  cases callee with
  | transformer serial target =>
    rw [Engine.evalCall]
    apply (keeps_expandWith hengine hgood hscope hcallee hcall).bind
    intro expansion m' hgood' hleads hexpansion
    have htrusts := (Value.every_transformer.1 (hcallee.mono hleads)).1
    have hvalidate : d.Keeps m.store (Engine.validate expansion frame) m' fun s' _ =>
        s' = m'.store ∧ d.Code s' expansion := by
      refine Run.ends_bind_store (Run.ends_ofExcept ?_ ?_)
      · intro u hcheck
        exact ⟨hgood', hleads, rfl, d.expansion htrusts hexpansion hcheck⟩
      · intro fault hcheck
        exact stops_fault hgood' hleads (d.invalid htrusts hcheck)
    apply hvalidate.bind
    rintro u m₂ hgood₂ hleads₂ ⟨-, hcode⟩
    exact Keeps.trans hleads₂ (hengine.eval hgood₂ (d.scope_mono hleads₂ hscope) hcode)
  | function | host => exact happly
  | _ => exact keeps_fail hgood d.leads_refl (d.ordinary trivial)

/-- Evaluates a form, given an engine that respects the discipline. -/
theorem keeps_evalWith (hengine : d.Respects engine) {form : Value} {frame : FrameId}
    (hgood : d.Good m.store) (hscope : d.Scope m.store frame) (hcode : d.Code m.store form) :
    d.Keeps m.store (engine.evalWith form frame) m d.Fit := by
  have hself : d.Keeps m.store (pure form) m d.Fit :=
    keeps_pure hgood d.leads_refl (d.every_of_code hcode)
  cases form with
  | symbol name =>
    rw [Engine.evalWith]
    apply Run.ends_bind_store
    split
    · rename_i value hlookup
      exact keeps_pure hgood d.leads_refl (d.lookup hgood hscope hcode hlookup)
    · exact keeps_fail hgood d.leads_refl (d.ordinary trivial)
  | list items =>
    cases items with
    | nil => exact hself
    | cons head operands =>
      rw [Engine.evalWith]
      cases hhead : SpecialForm.ofHead? head with
      | some special => exact keeps_evalSpecial hengine hgood hscope hcode hhead
      | none =>
        have hparts := d.call hcode hhead
        apply (hengine.eval hgood hscope (hparts head List.mem_cons_self)).bind
        intro callee m' hgood' hleads hcallee
        refine Keeps.trans hleads
          (keeps_evalCall hengine hgood' (d.scope_mono hleads hscope) hcallee ?_)
        exact fun part hpart => d.code_mono hleads (hparts part hpart)
  | _ => exact hself

/-! ## Application -/

/-- Applies a function with a body. -/
theorem keeps_applyFunction (hengine : d.Respects engine) {serial : Nat} {params : Value}
    {body patterns arguments : List Value} {home : FrameId} (hgood : d.Good m.store)
    (hcallee : d.Fit m.store (.function serial params body home))
    (hparams : params.elements? = some patterns)
    (harguments : ∀ argument ∈ arguments, d.Fit m.store argument) :
    d.Keeps m.store (engine.applyFunction (.function serial params body home) patterns body home
      arguments) m d.Fit := by
  obtain ⟨hscope, hbody⟩ := d.home hcallee
  by_cases hlength : arguments.length = patterns.length
  · simp only [Engine.applyFunction, ne_eq, hlength, not_true_eq_false, if_false]
    cases hcheck : SpecialForm.letForm.check
        (.vector (Engine.interleave patterns arguments) :: body) with
    | error reason =>
      have htrusts := (Value.every_function.1 hcallee).1
      exact keeps_fail hgood d.leads_refl (d.application htrusts hparams hlength hcheck)
    | ok =>
      obtain ⟨bindings, body', hoperands, -, -, htargets⟩ := SpecialForm.letForm_shape hcheck
      have hbindings := Value.vector.inj (List.cons.inj hoperands).1
      rw [← hbindings, Engine.evens_interleave hlength] at htargets
      refine keeps_open hengine hgood hscope ?_ hbody
      intro id m' hgood' hopens
      refine ends_binds (binds_bindEach patterns htargets hgood' hopens ?_)
      exact fun argument hargument =>
        (harguments argument hargument).mono (d.opens_leads hopens)
  · simp only [Engine.applyFunction, ne_eq, hlength, not_false_eq_true, if_true]
    exact keeps_fail hgood d.leads_refl (d.ordinary trivial)

/-- Applies a callable to a result so far and each item in turn. -/
theorem keeps_foldWith (hengine : d.Respects engine) {callee start : Value} {items : List Value}
    (hgood : d.Good m.store) (hcallee : d.Fit m.store callee) (hstart : d.Fit m.store start)
    (hitems : ∀ item ∈ items, d.Fit m.store item) :
    d.Keeps m.store (engine.foldWith callee start items) m d.Fit := by
  unfold Engine.foldWith
  induction items generalizing m start with
  | nil => exact keeps_pure hgood d.leads_refl hstart
  | cons item items ih =>
    rw [List.forall_mem_cons] at hitems
    rw [List.foldlM_cons]
    refine Keeps.bind (hengine.apply hgood hcallee (by simpa using ⟨hstart, hitems.1⟩)) ?_
    intro result m' hgood' hleads hresult
    refine Keeps.trans hleads (ih hgood' (hcallee.mono hleads) hresult ?_)
    exact fun item hitem => (hitems.2 item hitem).mono hleads

theorem keeps_foldItems {given : Value} (hgood : d.Good m.store) (hgiven : d.Fit m.store given) :
    d.Keeps m.store (Engine.foldItems given) m fun s' items =>
      s' = m.store ∧ ∀ item ∈ items, d.Fit s' item :=
  keeps_ofExcept hgood d.leads_refl
    ((Collection.orderly_items .reduce hgiven).mono fun _ hitems => ⟨rfl, hitems⟩)

/-- Folds a callable over a collection. -/
theorem keeps_reduce (hengine : d.Respects engine) {arguments : List Value}
    (hgood : d.Good m.store) (harguments : ∀ argument ∈ arguments, d.Fit m.store argument) :
    d.Keeps m.store (engine.reduce arguments) m d.Fit := by
  unfold Engine.reduce
  split
  · rename_i callee given
    simp only [List.forall_mem_cons] at harguments
    obtain ⟨hcallee, hgiven, -⟩ := harguments
    apply (keeps_foldItems hgood hgiven).bind
    rintro items m' hgood' hleads ⟨-, hitems⟩
    have hcallee' := hcallee.mono hleads
    split
    · exact Keeps.trans hleads (hengine.apply hgood' hcallee' (by simp))
    · rw [List.forall_mem_cons] at hitems
      exact Keeps.trans hleads (keeps_foldWith hengine hgood' hcallee' hitems.1 hitems.2)
  · rename_i callee start given
    simp only [List.forall_mem_cons] at harguments
    obtain ⟨hcallee, hstart, hgiven, -⟩ := harguments
    apply (keeps_foldItems hgood hgiven).bind
    rintro items m' hgood' hleads ⟨-, hitems⟩
    exact Keeps.trans hleads
      (keeps_foldWith hengine hgood' (hcallee.mono hleads) (hstart.mono hleads) hitems)
  · exact keeps_fail hgood d.leads_refl (d.ordinary trivial)

theorem keeps_concatenate {arguments : List Value} (hgood : d.Good m.store)
    (hleads : d.Leads s m.store) :
    d.Keeps s (Engine.concatenate arguments) m fun _ _ => True := by
  induction arguments generalizing m with
  | nil => exact keeps_pure hgood hleads trivial
  | cons argument arguments ih =>
    rw [Engine.concatenate]
    have hcontribution : d.Keeps s (Engine.contribution argument) m fun _ _ => True := by
      unfold Engine.contribution
      split
      · exact keeps_pure hgood hleads trivial
      · exact keeps_pure hgood hleads trivial
      · exact (keeps_print hgood hleads).mono fun _ _ _ => trivial
    apply hcontribution.bind
    intro text m' hgood' hleads' _
    apply (ih hgood' hleads').bind
    intro rest m'' hgood'' hleads'' _
    exact keeps_pure hgood'' hleads'' trivial

/-- Makes a function a transformer. -/
theorem keeps_makeTransformer {serial : Nat} {arguments : List Value} (hgood : d.Good m.store)
    (hmaker : d.Trusts m.store (.host serial (.builtin .makeTransformer)))
    (harguments : ∀ argument ∈ arguments, d.Fit m.store argument) :
    d.Keeps m.store (Engine.makeTransformer arguments) m d.Fit := by
  unfold Engine.makeTransformer
  split
  · exact keeps_pure hgood d.leads_refl (harguments _ List.mem_cons_self)
  · rename_i target _
    have htarget := harguments target List.mem_cons_self
    split
    · have hserial : d.Keeps m.store Run.nextSerial m fun s' _ => s' = m.store :=
        Run.ends_nextSerial fun _ => ⟨hgood, d.leads_refl, rfl⟩
      apply hserial.bind
      intro serial' m' hgood' hleads hstore
      apply keeps_pure hgood' hleads
      rw [hstore]
      exact Value.every_transformer.2 ⟨d.maker hmaker htarget, htarget⟩
    · exact keeps_fail hgood d.leads_refl (d.ordinary trivial)
  · exact keeps_fail hgood d.leads_refl (d.ordinary trivial)

/-- Carries out an operation. -/
theorem keeps_callBuiltin (hengine : d.Respects engine) {serial : Nat} {operation : Builtin}
    {arguments : List Value} (hgood : d.Good m.store)
    (hcallee : d.Trusts m.store (.host serial (.builtin operation)))
    (harguments : ∀ argument ∈ arguments, d.Fit m.store argument) :
    d.Keeps m.store (engine.callBuiltin operation arguments) m d.Fit := by
  unfold Engine.callBuiltin
  split
  · rename_i compute hplain
    exact keeps_ofExcept hgood d.leads_refl (Builtin.orderly_plain hplain harguments)
  · split
    · exact keeps_reduce hengine hgood harguments
    · apply (keeps_concatenate hgood d.leads_refl).bind
      intro text m' hgood' hleads _
      exact keeps_pure hgood' hleads (Value.every_str text)
    · exact keeps_makeTransformer hgood hcallee harguments
    · exact keeps_pure hgood d.leads_refl Value.every_nil

/-- Does what the operation of a host function says. -/
theorem keeps_callHost (hengine : d.Respects engine) {serial : Nat} {operation : HostOperation}
    {arguments : List Value} (hgood : d.Good m.store)
    (hcallee : d.Trusts m.store (.host serial operation))
    (harguments : ∀ argument ∈ arguments, d.Fit m.store argument) :
    d.Keeps m.store (engine.callHost serial operation arguments) m d.Fit := by
  cases operation with
  | builtin operation => exact keeps_callBuiltin hengine hgood hcallee harguments
  | expander expander =>
    unfold Engine.callHost
    dsimp only
    split
    · simp only [List.forall_mem_cons] at harguments
      refine Run.ends_ofExcept ?_ ?_
      · intro form hform
        exact ⟨hgood, d.leads_refl, d.expander hcallee harguments.2.2 hform⟩
      · intro fault hfault
        exact stops_fault hgood d.leads_refl (d.expander_fault hcallee hfault)
    · exact keeps_fail hgood d.leads_refl (d.missing hcallee)
  | probe name =>
    have hrecord : d.Keeps m.store (Run.record ⟨serial, name, arguments⟩) m fun _ _ => True :=
      Run.ends_record fun _ => ⟨hgood, d.leads_refl, trivial⟩
    apply hrecord.bind
    intro count m' hgood' hleads _
    exact keeps_pure hgood' hleads (Value.every_number _)
  | invoker name =>
    have huncallable : d.Keeps m.store (Run.fail .uncallable) m d.Fit :=
      keeps_fail hgood d.leads_refl (d.invoker hcallee)
    cases arguments with
    | nil => exact huncallable
    | cons callee arguments =>
      rw [List.forall_mem_cons] at harguments
      show d.Keeps m.store (engine.hostCall callee arguments) m d.Fit
      unfold Engine.hostCall
      split
      · exact hengine.apply hgood harguments.1 harguments.2
      · exact huncallable

/-- Applies a callable, given an engine that respects the discipline. -/
theorem keeps_applyWith (hengine : d.Respects engine) {callee : Value} {arguments : List Value}
    (hgood : d.Good m.store) (hcallee : d.Fit m.store callee)
    (harguments : ∀ argument ∈ arguments, d.Fit m.store argument) :
    d.Keeps m.store (engine.applyWith callee arguments) m d.Fit := by
  cases callee with
  | function serial params body home =>
    rw [Engine.applyWith]
    cases hparams : params.elements? with
    | some patterns => exact keeps_applyFunction hengine hgood hcallee hparams harguments
    | none =>
      have htrusts := (Value.every_function.1 hcallee).1
      exact keeps_fail hgood d.leads_refl (d.uncallable htrusts hparams)
  | host serial operation =>
    exact keeps_callHost hengine hgood (Value.every_host.1 hcallee) harguments
  | _ => exact keeps_fail hgood d.leads_refl (d.ordinary trivial)

end evaluator

/-! ## Every depth -/

/-- The engine that gives up at once leaves the store as it is. -/
theorem respects_spent : d.Respects Engine.spent where
  eval hgood _ _ := stops_exhausted hgood d.leads_refl
  apply hgood _ _ := stops_exhausted hgood d.leads_refl

/-- **The engine of every depth respects every discipline.** -/
theorem respects_ofDepth (d : Discipline) (depth : Nat) : d.Respects (.ofDepth depth) := by
  induction depth with
  | zero => exact respects_spent
  | succ depth ih =>
    exact ⟨fun hgood hscope hcode => keeps_evalWith ih hgood hscope hcode,
      fun hgood hcallee harguments => keeps_applyWith ih hgood hcallee harguments⟩

end Discipline

end SmallLisp
