import SmallLisp.Proofs.Coupling
import SmallLisp.Proofs.Evaluation
import SmallLisp.Session

/-!
# Evaluation couples

One lemma for each function of the evaluator: begun on related machines, with an engine for the
inner calls that couples, the two runs end in the same way. The lemma about a function is proved
from those about the functions that it calls.

* `Pairing.Applies`: an engine that applies callables alike. Whatever works on values only, and on
  callables through the engine, then couples, whatever forms the two runs evaluate.
* `Coupling.Coupled`: an engine that couples. A function may also be called with values that only
  fit its parameters, which is how transformers call their targets.
* `Coupling.Transforms`: calls of transformers couple. This is the one step that each coupling has
  to answer for itself, since a library transformer makes forms that its operands do not contain.
  `Coupling.couples_transform` does the rest of the work.
* **`Coupling.coupled_ofDepth`: the engine of every depth couples.** The induction is on the depth.
-/

namespace SmallLisp

namespace Pairing

variable {W : Type} [Preorder W] {c : Pairing W} {w : W} {m m' : Machine} {engine : Engine}

/-- The engine applies callables alike on both sides. -/
def Applies (c : Pairing W) (engine : Engine) : Prop :=
  ∀ {w m m' callee callee' arguments arguments'}, c.Twins w m m' →
    c.Like w callee callee' → List.Forall₂ (c.Like w) arguments arguments' →
    c.Couples w (engine.apply callee arguments) (engine.apply callee' arguments') m m' c.Like

/-! ## Sequences -/

/-- Folds with steps that couple. -/
theorem couples_foldlM {f f' : Value → Value → Run Value} {items items' : List Value}
    {start start' : Value} (htwins : c.Twins w m m')
    (hstep : ∀ w₂ n n' a a' item item', w ≤ w₂ → c.Twins w₂ n n' → c.Like w₂ a a' →
      c.Like w₂ item item' → c.Couples w₂ (f a item) (f' a' item') n n' c.Like)
    (hstart : c.Like w start start') (hitems : items.Forall₂ (c.Like w) items') :
    c.Couples w (items.foldlM f start) (items'.foldlM f' start') m m' c.Like := by
  induction items generalizing w m m' items' start start' with
  | nil =>
    cases hitems
    exact couples_pure htwins hstart
  | cons item items ih =>
    obtain ⟨item', items', hitem, hrest, rfl⟩ := List.forall₂_cons_left_iff.1 hitems
    rw [List.foldlM_cons, List.foldlM_cons]
    refine (hstep w m m' start start' item item' le_rfl htwins hstart hitem).bind ?_
    intro w₂ a a' n n' hle htwins' ha
    refine ih htwins' ?_ ha (like_list_mono hle hrest)
    exact fun w₃ n n' a a' item item' hle' => hstep w₃ n n' a a' item item' (hle.trans hle')

/-- Forms are evaluated in order, if from now on related forms are evaluated alike. -/
theorem couples_evalEach_of_eval {S : Value → Value → Prop} {frame frame' : FrameId}
    {forms forms' : List Value} (htwins : c.Twins w m m')
    (heval : ∀ w₂ n n' form form', w ≤ w₂ → c.Twins w₂ n n' → S form form' →
      c.Couples w₂ (engine.eval form frame) (engine.eval form' frame') n n' c.Like)
    (hforms : forms.Forall₂ S forms') :
    c.Couples w (engine.evalEach frame forms) (engine.evalEach frame' forms') m m'
      fun w₂ => List.Forall₂ (c.Like w₂) := by
  induction hforms generalizing w m m' with
  | nil => exact couples_pure htwins .nil
  | @cons form form' forms forms' hform _ ih =>
    rw [Engine.evalEach, Engine.evalEach]
    refine (heval w m m' form form' le_rfl htwins hform).bind ?_
    intro w₂ value value' n n' hle htwins₂ hvalue
    refine (ih htwins₂ fun w₃ n n' form form' hle' =>
      heval w₃ n n' form form' (hle.trans hle')).bind ?_
    intro w₃ values values' n n' hle' htwins₃ hvalues
    exact couples_pure htwins₃ (.cons (c.like_mono hle' hvalue) hvalues)

/-! ## Logging and checking -/

theorem couples_logDefinition (htwins : c.Twins w m m') (name : String) :
    c.Couples w (Engine.logDefinition name) (Engine.logDefinition name) m m'
      fun _ _ _ => True := by
  apply couples_bind_get
  rw [c.verbose htwins]
  split
  · exact couples_logLine htwins _
  · exact couples_pure htwins trivial

/-- An expansion that has the same text on both machines is logged alike. -/
theorem couples_logExpansion (htwins : c.Twins w m m') {call call' expansion expansion' : Value}
    (hcall : c.Like w call call')
    (hexpansion : ∀ {w₂ n n'}, w ≤ w₂ → c.Twins w₂ n n' →
      n.store.print .inspect expansion = n'.store.print .inspect expansion') :
    c.Couples w (Engine.logExpansion call expansion) (Engine.logExpansion call' expansion') m m'
      fun _ _ _ => True := by
  apply couples_bind_get
  rw [c.verbose htwins]
  split
  · refine (couples_print htwins hcall .inspect).bind ?_
    rintro w₂ before _ n n' hle htwins₂ rfl
    refine (couples_print_of_eq htwins₂ (hexpansion hle htwins₂)).bind ?_
    rintro w₃ after _ n n' - htwins₃ rfl
    exact couples_logLine htwins₃ _
  · exact couples_pure htwins trivial

/-- Forms that the walk does not tell apart are checked alike. -/
theorem couples_validate_of_walk (htwins : c.Twins w m m') {frame frame' : FrameId}
    {form form' : Value}
    (hwalk : Agree (c.Like w) Eq (Validation.walk (m.store.bindsTransformer frame) form [])
      (Validation.walk (m'.store.bindsTransformer frame') form' [])) :
    c.Couples w (Engine.validate form frame) (Engine.validate form' frame') m m'
      fun _ _ _ => True := by
  apply couples_bind_store
  apply couples_ofExcept htwins
  unfold Validation.check
  generalize Validation.walk _ form [] = walked, Validation.walk _ form' [] = walked' at hwalk ⊢
  cases hwalk with
  | ok => exact .ok trivial
  | error hfault => exact .error hfault

/-! ## Host functions -/

theorem couples_foldWith (happlies : c.Applies engine) (htwins : c.Twins w m m')
    {callee callee' start start' : Value} {items items' : List Value}
    (hcallee : c.Like w callee callee') (hstart : c.Like w start start')
    (hitems : items.Forall₂ (c.Like w) items') :
    c.Couples w (engine.foldWith callee start items) (engine.foldWith callee' start' items') m m'
      c.Like := by
  refine couples_foldlM htwins ?_ hstart hitems
  intro w₂ n n' result result' item item' hle htwins₂ hresult hitem
  exact happlies htwins₂ (c.like_mono hle hcallee) (.cons hresult (.cons hitem .nil))

theorem couples_foldItems (htwins : c.Twins w m m') {given given' : Value}
    (hgiven : c.Like w given given') :
    c.Couples w (Engine.foldItems given) (Engine.foldItems given') m m'
      fun w₂ items items' => w₂ = w ∧ items.Forall₂ (c.Like w) items' := by
  have hitems := (c.likeness w).agree_items .reduce hgiven
  refine couples_ofExcept htwins ?_
  generalize Collection.items .reduce given = items, Collection.items .reduce given' = items'
    at hitems ⊢
  cases hitems with
  | ok hitems => exact .ok ⟨rfl, hitems⟩
  | error hfault => exact .error hfault

theorem couples_reduce (happlies : c.Applies engine) (htwins : c.Twins w m m')
    {arguments arguments' : List Value} (harguments : arguments.Forall₂ (c.Like w) arguments') :
    c.Couples w (engine.reduce arguments) (engine.reduce arguments') m m' c.Like := by
  rcases harguments with _ | ⟨hcallee, _ | ⟨hsecond, _ | ⟨hthird, _ | ⟨_, hrest⟩⟩⟩⟩
  · exact couples_fail htwins (.same rfl)
  · exact couples_fail htwins (.same rfl)
  · refine (couples_foldItems htwins hsecond).bind ?_
    rintro w₂ items items' n n' - htwins₂ ⟨rfl, hitems⟩
    cases hitems with
    | nil => exact happlies htwins₂ hcallee .nil
    | cons hstart hitems => exact couples_foldWith happlies htwins₂ hcallee hstart hitems
  · refine (couples_foldItems htwins hthird).bind ?_
    rintro w₂ items items' n n' - htwins₂ ⟨rfl, hitems⟩
    exact couples_foldWith happlies htwins₂ hcallee hsecond hitems
  · simp only [Engine.reduce, List.length_cons, hrest.length_eq]
    exact couples_fail htwins (.same rfl)

theorem couples_contribution (htwins : c.Twins w m m') {value value' : Value}
    (hvalue : c.Like w value value') :
    c.Couples w (Engine.contribution value) (Engine.contribution value') m m'
      fun _ text text' => text = text' := by
  cases (c.likeness w).pairs hvalue with
  | nil | str => exact couples_pure htwins rfl
  | _ => exact couples_print htwins hvalue .source

theorem couples_concatenate (htwins : c.Twins w m m') {arguments arguments' : List Value}
    (harguments : arguments.Forall₂ (c.Like w) arguments') :
    c.Couples w (Engine.concatenate arguments) (Engine.concatenate arguments') m m'
      fun _ text text' => text = text' := by
  induction arguments generalizing w m m' arguments' with
  | nil =>
    cases harguments
    exact couples_pure htwins rfl
  | cons argument arguments ih =>
    obtain ⟨argument', arguments', hargument, hrest, rfl⟩ :=
      List.forall₂_cons_left_iff.1 harguments
    rw [Engine.concatenate, Engine.concatenate]
    refine (couples_contribution htwins hargument).bind ?_
    rintro w₂ text _ n n' hle htwins₂ rfl
    refine (ih htwins₂ (like_list_mono hle hrest)).bind ?_
    rintro w₃ rest _ n n' - htwins₃ rfl
    exact couples_pure htwins₃ rfl

theorem couples_makeTransformer (htwins : c.Twins w m m') {maker maker' : Nat}
    (hmaker : c.Like w (.host maker (.builtin .makeTransformer))
      (.host maker' (.builtin .makeTransformer)))
    {arguments arguments' : List Value} (harguments : arguments.Forall₂ (c.Like w) arguments') :
    c.Couples w (Engine.makeTransformer arguments) (Engine.makeTransformer arguments') m m'
      c.Like := by
  rcases harguments with _ | ⟨htarget, _ | ⟨_, hrest⟩⟩
  · exact couples_fail htwins (.same rfl)
  · have hmake : ∀ {target target' : Value}, c.Like w target target' →
        c.Couples w (do return .transformer (← Run.nextSerial) target)
          (do return .transformer (← Run.nextSerial) target') m m' c.Like := by
      intro target target' htarget
      refine (couples_nextSerial htwins).bind ?_
      intro w₂ serial serial' n n' hle htwins₂ hfresh
      exact couples_pure htwins₂
        (c.transformer hfresh (c.like_mono hle hmaker) (c.like_mono hle htarget))
    cases (c.likeness w).pairs htarget with
    | transformer => exact couples_pure htwins htarget
    | function | host => exact hmake htarget
    | _ => exact couples_fail htwins (.about rfl htarget)
  · simp only [Engine.makeTransformer, List.length_cons, hrest.length_eq]
    exact couples_fail htwins (.same rfl)

theorem couples_callBuiltin (happlies : c.Applies engine) (htwins : c.Twins w m m')
    {serial serial' : Nat} {operation : Builtin} {arguments arguments' : List Value}
    (hcallee : c.Like w (.host serial (.builtin operation)) (.host serial' (.builtin operation)))
    (harguments : arguments.Forall₂ (c.Like w) arguments') :
    c.Couples w (engine.callBuiltin operation arguments) (engine.callBuiltin operation arguments')
      m m' c.Like := by
  unfold Engine.callBuiltin
  cases hplain : operation.plain? with
  | some compute => exact couples_ofExcept htwins ((c.likeness w).agree_plain hplain harguments)
  | none =>
    cases operation with
    | reduce => exact couples_reduce happlies htwins harguments
    | str =>
      refine (couples_concatenate htwins harguments).bind ?_
      rintro w₂ text _ n n' - htwins₂ rfl
      exact couples_pure htwins₂ ((c.likeness w₂).str text)
    | makeTransformer => exact couples_makeTransformer htwins hcallee harguments
    | _ => cases hplain

theorem couples_callHost (happlies : c.Applies engine) (htwins : c.Twins w m m')
    {serial serial' : Nat} {operation : HostOperation} {arguments arguments' : List Value}
    (hcallee : c.Like w (.host serial operation) (.host serial' operation))
    (harguments : arguments.Forall₂ (c.Like w) arguments') :
    c.Couples w (engine.callHost serial operation arguments)
      (engine.callHost serial' operation arguments') m m' c.Like := by
  cases operation with
  | builtin operation => exact couples_callBuiltin happlies htwins hcallee harguments
  | expander expander =>
    have hlike : Fault.Like (c.Like w)
        (.missingArgument (.host serial (.expander expander)))
        (.missingArgument (.host serial' (.expander expander))) := .about rfl hcallee
    have hmissing := couples_fail (q := c.Like) htwins hlike
    match harguments with
    | .nil => exact hmissing
    | .cons _ .nil => exact hmissing
    | .cons _ (.cons _ hoperands) =>
      exact couples_ofExcept htwins (c.expander htwins hcallee hoperands)
  | probe name =>
    refine (couples_record htwins hcallee harguments).bind ?_
    rintro w₂ count _ n n' - htwins₂ rfl
    exact couples_pure htwins₂ ((c.likeness w₂).number _)
  | invoker name =>
    cases harguments with
    | nil => exact couples_fail htwins (.same rfl)
    | @cons callee callee' arguments arguments' hcallee harguments =>
      show c.Couples w (engine.hostCall callee arguments) (engine.hostCall callee' arguments') m m'
        c.Like
      unfold Engine.hostCall
      cases (c.likeness w).pairs hcallee with
      | function | host => exact happlies htwins hcallee harguments
      | _ => exact couples_fail htwins (.same rfl)

end Pairing

namespace Coupling

open Pairing

variable {W : Type} [Preorder W] {c : Coupling W} {w : W} {m m' : Machine} {engine : Engine}

/-- The engine evaluates and applies alike on both sides. -/
structure Coupled (c : Coupling W) (engine : Engine) : Prop where
  eval : ∀ {w m m' form form' frame frame'}, c.Twins w m m' → c.Scope w frame frame' →
    c.Like w form form' →
    c.Couples w (engine.eval form frame) (engine.eval form' frame') m m' c.Like
  apply : c.Applies engine
  call : ∀ {w m m' serial serial' params params' body body' home home' patterns patterns'}
    {arguments arguments' : List Value}, c.Twins w m m' →
    c.Like w (.function serial params body home) (.function serial' params' body' home') →
    params.elements? = some patterns → params'.elements? = some patterns' →
    arguments.length = arguments'.length → c.FitsEach w patterns patterns' arguments arguments' →
    c.Couples w (engine.apply (.function serial params body home) arguments)
      (engine.apply (.function serial' params' body' home') arguments') m m' c.Like

/-- The engine evaluates calls of transformers alike on both sides. -/
def TransformsWith (c : Coupling W) (engine : Engine) : Prop :=
  ∀ {w m m' serial serial' target target' head head' operands operands' frame frame'},
    c.Twins w m m' → c.Scope w frame frame' →
    c.Like w (.transformer serial target) (.transformer serial' target') →
    List.Forall₂ (c.Like w) (head :: operands) (head' :: operands') →
    c.Couples w (engine.evalCall (.transformer serial target) head operands frame)
      (engine.evalCall (.transformer serial' target') head' operands' frame') m m' c.Like

/-- Calls of transformers couple at every depth at which everything else does. -/
def Transforms (c : Coupling W) : Prop :=
  ∀ depth, c.Coupled (.ofDepth depth) → c.TransformsWith (.ofDepth depth)

/-! ## Sequences of forms -/

theorem couples_evalBody (hengine : c.Coupled engine) (htwins : c.Twins w m m')
    {frame frame' : FrameId} (hscope : c.Scope w frame frame') {forms forms' : List Value}
    (hforms : forms.Forall₂ (c.Like w) forms') :
    c.Couples w (engine.evalBody forms frame) (engine.evalBody forms' frame') m m' c.Like := by
  refine couples_foldlM htwins ?_ (c.likeness w).nil hforms
  intro w₂ n n' _ _ form form' hle htwins' _ hform
  exact hengine.eval htwins' (c.scope_mono hle hscope) hform

theorem couples_evalEach (hengine : c.Coupled engine) (htwins : c.Twins w m m')
    {frame frame' : FrameId} (hscope : c.Scope w frame frame') {forms forms' : List Value}
    (hforms : forms.Forall₂ (c.Like w) forms') :
    c.Couples w (engine.evalEach frame forms) (engine.evalEach frame' forms') m m'
      fun w₂ => List.Forall₂ (c.Like w₂) := by
  refine couples_evalEach_of_eval htwins ?_ hforms
  intro w₂ n n' form form' hle htwins₂ hform
  exact hengine.eval htwins₂ (c.scope_mono hle hscope) (c.like_mono hle hform)

theorem couples_bindInits (hengine : c.Coupled engine) (htwins : c.Twins w m m')
    {id id' : FrameId} (hopens : c.Opens w id id') {bindings bindings' : List Value}
    (hbindings : bindings.Forall₂ (c.Like w) bindings') :
    c.Couples w (engine.bindInits id bindings) (engine.bindInits id' bindings') m m'
      fun _ _ _ => True := by
  induction bindings using evens.induct generalizing w m m' bindings' with
  | case1 =>
    cases hbindings
    exact couples_pure htwins trivial
  | case2 pattern =>
    obtain ⟨pattern', _, -, hrest, rfl⟩ := List.forall₂_cons_left_iff.1 hbindings
    cases hrest
    exact couples_fail htwins (.same rfl)
  | case3 pattern init bindings ih =>
    obtain ⟨pattern', _, hpattern, hrest, rfl⟩ := List.forall₂_cons_left_iff.1 hbindings
    obtain ⟨init', bindings', hinit, hbehind, rfl⟩ := List.forall₂_cons_left_iff.1 hrest
    rw [Engine.bindInits, Engine.bindInits]
    refine (hengine.eval htwins (c.opens_scope hopens) hinit).bind ?_
    intro w₂ value value' n n' hle htwins₂ hvalue
    have hopens₂ := c.opens_mono hle hopens
    have hfits := fits_of_like (.inl (c.like_mono hle hpattern)) hvalue
    refine Couples.bind (binds_bind hopens₂ pattern htwins₂ hfits) ?_
    rintro w₃ _ _ n n' - htwins₃ rfl
    exact ih htwins₃ hopens₂ (like_list_mono hle hbehind)

/-- Frames are made, bound by the given computations and entered. -/
theorem couples_open (hengine : c.Coupled engine) (htwins : c.Twins w m m')
    {outer outer' : FrameId} (hscope : c.Scope w outer outer') {body body' : List Value}
    (hbody : body.Forall₂ (c.Like w) body') {binding binding' : FrameId → Run Unit}
    (hbinding : ∀ w₂ n n' id id', w ≤ w₂ → c.Twins w₂ n n' → c.Opens w₂ id id' →
      c.Couples w₂ (binding id) (binding' id') n n' fun _ _ _ => True) :
    c.Couples w (do
      let id ← Run.push (some outer)
      binding id
      Run.enter id
      engine.evalBody body id) (do
      let id ← Run.push (some outer')
      binding' id
      Run.enter id
      engine.evalBody body' id) m m' c.Like := by
  refine (couples_push htwins hscope).bind ?_
  intro w₂ id id' n n' hle htwins₂ hopens
  refine (hbinding w₂ n n' id id' hle htwins₂ hopens).bind ?_
  intro w₃ _ _ n n' hle' htwins₃ _
  have hopens₃ := c.opens_mono hle' hopens
  refine (couples_enter htwins₃ hopens₃).bind ?_
  intro w₄ _ _ n n' hle'' htwins₄ _
  refine couples_evalBody hengine htwins₄ (c.opens_scope (c.opens_mono hle'' hopens₃)) ?_
  exact like_list_mono (hle.trans (hle'.trans hle'')) hbody

/-! ## Special forms -/

/-- A definition couples if evaluating what it defines does. -/
theorem couples_evalDef {frame frame' : FrameId}
    (hscope : c.Scope w frame frame') {name : String}
    (hname : c.Like w (.symbol name) (.symbol name)) {init init' : Value}
    (hinit : c.Couples w (engine.eval init frame) (engine.eval init' frame') m m' c.Like) :
    c.Couples w (engine.evalSpecial .defForm [.symbol name, init] frame)
      (engine.evalSpecial .defForm [.symbol name, init'] frame') m m' c.Like := by
  refine hinit.bind ?_
  intro w₂ value value' n n' hle htwins₂ hvalue
  refine (couples_defineGlobal htwins₂ (c.scope_mono hle hscope) (c.like_mono hle hname)
    hvalue).bind ?_
  intro w₃ _ _ n n' hle' htwins₃ _
  refine (couples_logDefinition htwins₃ name).bind ?_
  intro w₄ _ _ n n' hle'' htwins₄ _
  exact couples_pure htwins₄ (c.like_mono (hle'.trans hle'') hvalue)

/-- Functions with related bodies are made. -/
theorem couples_evalFn (htwins : c.Twins w m m') {frame frame' : FrameId}
    (hscope : c.Scope w frame frame') {params params' body body' : List Value}
    (hparams : params.Forall₂ (Likeness.Target (c.Like w)) params')
    (hbody : body.Forall₂ (c.Like w) body') :
    c.Couples w (engine.evalSpecial .fnForm (.vector params :: body) frame)
      (engine.evalSpecial .fnForm (.vector params' :: body') frame') m m'
      fun w₂ value value' => c.Like w₂ value value' ∧
        ∃ serial, value = .function serial (.vector params) body frame := by
  have hcheck := (c.likeness w).shaped_fn hparams hbody.length_eq
  generalize hleft : SpecialForm.fnForm.check (.vector params :: body) = checked,
    hright : SpecialForm.fnForm.check (.vector params' :: body') = checked' at hcheck
  cases hcheck with
  | error hfault =>
    simp only [Engine.evalSpecial, hleft, hright]
    exact couples_fail htwins hfault
  | ok =>
    simp only [Engine.evalSpecial, hleft, hright]
    refine (couples_nextSerial htwins).bind ?_
    intro w₂ serial serial' n n' hle htwins₂ hfresh
    refine couples_pure htwins₂ ⟨c.function hfresh ?_ (like_list_mono hle hbody)
      (c.scope_mono hle hscope), serial, rfl⟩
    exact hparams.imp fun _ _ hparam => target_mono hle hparam

theorem couples_evalSpecial (hengine : c.Coupled engine) (htwins : c.Twins w m m')
    {frame frame' : FrameId} (hscope : c.Scope w frame frame') (form : SpecialForm)
    {operands operands' : List Value} (hoperands : operands.Forall₂ (c.Like w) operands') :
    c.Couples w (engine.evalSpecial form operands frame) (engine.evalSpecial form operands' frame')
      m m' c.Like := by
  have hlike := c.likeness w
  have hcheck := hlike.shaped_check form hoperands
  generalize hleft : form.check operands = checked, hright : form.check operands' = checked'
    at hcheck
  cases hcheck with
  | error hfault =>
    rw [engine.evalSpecial_of_error hleft, engine.evalSpecial_of_error hright]
    exact couples_fail htwins hfault
  | ok =>
    cases form with
    | quoteForm =>
      obtain ⟨operand, rfl⟩ := SpecialForm.quoteForm_shape hleft
      obtain ⟨operand', _, hoperand, hnil, rfl⟩ := List.forall₂_cons_left_iff.1 hoperands
      cases hnil
      simp only [Engine.evalSpecial, hleft, hright]
      exact couples_pure htwins hoperand
    | ifForm =>
      obtain ⟨test, consequent, alternative, rfl⟩ := SpecialForm.ifForm_shape hleft
      obtain ⟨test', _, htest, hrest, rfl⟩ := List.forall₂_cons_left_iff.1 hoperands
      obtain ⟨consequent', _, hconsequent, hlast, rfl⟩ := List.forall₂_cons_left_iff.1 hrest
      obtain ⟨alternative', _, halternative, hnil, rfl⟩ := List.forall₂_cons_left_iff.1 hlast
      cases hnil
      simp only [Engine.evalSpecial, hleft, hright]
      refine (hengine.eval htwins hscope htest).bind ?_
      intro w₂ value value' n n' hle htwins₂ hvalue
      rw [(c.likeness w₂).truthy_eq hvalue]
      have hscope₂ := c.scope_mono hle hscope
      split
      · exact hengine.eval htwins₂ hscope₂ (c.like_mono hle hconsequent)
      · exact hengine.eval htwins₂ hscope₂ (c.like_mono hle halternative)
    | defForm =>
      obtain ⟨name, init, rfl⟩ := SpecialForm.defForm_shape hleft
      obtain ⟨_, _, hname, hrest, rfl⟩ := List.forall₂_cons_left_iff.1 hoperands
      obtain ⟨init', _, hinit, hnil, rfl⟩ := List.forall₂_cons_left_iff.1 hrest
      cases hnil
      cases hlike.pairs hname
      exact couples_evalDef hscope hname (hengine.eval htwins hscope hinit)
    | doForm =>
      simp only [Engine.evalSpecial, hleft, hright]
      exact couples_evalBody hengine htwins hscope hoperands
    | letForm =>
      obtain ⟨bindings, body, rfl, -, -, -⟩ := SpecialForm.letForm_shape hleft
      obtain ⟨_, body', hvector, hbody, rfl⟩ := List.forall₂_cons_left_iff.1 hoperands
      cases hlike.pairs hvector with
      | vector hbindings =>
        simp only [Engine.evalSpecial, hleft, hright]
        refine couples_open hengine htwins hscope hbody ?_
        intro w₂ n n' id id' hle htwins₂ hopens
        exact couples_bindInits hengine htwins₂ hopens (like_list_mono hle hbindings)
    | fnForm =>
      obtain ⟨params, body, rfl, -, -⟩ := SpecialForm.fnForm_shape hleft
      obtain ⟨_, body', hvector, hbody, rfl⟩ := List.forall₂_cons_left_iff.1 hoperands
      cases hlike.pairs hvector with
      | vector hparams =>
        exact (couples_evalFn htwins hscope (Likeness.forall₂_target hparams) hbody).mono
          fun _ _ _ _ hvalue => hvalue.1

/-! ## Transformers -/

theorem couples_validate (htwins : c.Twins w m m') {frame frame' : FrameId}
    (hscope : c.Scope w frame frame') {form form' : Value} (hform : c.Like w form form') :
    c.Couples w (Engine.validate form frame) (Engine.validate form' frame') m m'
      fun _ _ _ => True :=
  couples_validate_of_walk htwins ((c.likeness w).agree_walk
    (fun _ hname => bindsTransformer_eq htwins hscope hname) hform [])

/-- A call of a transformer couples if applying its target does. -/
theorem couples_transform (hengine : c.Coupled engine) (htwins : c.Twins w m m')
    {serial serial' : Nat} {target target' head head' : Value} {operands operands' : List Value}
    {frame frame' : FrameId} (hscope : c.Scope w frame frame')
    (hcall : List.Forall₂ (c.Like w) (head :: operands) (head' :: operands'))
    (hpatterns : target.patterns?.map List.length = target'.patterns?.map List.length)
    (happly : c.Couples w
      (engine.apply target (.list (head :: operands) :: .environment frame :: operands))
      (engine.apply target' (.list (head' :: operands') :: .environment frame' :: operands'))
      m m' c.Like) :
    c.Couples w (engine.evalCall (.transformer serial target) head operands frame)
      (engine.evalCall (.transformer serial' target') head' operands' frame') m m' c.Like := by
  have hlist := (c.likeness w).list hcall
  obtain ⟨hhead, hoperands⟩ := List.forall₂_cons.1 hcall
  have hexpand : c.Couples w (engine.expandWith target (.list (head :: operands)) frame)
      (engine.expandWith target' (.list (head' :: operands')) frame') m m' c.Like := by
    have hrest : c.Couples w (do
        let expansion ←
          engine.apply target (.list (head :: operands) :: .environment frame :: operands)
        Engine.logExpansion (.list (head :: operands)) expansion
        return expansion) (do
        let expansion ←
          engine.apply target' (.list (head' :: operands') :: .environment frame' :: operands')
        Engine.logExpansion (.list (head' :: operands')) expansion
        return expansion) m m' c.Like := by
      refine happly.bind ?_
      intro w₂ expansion expansion' n n' hle htwins₂ hexpansion
      refine (couples_logExpansion htwins₂ (c.like_mono hle hlist) fun hle' htwins' =>
        c.print htwins' (c.like_mono hle' hexpansion) _).bind ?_
      intro w₃ _ _ n n' hle' htwins₃ _
      exact couples_pure htwins₃ (c.like_mono hle' hexpansion)
    unfold Engine.expandWith
    dsimp only [Value.sequence?, Option.getD_some, List.tail_cons]
    generalize target.patterns? = patterns, target'.patterns? = patterns' at hpatterns ⊢
    cases patterns with
    | none =>
      cases patterns' with
      | none => exact hrest
      | some patterns' => cases hpatterns
    | some patterns =>
      cases patterns' with
      | none => cases hpatterns
      | some patterns' =>
        have hlength : patterns.length = patterns'.length := Option.some.inj hpatterns
        dsimp only
        rw [hlength, hoperands.length_eq]
        split
        · exact couples_fail htwins (.about rfl hhead)
        · exact hrest
  refine hexpand.bind ?_
  intro w₂ expansion expansion' n n' hle htwins₂ hexpansion
  have hscope₂ := c.scope_mono hle hscope
  refine (couples_validate htwins₂ hscope₂ hexpansion).bind ?_
  intro w₃ _ _ n n' hle' htwins₃ _
  exact hengine.eval htwins₃ (c.scope_mono hle' hscope₂) (c.like_mono hle' hexpansion)

/-! ## Evaluation -/

theorem couples_evalCall (hengine : c.Coupled engine) (htransforms : c.TransformsWith engine)
    (htwins : c.Twins w m m') {callee callee' head head' : Value} {operands operands' : List Value}
    {frame frame' : FrameId} (hscope : c.Scope w frame frame') (hcallee : c.Like w callee callee')
    (hcall : List.Forall₂ (c.Like w) (head :: operands) (head' :: operands')) :
    c.Couples w (engine.evalCall callee head operands frame)
      (engine.evalCall callee' head' operands' frame') m m' c.Like := by
  have happly : c.Couples w (do
      let arguments ← engine.evalEach frame operands
      engine.apply callee arguments) (do
      let arguments ← engine.evalEach frame' operands'
      engine.apply callee' arguments) m m' c.Like := by
    refine (couples_evalEach hengine htwins hscope (List.forall₂_cons.1 hcall).2).bind ?_
    intro w₂ arguments arguments' n n' hle htwins₂ harguments
    exact hengine.apply htwins₂ (c.like_mono hle hcallee) harguments
  cases (c.likeness w).pairs hcallee with
  | transformer => exact htransforms htwins hscope hcallee hcall
  | function | host => exact happly
  | _ => exact couples_fail htwins (.about rfl hcallee)

/-- One level of evaluation. -/
theorem couples_evalWith (hengine : c.Coupled engine) (htransforms : c.TransformsWith engine)
    (htwins : c.Twins w m m') {form form' : Value} {frame frame' : FrameId}
    (hscope : c.Scope w frame frame') (hform : c.Like w form form') :
    c.Couples w (engine.evalWith form frame) (engine.evalWith form' frame') m m' c.Like := by
  cases (c.likeness w).pairs hform with
  | symbol name => exact couples_lookup htwins hscope hform
  | list hitems =>
    cases hitems with
    | nil => exact couples_pure htwins hform
    | @cons head head' operands operands' hhead hoperands =>
      rw [Engine.evalWith, Engine.evalWith, ← (c.likeness w).ofHead?_eq hhead]
      cases SpecialForm.ofHead? head with
      | some special => exact couples_evalSpecial hengine htwins hscope special hoperands
      | none =>
        refine (hengine.eval htwins hscope hhead).bind ?_
        intro w₂ callee callee' n n' hle htwins₂ hcallee
        exact couples_evalCall hengine htransforms htwins₂ (c.scope_mono hle hscope) hcallee
          (like_list_mono hle (.cons hhead hoperands))
  | _ => exact couples_pure htwins hform

/-! ## Application -/

/-- When a function is applied, what is checked is that it has a body, and its parameters. -/
theorem shaped_application {R : Value → Value → Prop} (hR : Likeness R)
    {patterns patterns' arguments arguments' body body' : List Value}
    (hpatterns : patterns.Forall₂ (Likeness.Target R) patterns')
    (hbody : body.length = body'.length) (hlength : arguments.length = patterns.length)
    (hlength' : arguments'.length = patterns'.length) :
    Likeness.Shaped R .letForm
      (SpecialForm.letForm.check (.vector (Engine.interleave patterns arguments) :: body))
      (SpecialForm.letForm.check (.vector (Engine.interleave patterns' arguments') :: body')) := by
  refine (Likeness.shaped_atLeast _ 2 ?_).bind fun _ => ?_
  · simp [hbody]
  · simp only [Engine.length_interleave hlength, Engine.length_interleave hlength',
      Engine.evens_interleave hlength, Engine.evens_interleave hlength',
      Nat.mul_mod_right, if_true]
    exact hR.shaped_targets _ hpatterns

/-- A function is called with values that fit its parameters. -/
theorem couples_applyFunction (hengine : c.Coupled engine) (htwins : c.Twins w m m')
    {callee callee' : Value} (hcallee : c.Like w callee callee')
    {patterns patterns' body body' arguments arguments' : List Value} {home home' : FrameId}
    (hscope : c.Scope w home home') (hbody : body.Forall₂ (c.Like w) body')
    (hlength : arguments.length = arguments'.length)
    (hfits : c.FitsEach w patterns patterns' arguments arguments') :
    c.Couples w (engine.applyFunction callee patterns body home arguments)
      (engine.applyFunction callee' patterns' body' home' arguments') m m' c.Like := by
  have hpatterns := hfits.targets
  unfold Engine.applyFunction
  rw [← hlength, ← hpatterns.length_eq]
  by_cases harity : arguments.length = patterns.length
  · rw [if_neg (not_not.2 harity), if_neg (not_not.2 harity)]
    have hcheck := shaped_application (c.likeness w) hpatterns hbody.length_eq harity
      (hlength.symm.trans (harity.trans hpatterns.length_eq))
    generalize hleft : SpecialForm.letForm.check
        (.vector (Engine.interleave patterns arguments) :: body) = checked,
      hright : SpecialForm.letForm.check
        (.vector (Engine.interleave patterns' arguments') :: body') = checked' at hcheck
    cases hcheck with
    | error hfault => exact couples_fail htwins hfault
    | ok =>
      refine couples_open hengine htwins hscope hbody ?_
      intro w₂ n n' id id' hle htwins₂ hopens
      exact Couples.mono (binds_bindEach hopens patterns htwins₂ (hfits.mono hle))
        fun _ _ _ _ _ => trivial
  · rw [if_pos harity, if_pos harity]
    exact couples_fail htwins (.about rfl hcallee)

/-- One level of application to related arguments. -/
theorem couples_applyWith (hengine : c.Coupled engine) (htwins : c.Twins w m m')
    {callee callee' : Value} {arguments arguments' : List Value}
    (hcallee : c.Like w callee callee') (harguments : arguments.Forall₂ (c.Like w) arguments') :
    c.Couples w (engine.applyWith callee arguments) (engine.applyWith callee' arguments') m m'
      c.Like := by
  cases (c.likeness w).pairs hcallee with
  | function serial serial' params params' body body' home home' =>
    obtain ⟨hparams, hbody, hscope⟩ := c.function_inv hcallee
    rw [Engine.applyWith, Engine.applyWith]
    generalize params.elements? = patterns, params'.elements? = patterns' at hparams ⊢
    cases hparams with
    | none => exact couples_fail htwins (.same rfl)
    | some hpatterns =>
      exact couples_applyFunction hengine htwins hcallee hscope hbody harguments.length_eq
        (fitsEach_of_like hpatterns harguments)
  | host => exact couples_callHost hengine.apply htwins hcallee harguments
  | _ => exact couples_fail htwins (.about rfl hcallee)

/-- One level of application of a function to values that fit its parameters. -/
theorem couples_applyTarget (hengine : c.Coupled engine) (htwins : c.Twins w m m')
    {serial serial' : Nat} {params params' : Value} {body body' : List Value}
    {home home' : FrameId} {patterns patterns' arguments arguments' : List Value}
    (hcallee : c.Like w (.function serial params body home)
      (.function serial' params' body' home'))
    (hparams : params.elements? = some patterns) (hparams' : params'.elements? = some patterns')
    (hlength : arguments.length = arguments'.length)
    (hfits : c.FitsEach w patterns patterns' arguments arguments') :
    c.Couples w (engine.applyWith (.function serial params body home) arguments)
      (engine.applyWith (.function serial' params' body' home') arguments') m m' c.Like := by
  obtain ⟨-, hbody, hscope⟩ := c.function_inv hcallee
  rw [Engine.applyWith, Engine.applyWith, hparams, hparams']
  exact couples_applyFunction hengine htwins hcallee hscope hbody hlength hfits

/-! ## Every depth -/

theorem coupled_spent : c.Coupled Engine.spent where
  eval htwins _ _ := couples_exhausted htwins
  apply htwins _ _ := couples_exhausted htwins
  call htwins _ _ _ _ _ := couples_exhausted htwins

/-- **The engine of every depth couples.** -/
theorem coupled_ofDepth (htransforms : c.Transforms) (depth : Nat) :
    c.Coupled (.ofDepth depth) := by
  induction depth with
  | zero => exact coupled_spent
  | succ depth ih =>
    refine ⟨?_, ?_, ?_⟩
    · intro w m m' form form' frame frame' htwins hscope hform
      exact couples_evalWith ih (htransforms depth ih) htwins hscope hform
    · intro w m m' callee callee' arguments arguments' htwins hcallee harguments
      exact couples_applyWith ih htwins hcallee harguments
    · intro w m m' serial serial' params params' body body' home home' patterns patterns' arguments
        arguments' htwins hcallee hparams hparams' hlength hfits
      exact couples_applyTarget ih htwins hcallee hparams hparams' hlength hfits

/-! ## Programs -/

/-- A form is checked and evaluated. -/
theorem couples_evalForm (hengine : c.Coupled engine) (htwins : c.Twins w m m')
    {frame frame' : FrameId} (hscope : c.Scope w frame frame') {form form' : Value}
    (hform : c.Like w form form') :
    c.Couples w (Session.evalForm engine frame form) (Session.evalForm engine frame' form') m m'
      c.Like := by
  refine (couples_validate htwins hscope hform).bind ?_
  intro w₂ _ _ n n' hle htwins₂ _
  exact hengine.eval htwins₂ (c.scope_mono hle hscope) (c.like_mono hle hform)

/-- A text is read, checked and evaluated. What it reads as has to be related to itself. -/
theorem couples_evalText (hengine : c.Coupled engine) (htwins : c.Twins w m m')
    {frame frame' : FrameId} (hscope : c.Scope w frame frame') (source : String)
    (hforms : ∀ forms, Reader.readForms source = .ok forms → forms.Forall₂ (c.Like w) forms) :
    c.Couples w (Session.evalText engine frame source) (Session.evalText engine frame' source) m m'
      c.Like := by
  unfold Session.evalText
  cases hread : Reader.readForms source with
  | error reason => exact couples_fail htwins (.same rfl)
  | ok forms =>
    have hvalidate : c.Couples w (Session.validateAll frame forms)
        (Session.validateAll frame' forms) m m' fun _ _ _ => True := by
      apply couples_bind_store
      apply couples_ofExcept htwins
      have hwalk := (c.likeness w).agree_walkAll
        (fun name hname => bindsTransformer_eq htwins hscope hname) (hforms forms hread) []
      unfold Validation.checkAll
      generalize Validation.walkAll (m.store.bindsTransformer frame) forms [] = walked,
        Validation.walkAll (m'.store.bindsTransformer frame') forms [] = walked' at hwalk ⊢
      cases hwalk with
      | ok => exact .ok trivial
      | error hfault => exact .error hfault
    refine hvalidate.bind ?_
    intro w₂ _ _ n n' hle htwins₂ _
    exact couples_evalBody hengine htwins₂ (c.scope_mono hle hscope)
      (like_list_mono hle (hforms forms hread))

end Coupling

end SmallLisp
