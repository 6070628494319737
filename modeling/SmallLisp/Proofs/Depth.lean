import SmallLisp.Evaluator

/-!
# More depth changes nothing that has ended

The engines of all depths are approximations of one evaluation. An engine that gives up says nothing
about the program; as long as it does not, a deeper one does the same.

* `Run.Extends run run'`: wherever the first run does not give up, the second one ends in the same
  way. Giving up is not caught anywhere, so this goes through sequencing (`Run.Extends.bind`).
* `Engine.Extends engine engine'`: the same for all evaluations and applications of two engines,
  with one lemma for each function of the evaluator.
* **`Engine.ofDepth_extends`: the engine of a greater depth extends that of a smaller one.**
* `Engine.Settles`: how a run ends at every depth that is great enough. A run that ends at some
  depth without giving up has settled there (`Engine.settles_of_ends`).
-/

namespace SmallLisp

namespace Run

variable {α β : Type}

/-- The run gives up. -/
def GivesUp (run : Run α) (m : Machine) : Prop :=
  ∃ m', run m = .error .exhausted m'

/-- Wherever the first run does not give up, the second one ends in the same way. -/
def Extends (run run' : Run α) : Prop :=
  ∀ m, run.GivesUp m ∨ run' m = run m

theorem Extends.refl (run : Run α) : run.Extends run :=
  fun _ => .inr rfl

theorem Extends.trans {run run' run'' : Run α} (h : run.Extends run') (h' : run'.Extends run'') :
    run.Extends run'' := by
  intro m
  rcases h m with hgives | heq
  · exact .inl hgives
  · rcases h' m with ⟨m', hgives⟩ | heq'
    · exact .inl ⟨m', heq ▸ hgives⟩
    · exact .inr (heq'.trans heq)

/-- A run that gives up makes every run that begins with it give up. -/
theorem Extends.bind {run run' : Run α} {f f' : α → Run β} (hrun : run.Extends run')
    (hf : ∀ a, (f a).Extends (f' a)) : (run >>= f).Extends (run' >>= f') := by
  intro m
  show (∃ m', EStateM.bind run f m = _) ∨ EStateM.bind run' f' m = EStateM.bind run f m
  unfold EStateM.bind
  rcases hrun m with ⟨m', hgives⟩ | heq
  · exact .inl ⟨m', by rw [hgives]⟩
  · rw [heq]
    cases run m with
    | ok a m' => exact hf a m'
    | error stop m' => exact .inr rfl

/-- A run is extended by what extends it behind its first step. -/
theorem Extends.bind_left (run : Run α) {f f' : α → Run β} (hf : ∀ a, (f a).Extends (f' a)) :
    (run >>= f).Extends (run >>= f') :=
  (Extends.refl run).bind hf

end Run

namespace Engine

/-- Wherever the first engine does not give up, the second one does the same. -/
structure Extends (engine engine' : Engine) : Prop where
  eval : ∀ form frame, (engine.eval form frame).Extends (engine'.eval form frame)
  apply : ∀ callee arguments,
    (engine.apply callee arguments).Extends (engine'.apply callee arguments)

section evaluator

variable {engine engine' : Engine} (h : engine.Extends engine')

include h

/-! ## Forms -/

theorem extends_evalBody (forms : List Value) (frame : FrameId) :
    (engine.evalBody forms frame).Extends (engine'.evalBody forms frame) := by
  unfold evalBody
  generalize Value.nil = value
  induction forms generalizing value with
  | nil => exact .refl _
  | cons form forms ih =>
    rw [List.foldlM_cons, List.foldlM_cons]
    exact (h.eval form frame).bind ih

theorem extends_evalEach (frame : FrameId) (forms : List Value) :
    (engine.evalEach frame forms).Extends (engine'.evalEach frame forms) := by
  induction forms with
  | nil => exact .refl _
  | cons form forms ih =>
    rw [evalEach, evalEach]
    exact (h.eval form frame).bind fun _ => ih.bind fun _ => .refl _

theorem extends_bindInits (frame : FrameId) (bindings : List Value) :
    (engine.bindInits frame bindings).Extends (engine'.bindInits frame bindings) := by
  induction bindings using evens.induct with
  | case1 | case2 => exact .refl _
  | case3 pattern init bindings ih =>
    rw [bindInits, bindInits]
    exact (h.eval init frame).bind fun _ => .bind_left _ fun _ => ih

theorem extends_evalSpecial (form : SpecialForm) (operands : List Value) (frame : FrameId) :
    (engine.evalSpecial form operands frame).Extends (engine'.evalSpecial form operands frame) := by
  unfold evalSpecial
  cases form.check operands with
  | error reason => exact .refl _
  | ok =>
    dsimp only
    split
    · exact .refl _
    · refine (h.eval _ frame).bind fun value => ?_
      split <;> exact h.eval _ frame
    · exact (h.eval _ frame).bind fun _ => .refl _
    · exact extends_evalBody h operands frame
    · exact .bind_left _ fun inner => (extends_bindInits h inner _).bind fun _ =>
        .bind_left _ fun _ => extends_evalBody h _ inner
    · exact .refl _
    · exact .refl _

/-! ## Calls -/

theorem extends_expandWith (target call : Value) (frame : FrameId) :
    (engine.expandWith target call frame).Extends (engine'.expandWith target call frame) := by
  have happly := (h.apply target
    (call :: .environment frame :: (call.sequence?.getD []).tail)).bind fun expansion =>
      Run.Extends.refl (do
        logExpansion call expansion
        return expansion)
  unfold expandWith
  dsimp only
  split
  · split
    · exact .refl _
    · exact happly
  · exact happly

theorem extends_evalCall (callee head : Value) (operands : List Value) (frame : FrameId) :
    (engine.evalCall callee head operands frame).Extends
      (engine'.evalCall callee head operands frame) := by
  have happly := (extends_evalEach h frame operands).bind fun arguments =>
    h.apply callee arguments
  cases callee with
  | transformer serial target =>
    rw [evalCall, evalCall]
    exact (extends_expandWith h target _ frame).bind fun expansion =>
      .bind_left _ fun _ => h.eval expansion frame
  | function | host => exact happly
  | _ => exact .refl _

/-- One level of evaluation. -/
theorem extends_evalWith (form : Value) (frame : FrameId) :
    (engine.evalWith form frame).Extends (engine'.evalWith form frame) := by
  unfold evalWith
  split
  · exact .refl _
  · split
    · exact extends_evalSpecial h _ _ frame
    · exact (h.eval _ frame).bind fun callee => extends_evalCall h callee _ _ frame
  · exact .refl _

/-! ## Application -/

theorem extends_applyFunction (callee : Value) (patterns body : List Value) (home : FrameId)
    (arguments : List Value) :
    (engine.applyFunction callee patterns body home arguments).Extends
      (engine'.applyFunction callee patterns body home arguments) := by
  by_cases hlength : arguments.length = patterns.length
  · simp only [applyFunction, ne_eq, hlength, not_true_eq_false, if_false]
    split
    · exact .refl _
    · exact .bind_left _ fun frame => .bind_left _ fun _ => .bind_left _ fun _ =>
        extends_evalBody h body frame
  · simp only [applyFunction, ne_eq, hlength, not_false_eq_true, if_true]
    exact fun m => .inr rfl

theorem extends_foldWith (callee start : Value) (items : List Value) :
    (engine.foldWith callee start items).Extends (engine'.foldWith callee start items) := by
  unfold foldWith
  induction items generalizing start with
  | nil => exact .refl _
  | cons item items ih =>
    rw [List.foldlM_cons, List.foldlM_cons]
    exact (h.apply callee [start, item]).bind ih

theorem extends_reduce (arguments : List Value) :
    (engine.reduce arguments).Extends (engine'.reduce arguments) := by
  unfold reduce
  split
  · refine .bind_left _ fun items => ?_
    split
    · exact h.apply _ []
    · exact extends_foldWith h _ _ _
  · exact .bind_left _ fun items => extends_foldWith h _ _ items
  · exact .refl _

theorem extends_callHost (serial : Nat) (operation : HostOperation) (arguments : List Value) :
    (engine.callHost serial operation arguments).Extends
      (engine'.callHost serial operation arguments) := by
  cases operation with
  | builtin operation =>
    show (engine.callBuiltin operation arguments).Extends (engine'.callBuiltin operation arguments)
    unfold callBuiltin
    split
    · exact .refl _
    · cases operation with
      | reduce => exact extends_reduce h arguments
      | _ => exact .refl _
  | invoker name =>
    cases arguments with
    | nil => exact .refl _
    | cons callee arguments =>
      show (engine.hostCall callee arguments).Extends (engine'.hostCall callee arguments)
      unfold hostCall
      split
      · exact h.apply callee arguments
      · exact .refl _
  | expander | probe => exact .refl _

/-- One level of application. -/
theorem extends_applyWith (callee : Value) (arguments : List Value) :
    (engine.applyWith callee arguments).Extends (engine'.applyWith callee arguments) := by
  cases callee with
  | function serial params body home =>
    rw [applyWith, applyWith]
    split
    · exact extends_applyFunction h _ _ body home arguments
    · exact .refl _
  | host serial operation => exact extends_callHost h serial operation arguments
  | _ => exact .refl _

end evaluator

/-! ## Every depth -/

theorem extends_succ (depth : Nat) : (ofDepth depth).Extends (ofDepth (depth + 1)) := by
  induction depth with
  | zero => exact ⟨fun _ _ m => .inl ⟨m, rfl⟩, fun _ _ m => .inl ⟨m, rfl⟩⟩
  | succ depth ih => exact ⟨extends_evalWith ih, extends_applyWith ih⟩

/-- **The engine of a greater depth extends that of a smaller one.** -/
theorem ofDepth_extends {depth deeper : Nat} (h : depth ≤ deeper) :
    (ofDepth depth).Extends (ofDepth deeper) := by
  induction h with
  | refl => exact ⟨fun _ _ => .refl _, fun _ _ => .refl _⟩
  | @step deeper _ ih =>
    have hsucc := extends_succ deeper
    exact ⟨fun form frame => (ih.eval form frame).trans (hsucc.eval form frame),
      fun callee arguments => (ih.apply callee arguments).trans (hsucc.apply callee arguments)⟩

/-- A run that is extended where its engine is. -/
def Monotone {α : Type} (run : Engine → Run α) : Prop :=
  ∀ engine engine', engine.Extends engine' → (run engine).Extends (run engine')

/-- The run ends in this way at every depth that is great enough. -/
def Settles {α : Type} (run : Engine → Run α) (m : Machine)
    (result : EStateM.Result Stop Machine α) : Prop :=
  ∃ depth, ∀ deeper, depth ≤ deeper → run (.ofDepth deeper) m = result

/-- **A run that ends without giving up has settled.** -/
theorem settles_of_ends {α : Type} {run : Engine → Run α} (hrun : Monotone run) {depth : Nat}
    {m : Machine} (h : ¬ (run (.ofDepth depth)).GivesUp m) :
    Settles run m (run (.ofDepth depth) m) :=
  ⟨depth, fun _ hle => (hrun _ _ (ofDepth_extends hle) m).resolve_left h⟩

end Engine

end SmallLisp
