import SmallLisp.Proofs.Destructuring
import SmallLisp.Proofs.LibraryForms

/-!
# Application is a `let` over quoted arguments

A function with a body is applied by the handler of `let`, which has two modes: right-hand sides are
evaluated in the new frame, one after the other, or they are values already and bound as they stand.
**`Engine.apply_eq_eval_let`** says that the modes agree if every value is quoted, at every machine
and with everything that the run leaves behind. A parameter that cannot take its argument, or a name
that is bound twice, stops both at the same point.

The theorem also says what the plain mode would not be safe from. The frame of an application is
made without an engine (`Engine.openFrame`), so no argument is evaluated again, though it may be a
list or a symbol; and in the frame each parameter has bound its names to parts of its own argument,
whatever the other parameters have bound.
-/

namespace SmallLisp.Engine

/-! ## The frame of an application -/

/-- Makes the frame in which the body of a function is evaluated. -/
def openFrame (home : FrameId) (patterns arguments : List Value) : Run FrameId := do
  let frame ← Run.push (some home)
  Run.ofWriting (Pattern.bindEach frame patterns arguments)
  Run.enter frame
  return frame

/-- A function that was made by `fn` has the shape of a `let` once it is given its arguments. -/
theorem letForm_check_interleave {patterns arguments body : List Value}
    (hmade : SpecialForm.fnForm.check (.vector patterns :: body) = .ok ())
    (hlength : arguments.length = patterns.length) :
    SpecialForm.letForm.check (.vector (interleave patterns arguments) :: body) = .ok () := by
  simp only [SpecialForm.check] at hmade ⊢
  rw [length_interleave hlength, evens_interleave hlength, if_pos (by omega)]
  exact hmade

/-- A function that is given as many arguments as it has parameters evaluates its body in a new
frame. -/
theorem applyFunction_eq_openFrame (engine : Engine) {patterns arguments body : List Value}
    (hmade : SpecialForm.fnForm.check (.vector patterns :: body) = .ok ())
    (hlength : arguments.length = patterns.length) (callee : Value) (home : FrameId) :
    engine.applyFunction callee patterns body home arguments =
      (openFrame home patterns arguments >>= fun frame => engine.evalBody body frame) := by
  simp only [applyFunction, ne_eq, hlength, not_true_eq_false, if_false,
    letForm_check_interleave hmade hlength, openFrame, bind_assoc, pure_bind]

/-- The frame of an application lies inside the one that the function was made in, and binds what
each parameter takes from its own argument. -/
theorem frame?_of_openFrame {home frame : FrameId} {patterns arguments : List Value}
    {m m' : Machine} (hlength : arguments.length = patterns.length) (hhome : home < m.store.size)
    (h : openFrame home patterns arguments m = .ok frame m') :
    m'.store.frame? frame = some ⟨some home,
      ((patterns.zip arguments).map fun pair =>
        (Pattern.parts pair.1 pair.2).bindings).flatten⟩ := by
  obtain ⟨store, serial, calls, log, verbose⟩ := m
  have hnew : (store.push (some home)).frame? store.size = some ⟨some home, []⟩ := by
    rw [Store.frame?_push_some hhome, if_pos rfl]
  change EStateM.bind (Run.ofWriting (Pattern.bindEach store.size patterns arguments)) _ _ = _ at h
  unfold EStateM.bind Run.ofWriting at h
  rw [Pattern.bindEach_eq_carryOut] at h
  dsimp only at h
  cases hwrite : (Pattern.partsEach patterns arguments).carryOut store.size
      (store.push (some home)) with
  | error reason store' =>
    rw [hwrite] at h
    cases h
  | ok u store' =>
    rw [hwrite] at h
    cases h
    obtain ⟨hfailure, hall⟩ := Pattern.Parts.failure_of_carryOut hwrite
    rw [← Pattern.bindings_partsEach hlength hfailure]
    show store'.frame? store.size = _
    exact Store.frame?_of_defineAll_ok hnew rfl hall

/-! ## The two modes -/

/-- **Application is a `let` over quoted arguments.** Let a function made by `fn` be given as many
arguments as it has parameters.

* At every machine, applying it ends as evaluating the `let` of its parameters, the quoted arguments
  and its body in its own frame does: with the same value or the same stop, and with the same
  machine.
* It is to make a frame from the parameters and the arguments, in which nothing is evaluated, and
  then to evaluate the body in it.
* That frame binds what each parameter takes from its own argument, and nothing else. -/
theorem apply_eq_eval_let (depth serial : Nat) {patterns arguments body : List Value}
    (home : FrameId) (hmade : SpecialForm.fnForm.check (.vector patterns :: body) = .ok ())
    (hlength : arguments.length = patterns.length) :
    ((ofDepth (depth + 2)).apply (.function serial (.vector patterns) body home) arguments =
      (ofDepth (depth + 2)).eval (.list (.symbol "let" ::
        .vector (interleave patterns (arguments.map quoted)) :: body)) home) ∧
    ((ofDepth (depth + 2)).apply (.function serial (.vector patterns) body home) arguments =
      (openFrame home patterns arguments >>= fun frame =>
        (ofDepth (depth + 1)).evalBody body frame)) ∧
    ∀ m frame m', home < m.store.size → openFrame home patterns arguments m = .ok frame m' →
      m'.store.frame? frame = some ⟨some home,
        ((patterns.zip arguments).map fun pair =>
          (Pattern.parts pair.1 pair.2).bindings).flatten⟩ := by
  have happly : (ofDepth (depth + 2)).apply (.function serial (.vector patterns) body home)
      arguments = (ofDepth (depth + 1)).applyFunction
        (.function serial (.vector patterns) body home) patterns body home arguments := rfl
  refine ⟨?_, ?_, fun m frame m' hhome h => frame?_of_openFrame hlength hhome h⟩
  · rw [happly, applyFunction_eq_let hlength]
    exact ((ofDepth (depth + 1)).evalWith_let home _ body).symm
  · rw [happly, applyFunction_eq_openFrame _ hmade hlength]

/-- The second argument is a symbol that the first parameter binds, and the third a list that looks
like a call: both are bound as they stand. -/
theorem apply_eq_eval_let_codelike :
    let patterns : List Value := [.symbol "a", .vector [.symbol "b", .symbol "c"], .symbol "d"]
    let arguments : List Value := [.number (.int 1), .list [.symbol "a"],
      .list [.symbol "f", .symbol "d"]]
    let body : List Value := [.symbol "b"]
    SpecialForm.fnForm.check (.vector patterns :: body) = .ok () ∧
    ((ofDepth 4).apply (.function 1 (.vector patterns) body 0) arguments =
      (ofDepth 4).eval (.list (.symbol "let" ::
        .vector (interleave patterns (arguments.map quoted)) :: body)) 0) ∧
    ∃ m frame m', 0 < m.store.size ∧ openFrame 0 patterns arguments m = .ok frame m' ∧
      m'.store.frame? frame = some ⟨some 0, [("a", .number (.int 1)), ("b", .symbol "a"),
        ("c", .nil), ("d", .list [.symbol "f", .symbol "d"])]⟩ := by
  intro patterns arguments body
  have hmade : SpecialForm.fnForm.check (.vector patterns :: body) = .ok () := rfl
  have hlength : arguments.length = patterns.length := rfl
  obtain ⟨hmodes, -, hframe⟩ := apply_eq_eval_let 2 1 0 hmade hlength
  refine ⟨hmade, hmodes, { Machine.fresh false with store := Store.empty.push none }, 1, _,
    by decide, rfl, ?_⟩
  exact hframe { Machine.fresh false with store := Store.empty.push none } 1 _ (by decide) rfl

end SmallLisp.Engine
