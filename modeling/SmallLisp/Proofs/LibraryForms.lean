import SmallLisp.Evaluator

/-!
# The forms of the library

A library transformer puts its operands into a form of a fixed build. This file says how such forms
are evaluated, one equation for each part:

* `Engine.evalSpecial_def`, `Engine.evalSpecial_fn`: what a definition and a function come to.
* `Engine.eval_maker`: the operation that makes a function a transformer, which stands in the form
  as a value.
* `Engine.eval_quoted`: a quoted value, which is how data stands in a form.
* **`Engine.applyFunction_eq_let`: a function with a body is applied as a `let` is evaluated** whose
  right-hand sides are the quoted arguments, in the frame that the function was made in.
-/

namespace SmallLisp

namespace Engine

/-! ## Definitions -/

variable (engine : Engine) (frame : FrameId)

theorem evalWith_def (name : String) (init : Value) :
    engine.evalWith (Expander.defForm name init) frame =
      engine.evalSpecial .defForm [.symbol name, init] frame := by
  have hhead : SpecialForm.ofHead? (.symbol "def") = some .defForm :=
    SpecialForm.ofName?_name .defForm
  simp only [evalWith, Expander.defForm, hhead]

theorem evalWith_fn (params body : List Value) :
    engine.evalWith (Expander.fnForm params body) frame =
      engine.evalSpecial .fnForm (.vector params :: body) frame := by
  have hhead : SpecialForm.ofHead? (.symbol "fn") = some .fnForm :=
    SpecialForm.ofName?_name .fnForm
  simp only [evalWith, Expander.fnForm, hhead]

theorem evalWith_let (bindings body : List Value) :
    engine.evalWith (.list (.symbol "let" :: .vector bindings :: body)) frame =
      engine.evalSpecial .letForm (.vector bindings :: body) frame := by
  have hhead : SpecialForm.ofHead? (.symbol "let") = some .letForm :=
    SpecialForm.ofName?_name .letForm
  simp only [evalWith, hhead]

/-- The operation in the form is its own value. -/
theorem eval_maker (depth : Nat) (form : Value) :
    (ofDepth (depth + 2)).eval (.list [Expander.transformerMaker, form]) frame = (do
      let value ← (ofDepth (depth + 1)).eval form frame
      makeTransformer [value]) := by
  have hmaker : (ofDepth (depth + 1)).eval Expander.transformerMaker frame =
      pure Expander.transformerMaker := rfl
  have happly : (ofDepth (depth + 1)).apply Expander.transformerMaker = makeTransformer := rfl
  show (ofDepth (depth + 1)).evalWith (.list [Expander.transformerMaker, form]) frame = _
  have hhead : SpecialForm.ofHead? Expander.transformerMaker = none := rfl
  simp only [evalWith, hhead, hmaker, pure_bind]
  rw [Expander.transformerMaker, evalCall]
  simp only [evalEach, bind_assoc, pure_bind]
  rw [← Expander.transformerMaker, happly]

/-- A `fn` in shape makes a function of its frame. -/
theorem evalSpecial_fn {params body : List Value}
    (hcheck : SpecialForm.fnForm.check (.vector params :: body) = .ok ()) :
    engine.evalSpecial .fnForm (.vector params :: body) frame = (do
      let serial ← Run.nextSerial
      return .function serial (.vector params) body frame) := by
  simp only [evalSpecial, hcheck]

/-- A `def` of a name binds it on the root. -/
theorem evalSpecial_def (name : String) (init : Value) :
    engine.evalSpecial .defForm [.symbol name, init] frame = (do
      let value ← engine.eval init frame
      Run.defineGlobal frame name value
      logDefinition name
      return value) := by
  have hcheck : SpecialForm.defForm.check [.symbol name, init] = .ok () := rfl
  simp only [evalSpecial, hcheck]

/-! ## Functions as bindings -/

/-- A form that evaluates to the value. -/
def quoted (value : Value) : Value :=
  .list [.symbol "quote", value]

theorem eval_quoted (depth : Nat) (value : Value) :
    (ofDepth (depth + 1)).eval (quoted value) frame = pure value := by
  have hhead : SpecialForm.ofHead? (.symbol "quote") = some .quoteForm :=
    SpecialForm.ofName?_name .quoteForm
  have hcheck : SpecialForm.quoteForm.check [value] = .ok () := rfl
  show (ofDepth depth).evalWith (quoted value) frame = _
  simp only [evalWith, quoted, hhead, evalSpecial, hcheck]

/-- The patterns of the bindings that an application stands for are the function's own. -/
theorem evens_interleave {patterns arguments : List Value}
    (h : arguments.length = patterns.length) :
    evens (interleave patterns arguments) = patterns := by
  induction patterns generalizing arguments with
  | nil => cases arguments <;> rfl
  | cons pattern patterns ih =>
    cases arguments with
    | nil => cases h
    | cons argument arguments =>
      rw [interleave_cons, evens, ih (Nat.succ.inj h)]

theorem length_interleave {patterns arguments : List Value}
    (h : arguments.length = patterns.length) :
    (interleave patterns arguments).length = 2 * patterns.length := by
  induction patterns generalizing arguments with
  | nil => cases arguments <;> rfl
  | cons pattern patterns ih =>
    cases arguments with
    | nil => cases h
    | cons argument arguments =>
      rw [interleave_cons, List.length_cons, List.length_cons, ih (Nat.succ.inj h),
        List.length_cons]
      omega

variable {engine frame}

/-- Right-hand sides that are quoted are bound as they stand. -/
theorem bindInits_quoted (hquoted : ∀ value, engine.eval (quoted value) frame = pure value)
    {patterns arguments : List Value} (hlength : arguments.length = patterns.length) :
    engine.bindInits frame (interleave patterns (arguments.map quoted)) =
      Run.ofWriting (Pattern.bindEach frame patterns arguments) := by
  induction patterns generalizing arguments with
  | nil =>
    rw [List.length_eq_zero_iff.1 hlength]
    rfl
  | cons pattern patterns ih =>
    cases arguments with
    | nil => cases hlength
    | cons argument arguments =>
      rw [List.map_cons, interleave_cons, bindInits, hquoted, pure_bind, ih (Nat.succ.inj hlength),
        ← Run.ofWriting_bind, Pattern.bindEach]
      rfl

/-- Quoting the right-hand sides of a `let` does not change its shape. -/
theorem letForm_check_quoted {patterns arguments : List Value}
    (hlength : arguments.length = patterns.length) (body : List Value) :
    SpecialForm.letForm.check (.vector (interleave patterns (arguments.map quoted)) :: body) =
      SpecialForm.letForm.check (.vector (interleave patterns arguments) :: body) := by
  have hmap : (arguments.map quoted).length = patterns.length := by
    rw [List.length_map, hlength]
  simp only [SpecialForm.check, evens_interleave hmap, evens_interleave hlength,
    length_interleave hmap, length_interleave hlength, SpecialForm.checkAtLeast, List.length_cons]

/-- **A function with a body is applied as a `let` is evaluated**, in the frame that the function
was made in and with its arguments quoted. -/
theorem applyFunction_eq_let {depth : Nat} {patterns arguments : List Value}
    (hlength : arguments.length = patterns.length) (callee : Value) (body : List Value)
    (home : FrameId) :
    (ofDepth (depth + 1)).applyFunction callee patterns body home arguments =
      (ofDepth (depth + 1)).evalSpecial .letForm
        (.vector (interleave patterns (arguments.map quoted)) :: body) home := by
  have hbind : ∀ frame, (ofDepth (depth + 1)).bindInits frame
      (interleave patterns (arguments.map quoted)) =
        Run.ofWriting (Pattern.bindEach frame patterns arguments) :=
    fun frame => bindInits_quoted (eval_quoted frame depth) hlength
  simp only [applyFunction, ne_eq, hlength, not_true_eq_false, if_false, evalSpecial,
    letForm_check_quoted hlength, hbind]

end Engine

end SmallLisp
