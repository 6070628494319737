import SmallLisp.Builtin.Plain
import SmallLisp.Expansion
import SmallLisp.Machine
import SmallLisp.Validation

/-!
# Evaluation

Evaluating a form and applying a callable need each other, and neither need ever end. Both are
therefore written against an `Engine`, which is a pair of such functions, and the engine of depth
`n + 1` is written against that of depth `n`. The engine of depth 0 gives up at once. So every run
ends, and one that does not give up has the same result at every greater depth.

* `evalWith`: a symbol is looked up; a list is a special form or a call; everything else is its own
  value.
* `applyWith`: a function binds its parameters in a new frame inside the frame it was made in, and
  evaluates its body there; a host function does what its operation says.
* `expandWith`: a transformer is applied to the call, the scope and the operands. The result is
  checked like a program and then evaluated where the call stood.
* `engine`: the two functions at a depth.
-/

namespace SmallLisp

/-- How forms are evaluated and callables applied. -/
structure Engine where
  /-- The value of a form in a frame. -/
  eval : Value → FrameId → Run Value
  /-- The result of applying a callable to arguments. -/
  apply : Value → List Value → Run Value

namespace Engine

variable (engine : Engine)

/-! ## Sequences of forms -/

/-- Evaluates forms in order; the result is that of the last one, or `nil`. -/
def evalBody (forms : List Value) (frame : FrameId) : Run Value :=
  forms.foldlM (fun _ form => engine.eval form frame) .nil

/-- Evaluates forms in order; the result is all their values. -/
def evalEach (frame : FrameId) : List Value → Run (List Value)
  | [] => pure []
  | form :: forms => do
    let value ← engine.eval form frame
    let values ← evalEach frame forms
    return value :: values

/-- Evaluates and binds, pair by pair; each right-hand side sees what was bound before it. -/
def bindInits (frame : FrameId) : List Value → Run Unit
  | pattern :: init :: bindings => do
    let value ← engine.eval init frame
    Run.ofWriting (Pattern.bind frame pattern value)
    bindInits frame bindings
  | [_] => Run.fail .missingPart
  | [] => pure ()

/-! ## Special forms -/

/-- Writes a line to the log if the machine writes any. -/
def logDefinition (name : String) : Run Unit := do
  if (← get).verbose then Run.logLine s!"def {name} on root frame"

/-- Evaluates a special form. -/
def evalSpecial (form : SpecialForm) (operands : List Value) (frame : FrameId) : Run Value := do
  match form.check operands with
  | .error reason => Run.fail (.shape form reason)
  | .ok () =>
    match form, operands with
    | .quoteForm, [operand] => return operand
    | .ifForm, [test, consequent, alternative] =>
      if (← engine.eval test frame).truthy then engine.eval consequent frame
      else engine.eval alternative frame
    | .defForm, [.symbol name, init] =>
      let value ← engine.eval init frame
      Run.defineGlobal frame name value
      logDefinition name
      return value
    | .doForm, forms => engine.evalBody forms frame
    | .letForm, .vector bindings :: body =>
      let inner ← Run.push (some frame)
      engine.bindInits inner bindings
      Run.enter inner
      engine.evalBody body inner
    | .fnForm, .vector params :: body =>
      let serial ← Run.nextSerial
      return .function serial (.vector params) body frame
    | _, _ => Run.fail .missingPart

/-- A special form that is out of shape is not evaluated. -/
theorem evalSpecial_of_error {form : SpecialForm} {operands : List Value} {reason : ShapeError}
    (hcheck : form.check operands = .error reason) (frame : FrameId) :
    engine.evalSpecial form operands frame = Run.fail (.shape form reason) := by
  simp only [evalSpecial, hcheck]

/-! ## Transformers -/

/-- Writes a line to the log if the machine writes any. -/
def logExpansion (call expansion : Value) : Run Unit := do
  if (← get).verbose then
    let before ← Run.print .inspect call
    let after ← Run.print .inspect expansion
    Run.logLine s!"Expanded {before} -> {after}"

/-- Applies the target of a transformer to a call, which is a list or a vector; the result is the
form to be evaluated instead. -/
def expandWith (target call : Value) (frame : FrameId) : Run Value := do
  let operands := (call.sequence?.getD []).tail
  match target.patterns? with
  | some patterns =>
    if patterns.length ≠ operands.length + 2 then
      match call.sequence?.getD [] with
      | head :: _ =>
        Run.fail (.transformerArity head (patterns.length - 2) operands.length)
      | [] => Run.fail .missingPart
  | none => pure ()
  let expansion ← engine.apply target (call :: .environment frame :: operands)
  logExpansion call expansion
  return expansion

/-- Checks a form in a frame as it is now. -/
def validate (form : Value) (frame : FrameId) : Run Unit := do
  Run.ofExcept (Validation.check ((← Run.store).bindsTransformer frame) form)

/-- Checks a form as a whole, then evaluates it. -/
def evaluate (form : Value) (frame : FrameId) : Run Value := do
  validate form frame
  engine.eval form frame

/-! ## Evaluation -/

/-- Evaluates a call whose head has been evaluated. -/
def evalCall (callee head : Value) (operands : List Value) (frame : FrameId) : Run Value := do
  match callee with
  | .transformer _ target =>
    let expansion ← engine.expandWith target (.list (head :: operands)) frame
    validate expansion frame
    engine.eval expansion frame
  | .function .. | .host .. =>
    let arguments ← engine.evalEach frame operands
    engine.apply callee arguments
  | other => Run.fail (.headNotFunction other)

/-- Evaluates a form, given how its parts are evaluated. -/
def evalWith (form : Value) (frame : FrameId) : Run Value := do
  match form with
  | .symbol name => Run.lookup frame name
  | .list (head :: operands) =>
    match SpecialForm.ofHead? head with
    | some special => engine.evalSpecial special operands frame
    | none =>
      let callee ← engine.eval head frame
      engine.evalCall callee head operands frame
  | other => return other

/-! ## Application -/

/-- Patterns and arguments in alternation, as the bindings of a `let` are written. -/
def interleave : List Value → List Value → List Value
  | pattern :: patterns, argument :: arguments =>
    pattern :: argument :: interleave patterns arguments
  | _, _ => []

theorem interleave_cons (pattern argument : Value) (patterns arguments : List Value) :
    interleave (pattern :: patterns) (argument :: arguments) =
      pattern :: argument :: interleave patterns arguments := rfl

/-- Applies a function with a body: it is evaluated as that of a `let` whose right-hand sides are
known, in a frame inside the one that the function was made in. -/
def applyFunction (callee : Value) (patterns body : List Value) (home : FrameId)
    (arguments : List Value) : Run Value := do
  if arguments.length ≠ patterns.length then
    Run.fail (.functionArity callee patterns.length arguments.length)
  match SpecialForm.letForm.check (.vector (interleave patterns arguments) :: body) with
  | .error reason => Run.fail (.shape .letForm reason)
  | .ok () =>
    let frame ← Run.push (some home)
    Run.ofWriting (Pattern.bindEach frame patterns arguments)
    Run.enter frame
    engine.evalBody body frame

/-- The items of a collection, for the operation that folds over them. -/
def foldItems (given : Value) : Run (List Value) :=
  Run.ofExcept (Collection.items .reduce given)

/-- Applies a callable to a result so far and each item in turn. -/
def foldWith (callee start : Value) (items : List Value) : Run Value :=
  items.foldlM (fun result item => engine.apply callee [result, item]) start

/-- Folds a callable over a collection. Without a start the first item is the start, and an empty
collection is the callable's result on no arguments. -/
def reduce : List Value → Run Value
  | [callee, given] => do
    match ← foldItems given with
    | [] => engine.apply callee []
    | start :: items => engine.foldWith callee start items
  | [callee, start, given] => do
    let items ← foldItems given
    engine.foldWith callee start items
  | args => Run.fail (.argumentCount .reduce .twoOrThree args.length)

/-- The text that a value contributes to a string: `nil` nothing, a string itself. -/
def contribution : Value → Run String
  | .nil => pure ""
  | .str text => pure text
  | other => Run.print .source other

/-- The texts of the arguments, one after the other. -/
def concatenate : List Value → Run String
  | [] => pure ""
  | arg :: args => do
    let text ← contribution arg
    let rest ← concatenate args
    return text ++ rest

/-- Makes a function a transformer; a transformer stays what it is. -/
def makeTransformer : List Value → Run Value
  | [.transformer serial target] => return .transformer serial target
  | [target] => do
    if target.isFunction then return .transformer (← Run.nextSerial) target
    else Run.fail (.targetNotFunction target)
  | args => Run.fail (.argumentCount .makeTransformer .one args.length)

/-- Carries out an operation. -/
def callBuiltin (operation : Builtin) (arguments : List Value) : Run Value :=
  match operation.plain? with
  | some compute => Run.ofExcept (compute arguments)
  | none =>
    match operation with
    | .reduce => engine.reduce arguments
    | .str => return .str (← concatenate arguments)
    | .makeTransformer => makeTransformer arguments
    | _ => return .nil

/-- Calls a value as the host does, which can call functions only. -/
def hostCall (callee : Value) (arguments : List Value) : Run Value :=
  if callee.isFunction then engine.apply callee arguments else Run.fail .uncallable

/-- Does what the operation of the host function with that serial number says. -/
def callHost (serial : Nat) (operation : HostOperation) (arguments : List Value) :
    Run Value := do
  match operation with
  | .builtin b => engine.callBuiltin b arguments
  | .expander expander =>
    match arguments with
    | _call :: _scope :: operands => Run.ofExcept (expander.expand operands)
    | _ => Run.fail (.missingArgument (.host serial operation))
  | .probe name => return .int (← Run.record ⟨serial, name, arguments⟩)
  | .invoker _ =>
    match arguments with
    | callee :: arguments => engine.hostCall callee arguments
    | [] => Run.fail .uncallable

/-- Applies a callable, given how forms are evaluated and further callables applied. -/
def applyWith (callee : Value) (arguments : List Value) : Run Value :=
  match callee with
  | .function _ params body home =>
    match params.elements? with
    | some patterns => engine.applyFunction callee patterns body home arguments
    | none => Run.fail .uncallable
  | .host serial operation => engine.callHost serial operation arguments
  | .transformer .. => Run.fail (.applyTransformer callee)
  | _ => Run.fail (.applyNonFunction callee)

/-! ## The engine -/

/-- The engine that gives up at once. -/
def spent : Engine where
  eval _ _ := throw .exhausted
  apply _ _ := throw .exhausted

/-- The engine whose evaluations and applications are nested at most so deep. -/
def ofDepth : Nat → Engine
  | 0 => spent
  | depth + 1 =>
    { eval := fun form frame => (ofDepth depth).evalWith form frame
      apply := fun callee arguments => (ofDepth depth).applyWith callee arguments }

end Engine

end SmallLisp
