import SmallLisp.Evaluator
import SmallLisp.Form.Reader

/-!
# Sessions

A session is a root frame that programs are evaluated in, one after the other. Starting it binds the
operations and the transformers of the library there; what a program defines stays for the programs
behind it.

* `start`: makes a root frame the root of a session.
* `evalText`: reads all forms of a text, checks them all, and only then evaluates them in order.
* `evalForm`: checks and evaluates one form.
* `lookup`, `find?`, `expandOnce`, `applyForm`, `callForm`, `makeFunction`: what a host can ask of
  a frame beside that. Where the host gives a name it may give any value, and a value that is no
  symbol is bound nowhere. Where it gives arguments it gives texts, which are read once what stands
  before them has been done.
-/

namespace SmallLisp.Session

/-! ## Starting -/

/-- A host function with a serial number of its own. -/
def makeHost (operation : HostOperation) : Run Value :=
  return .host (← Run.nextSerial) operation

/-- Binds a name in a frame. -/
def define (frame : FrameId) (name : String) (value : Value) : Run Unit :=
  Run.ofWriting (Store.define frame (.symbol name) value)

/-- Binds the operations in a frame. -/
def installBuiltins (frame : FrameId) : Run Unit :=
  Builtin.all.forM fun operation => do
    define frame operation.name (← makeHost (.builtin operation))

/-- Binds the transformers of the library in a frame. -/
def installTransformers (frame : FrameId) : Run Unit :=
  Expander.all.forM fun expander => do
    let target ← makeHost (.expander expander)
    define frame expander.name (.transformer (← Run.nextSerial) target)

/-- Binds all that the library offers in a frame. -/
def install (frame : FrameId) : Run Unit := do
  installBuiltins frame
  installTransformers frame

/-- The bindings of a frame, in order. -/
def bindings (frame : FrameId) : Run (List (String × Value)) :=
  return ((← Run.store).frame? frame).map (·.vars) |>.getD []

/-- Makes a frame the root of a session; it has to be a root. -/
def start (root : FrameId) : Run Unit := do
  if !(← Run.store).isRoot root then Run.fail .notRoot
  install root
  if (← get).verbose then
    let count := (← bindings root).length
    Run.logLine s!"Interpreter session started with {count} root bindings"

/-! ## Evaluating -/

/-- How deep evaluation may be nested. -/
def depth : Nat := 20000

/-- The engine of a session. -/
def engine : Engine :=
  .ofDepth depth

/-- Checks and evaluates a form. -/
def evalForm (engine : Engine) (frame : FrameId) (form : Value) : Run Value := do
  Engine.validate form frame
  engine.eval form frame

/-- Checks the forms of a program together. -/
def validateAll (frame : FrameId) (forms : List Value) : Run Unit := do
  Run.ofExcept (Validation.checkAll ((← Run.store).bindsTransformer frame) forms)

/-- Reads, checks and evaluates a program; the result is that of its last form, or `nil`. -/
def evalText (engine : Engine) (frame : FrameId) (source : String) : Run Value := do
  match Reader.readForms source with
  | .error reason => Run.fail (.read reason)
  | .ok forms =>
    validateAll frame forms
    engine.evalBody forms frame

/-! ## Questions of a host -/

/-- What a name means in a frame. -/
def lookup (frame : FrameId) (name : Value) : Run Value :=
  match name with
  | .symbol name => Run.lookup frame name
  | other => Run.fail (.unbound other)

/-- The innermost frame around a frame that binds the name. -/
def find? (frame : FrameId) (name : Value) : Run (Option FrameId) :=
  return name.symbolName?.bind ((← Run.store).find? frame)

/-- Expands a call of a transformer once, without evaluating the result. The call is a list or a
vector; there is no result if its head means something other than a transformer. -/
def expandOnce (engine : Engine) (frame : FrameId) (call : Value) : Run (Option Value) := do
  match ← lookup frame call.first with
  | .transformer _ target => return some (← engine.expandWith target call frame)
  | _ => return none

/-- Reads texts as data, in order. -/
def readData (sources : List String) : Run (List Value) :=
  sources.mapM fun source =>
    match Reader.readProgram source with
    | .ok value => pure value
    | .error reason => Run.fail (.read reason)

/-- Evaluates a form without checking it first, then reads the arguments as data and applies the
result to them. -/
def applyForm (engine : Engine) (frame : FrameId) (head : Value) (arguments : List String) :
    Run Value := do
  let callee ← engine.eval head frame
  engine.apply callee (← readData arguments)

/-- Reads arguments as data and calls a value with them as the host does. -/
def callData (engine : Engine) (callee : Value) (arguments : List String) : Run Value := do
  engine.hostCall callee (← readData arguments)

/-- Evaluates a form without checking it first, then calls the result as the host does. -/
def callForm (engine : Engine) (frame : FrameId) (head : Value) (arguments : List String) :
    Run Value := do
  callData engine (← engine.eval head frame) arguments

/-- A function that was not checked when it was made. -/
def makeFunction (frame : FrameId) (params : Value) (body : List Value) : Run Value :=
  return .function (← Run.nextSerial) params body frame

/-- How many arguments a function with a body takes. -/
def arity (callee : Value) : Run Nat :=
  match callee.patterns? with
  | some patterns => return patterns.length
  | none => Run.fail .uncallable

end SmallLisp.Session
