import SmallLisp.Printer

/-!
# The machine

Evaluation runs on a machine. Its state is everything that a run can leave behind:

* the store of frames, with its history;
* the next serial number, by which callables are told apart;
* the calls that probes have recorded;
* the lines written to the log, and whether any are written at all.

A run ends with a value or with a `Stop`, and in either case with a machine: what happened before a
stop has happened. A stop is a fault of the program, or the bound on the depth of evaluation was
reached, in which case nothing is said about the program.
-/

namespace SmallLisp

/-- A call that a probe has recorded. -/
structure ProbeCall where
  /-- The serial number of the probe, which tells it from another one of the same name. -/
  serial : Nat
  /-- The name of the probe. -/
  probe : String
  /-- The arguments of the call. -/
  arguments : List Value
deriving Repr

/-- The state of a run. -/
structure Machine where
  /-- The frames. -/
  store : Store
  /-- The serial number of the next callable. -/
  serial : Nat
  /-- The calls of probes, in order. -/
  calls : Array ProbeCall
  /-- The lines of the log, in order. -/
  log : Array String
  /-- Lines are written to the log. -/
  verbose : Bool

namespace Machine

/-- A machine without frames. The serial number 0 is set apart for the operation that library
transformers place into forms. -/
def fresh (verbose : Bool) : Machine where
  store := .empty
  serial := 1
  calls := #[]
  log := #[]
  verbose := verbose

end Machine

/-- Why a run ended without a value. -/
inductive Stop
  /-- The program is at fault. -/
  | fault (reason : Fault)
  /-- The bound on the depth of evaluation was reached. -/
  | exhausted
deriving Repr

/-- Steps of a machine. -/
abbrev Run := EStateM Stop Machine

namespace Run

/-- Ends the run with a fault. -/
def fail {α : Type} (reason : Fault) : Run α :=
  throw (.fault reason)

/-- A computation that can only fault. -/
def ofExcept {α : Type} : Except Fault α → Run α
  | .ok value => pure value
  | .error reason => fail reason

theorem bind_ok {α β : Type} {run : Run α} {f : α → Run β} {value : α} {m m' : Machine}
    (h : run m = .ok value m') : (run >>= f) m = f value m' := by
  show EStateM.bind run f m = _
  unfold EStateM.bind
  rw [h]

theorem bind_error {α β : Type} {run : Run α} {f : α → Run β} {stop : Stop} {m m' : Machine}
    (h : run m = .error stop m') : (run >>= f) m = .error stop m' := by
  show EStateM.bind run f m = _
  unfold EStateM.bind
  rw [h]

/-- A computation on the store. -/
def ofWriting {α : Type} (writing : Store.Writing α) : Run α
  | ⟨store, serial, calls, log, verbose⟩ =>
    match writing store with
    | .ok value store => .ok value ⟨store, serial, calls, log, verbose⟩
    | .error reason store =>
      .error (.fault (.bind reason)) ⟨store, serial, calls, log, verbose⟩

/-- Computations on the store follow each other as their runs do. -/
theorem ofWriting_bind (first second : Store.Writing Unit) :
    ofWriting (first >>= fun _ => second) =
      (ofWriting first >>= fun _ => ofWriting second) := by
  funext m
  obtain ⟨store, serial, calls, log, verbose⟩ := m
  show ofWriting (EStateM.bind first fun _ => second) _ =
    EStateM.bind (ofWriting first) (fun _ => ofWriting second) _
  unfold EStateM.bind ofWriting
  dsimp only
  cases first store with
  | ok u s => rfl
  | error reason s => rfl

/-- The store as it is. -/
def store : Run Store :=
  return (← get).store

/-- A new frame inside the given one, or a root. -/
def push (outer : Option FrameId) : Run FrameId
  | ⟨store, serial, calls, log, verbose⟩ =>
    let id := store.size
    .ok id ⟨store.push outer, serial, calls, log, verbose⟩

/-- Binds a name on the root around a frame. -/
def defineGlobal (id : FrameId) (name : String) (value : Value) : Run Unit
  | ⟨store, serial, calls, log, verbose⟩ =>
    let root := store.root id
    .ok () ⟨store.assign root name value, serial, calls, log, verbose⟩

/-- Marks that all names of a frame are bound. -/
def enter (id : FrameId) : Run Unit
  | ⟨store, serial, calls, log, verbose⟩ =>
    .ok () ⟨store.enter id, serial, calls, log, verbose⟩

/-- A serial number that was not handed out before. -/
def nextSerial : Run Nat
  | ⟨store, serial, calls, log, verbose⟩ =>
    .ok serial ⟨store, serial + 1, calls, log, verbose⟩

/-- What a name means in a frame. -/
def lookup (id : FrameId) (name : String) : Run Value := do
  match (← store).lookup? id name with
  | some value => return value
  | none => fail (.unbound (.symbol name))

/-- The text of a value. -/
def print (style : Style) (value : Value) : Run String := do
  match (← store).print style value with
  | .ok text => return text
  | .error .longNumeral => fail .unprintable
  | .error .circular => throw .exhausted

/-- Writes a line to the log. -/
def logLine (line : String) : Run Unit
  | ⟨store, serial, calls, log, verbose⟩ =>
    .ok () ⟨store, serial, calls, log.push line, verbose⟩

/-- Records the call of a probe; the result is how often that probe was called. -/
def record (call : ProbeCall) : Run Nat
  | ⟨store, serial, calls, log, verbose⟩ =>
    let count := (calls.filter fun earlier => earlier.serial == call.serial).size + 1
    .ok count ⟨store, serial, calls.push call, log, verbose⟩

end Run

end SmallLisp
