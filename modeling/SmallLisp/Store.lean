import SmallLisp.Fault

/-!
# Frames and their store

A frame binds names to values and may lie inside another frame. Frames are kept in a store and
known by their number in it. They are only ever added, so a number stays good, and a frame can only
be made inside one that exists already. Hence the number of the frame outside is smaller than the
frame's own (`Store.outer_lt`), and walking outwards ends.

* `Store.push`: a new frame.
* `Store.chain`: the frames from one outwards to its root.
* `Store.find?`, `Store.lookup?`: the innermost frame of the chain that binds a name, and what it
  binds it to.
* `Store.write`: binds a name in a frame; a name that is there keeps its place and takes the value.

A frame that lies inside another one binds each name once, and only a root may be written to again.
`define` and `defineGlobal` keep that rule and are the operations on which everything else is built.
They are steps of the monad `Writing`, in which what was written before a failure stays written.

The store also keeps its `history`, that is every `Event` that ever changed a frame, in order. No
operation reads it. It is there so that what a run did can be told from what it left behind: a frame
that was written twice to the same effect looks like one that was written once.
-/

namespace SmallLisp

/-- One scope: names with their values, in the order in which the names first arrived. -/
structure Frame where
  /-- The frame outside; a root has none. -/
  outer : Option FrameId
  /-- The bindings. -/
  vars : List (String × Value)
deriving Repr, Inhabited

namespace Frame

/-- The value that the frame binds the name to. -/
def get? (frame : Frame) (name : String) : Option Value :=
  frame.vars.lookup name

/-- Adds a binding, or replaces the value of one in its place. -/
def setVar : List (String × Value) → String → Value → List (String × Value)
  | [], name, value => [(name, value)]
  | var :: vars, name, value =>
    if var.1 == name then (name, value) :: vars else var :: setVar vars name value

/-- The frame with the name bound to the value. -/
def set (frame : Frame) (name : String) (value : Value) : Frame :=
  { frame with vars := setVar frame.vars name value }

/-- Writing a name changes what that name is bound to and nothing else. -/
theorem lookup_setVar (vars : List (String × Value)) (name other : String) (value : Value) :
    (setVar vars name value).lookup other =
      if other = name then some value else vars.lookup other := by
  induction vars with
  | nil =>
    by_cases h : other = name
    · simp [setVar, h]
    · have hne : (other == name) = false := by simp [h]
      simp [setVar, List.lookup_cons, h, hne]
  | cons var vars ih =>
    obtain ⟨bound, old⟩ := var
    by_cases hb : bound = name
    · subst hb
      by_cases h : other = bound
      · simp [setVar, h]
      · have hne : (other == bound) = false := by simp [h]
        simp [setVar, List.lookup_cons, h, hne]
    · by_cases h : other = bound
      · subst h
        simp [setVar, hb]
      · have hne : (other == bound) = false := by simp [h]
        simp [setVar, hb, List.lookup_cons, hne, ih]

@[simp]
theorem get?_set (frame : Frame) (name other : String) (value : Value) :
    (frame.set name value).get? other = if other = name then some value else frame.get? other :=
  lookup_setVar frame.vars name other value

@[simp]
theorem outer_set (frame : Frame) (name : String) (value : Value) :
    (frame.set name value).outer = frame.outer := rfl

end Frame

/-- Something that happens to the frames. -/
inductive Event
  /-- A frame is made, inside the given one or as a root. -/
  | opened (id : FrameId) (outer : Option FrameId)
  /-- A name is bound in a frame. -/
  | bound (id : FrameId) (name : String) (value : Value)
  /-- All names of a frame are bound, and what is evaluated in it begins. -/
  | entered (id : FrameId)
  /-- A definition binds a name on a root. -/
  | defined (root : FrameId) (name : String) (value : Value)
deriving Repr

/-- The frame that it happens to. -/
def Event.frame : Event → FrameId
  | opened id _ => id
  | bound id _ _ => id
  | entered id => id
  | defined root _ _ => root

/-- All frames, each one behind the frame it lies in. -/
structure Store where
  /-- The frames, by number. -/
  frames : Array Frame
  /-- What happened to the frames so far. -/
  history : Array Event
  /-- A frame lies inside an earlier one. -/
  outer_lt : ∀ (id : FrameId) (frame : Frame) (outer : FrameId),
    frames[id]? = some frame → frame.outer = some outer → outer < id

namespace Store

/-- No frames. -/
def empty : Store where
  frames := #[]
  history := #[]
  outer_lt := by simp

instance : Inhabited Store := ⟨empty⟩

/-- The number of frames, which is the number of the next one. -/
def size (store : Store) : Nat :=
  store.frames.size

/-- The frame of that number. -/
def frame? (store : Store) (id : FrameId) : Option Frame :=
  store.frames[id]?

/-- Adds an empty frame inside the given one, or a root if that one does not exist. -/
def push (store : Store) (outer : Option FrameId) : Store where
  frames := store.frames.push ⟨outer.filter (· < store.frames.size), []⟩
  history := store.history.push
    (.opened store.frames.size (outer.filter (· < store.frames.size)))
  outer_lt := by
    intro id frame out hget hout
    rw [Array.getElem?_push] at hget
    split at hget
    · rename_i hid
      cases hget
      have hlt := (Option.filter_eq_some_iff.1 hout).2
      simpa [hid] using hlt
    · exact store.outer_lt id frame out hget hout

/-- Binds a name in a frame, whatever that frame binds already. -/
def write (store : Store) (id : FrameId) (name : String) (value : Value) : Store where
  frames := store.frames.modify id fun frame => frame.set name value
  history := store.history
  outer_lt := by
    intro other frame out hget hout
    rw [Array.getElem?_modify] at hget
    split at hget
    · obtain ⟨before, hbefore, rfl⟩ := Option.map_eq_some_iff.1 hget
      exact store.outer_lt other before out hbefore hout
    · exact store.outer_lt other frame out hget hout

/-- Adds an event to the history. -/
def record (store : Store) (event : Event) : Store :=
  { store with history := store.history.push event }

/-- Binds a name in a frame. -/
def extend (store : Store) (id : FrameId) (name : String) (value : Value) : Store :=
  (store.write id name value).record (.bound id name value)

/-- Binds a name on a root, as a definition does. -/
def assign (store : Store) (root : FrameId) (name : String) (value : Value) : Store :=
  (store.write root name value).record (.defined root name value)

/-- Marks that all names of a frame are bound. -/
def enter (store : Store) (id : FrameId) : Store :=
  store.record (.entered id)

@[simp]
theorem size_push (store : Store) (outer : Option FrameId) :
    (store.push outer).size = store.size + 1 := by
  simp [size, push]

@[simp]
theorem size_write (store : Store) (id : FrameId) (name : String) (value : Value) :
    (store.write id name value).size = store.size := by
  simp [size, write]

/-- A new frame leaves those before it as they are. -/
theorem frame?_push (store : Store) (outer : Option FrameId) (id : FrameId) :
    (store.push outer).frame? id =
      if id = store.size then some ⟨outer.filter (· < store.size), []⟩ else store.frame? id := by
  unfold frame? push size
  rw [Array.getElem?_push]

/-- Writing changes one frame. -/
theorem frame?_write (store : Store) (id other : FrameId) (name : String) (value : Value) :
    (store.write id name value).frame? other =
      if id = other then (store.frame? other).map (·.set name value) else store.frame? other := by
  simp [frame?, write, Array.getElem?_modify]

/-! ## Walking outwards -/

/-- The frames from one outwards, at most so many of them. -/
def chainWithin (store : Store) : Nat → FrameId → List FrameId
  | 0, _ => []
  | steps + 1, id =>
    match store.frame? id with
    | none => []
    | some frame =>
      match frame.outer with
      | none => [id]
      | some outer => id :: chainWithin store steps outer

/-- On the way outwards a frame is followed by those around it. -/
theorem chainWithin_succ {store : Store} {id : FrameId} {frame : Frame}
    (hframe : store.frame? id = some frame) (steps : Nat) :
    store.chainWithin (steps + 1) id =
      frame.outer.elim [id] fun outer => id :: store.chainWithin steps outer := by
  cases houter : frame.outer with
  | none => simp only [chainWithin, hframe, houter, Option.elim_none]
  | some outer => simp only [chainWithin, hframe, houter, Option.elim_some]

/-- The frames from one outwards to its root. -/
def chain (store : Store) (id : FrameId) : List FrameId :=
  store.chainWithin (id + 1) id

/-- The outermost frame around a frame. -/
def root (store : Store) (id : FrameId) : FrameId :=
  (store.chain id).getLast?.getD id

/-- The frame lies in no other. -/
def isRoot (store : Store) (id : FrameId) : Bool :=
  match store.frame? id with
  | some frame => frame.outer.isNone
  | none => false

/-- The value that a frame itself binds the name to. -/
def local? (store : Store) (id : FrameId) (name : String) : Option Value :=
  (store.frame? id).bind (·.get? name)

/-- The innermost frame around a frame that binds the name. -/
def find? (store : Store) (id : FrameId) (name : String) : Option FrameId :=
  (store.chain id).find? fun frame => (store.local? frame name).isSome

/-- What the name means in a frame. -/
def lookup? (store : Store) (id : FrameId) (name : String) : Option Value :=
  (store.chain id).findSome? fun frame => store.local? frame name

/-- The name means a transformer in a frame. -/
def bindsTransformer (store : Store) (id : FrameId) (name : String) : Bool :=
  match store.lookup? id name with
  | some (.transformer ..) => true
  | _ => false

/-! ## Writing -/

/-- Steps that write to the store and may fail; what was written stays. -/
abbrev Writing := EStateM BindError Store

/-- Binds a name in a frame. A frame inside another one binds each name once. -/
def define (id : FrameId) (name value : Value) : Writing Unit := do
  match name with
  | .symbol name =>
    let store ← get
    if (store.local? id name).isSome && !store.isRoot id then throw (.duplicate name)
    modify (·.extend id name value)
  | _ => throw (.notName name)

/-- Binds a name on the root around a frame. -/
def defineGlobal (id : FrameId) (name value : Value) : Writing Unit := do
  match name with
  | .symbol name => modify fun store => store.assign (store.root id) name value
  | _ => throw (.notName name)

/-- Binds names in a frame, one after the other. -/
def defineAll (id : FrameId) (bindings : List (Value × Value)) : Writing Unit :=
  bindings.forM fun binding => define id binding.1 binding.2

end Store

end SmallLisp
