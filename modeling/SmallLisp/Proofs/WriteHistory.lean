import Mathlib.Data.List.Induction
import Mathlib.Data.List.Nodup
import SmallLisp.Proofs.Destructuring
import SmallLisp.Session

/-!
# What names mean is what was written last

Frames are made and written to by five operations, one of them after the other, and some of them
fail halfway. The books are kept beside the frames: in which frame each new one was made, and which
writes took effect, in order. **`Course.faithful`** says that the books tell everything there is to
know about the frames, after every course of operations from no frames at all.

* `Operation`, `Operation.perform`: the operations of an environment.
* `Operation.writes`: the writes of an operation that take effect. An operation that writes several
  names is an attempt to bind one after the other, and stops at the first that the frame refuses.
* `Course.step`, `Course.run`: the frames and the books after an operation and after a course.
* `Outward`, `Received`, `LastReceived`: what the books say. They do not mention the store.
* `Course.Balanced`: the invariant. The bindings of a frame are the writes to it, each name in the
  place of its first write and with the value of its last one (`tally`), and a frame inside another
  one received no name twice. `Balanced.push` and `Balanced.write` are the two ways in which it is
  preserved, `Balanced.received` follows an attempt, `Balanced.step` an operation, and
  `Balanced.course` a course.
-/

namespace SmallLisp

/-! ## Operations -/

/-- A name with its value, and the frame that received it. -/
structure Write where
  /-- The frame. -/
  frame : FrameId
  /-- The name. -/
  name : String
  /-- The value. -/
  value : Value

/-- What can be done to frames. -/
inductive Operation
  /-- A frame is made, inside another one or as a root. -/
  | create (outer : Option FrameId)
  /-- A name is bound in a frame. -/
  | define (id : FrameId) (name value : Value)
  /-- A name is bound on the root around a frame. -/
  | defineGlobal (id : FrameId) (name value : Value)
  /-- Names are bound in a frame, one after the other. -/
  | update (id : FrameId) (bindings : List (Value × Value))
  /-- A pattern is bound in a frame. -/
  | bind (id : FrameId) (pattern value : Value)

/-- The store that is left, whether or not the steps failed. -/
def Store.left (writing : Store.Writing Unit) (store : Store) : Store :=
  match writing store with
  | .ok _ left => left
  | .error _ left => left

/-- The writes that take effect when names are bound in a frame one after the other, up to the first
that is refused. -/
def Store.received (id : FrameId) : List (Value × Value) → Store → List Write
  | [], _ => []
  | (name, value) :: bindings, store =>
    match name, Store.define id name value store with
    | .symbol name, .ok _ store => ⟨id, name, value⟩ :: received id bindings store
    | _, _ => []

namespace Store

/-- A frame refuses a name, or receives it. -/
theorem define_cases (id : FrameId) (given value : Value) (store : Store) :
    (∃ reason, define id given value store = .error reason store) ∨
      ∃ name store', given = .symbol name ∧ define id given value store = .ok () store' := by
  cases given with
  | symbol name =>
    rw [define_symbol]
    split
    · exact .inl ⟨_, rfl⟩
    · exact .inr ⟨name, _, rfl, rfl⟩
  | _ => exact .inl ⟨_, rfl⟩

variable {id : FrameId} {given value : Value} {bindings : List (Value × Value)}
  {store store' : Store}

theorem received_of_error {reason : BindError}
    (h : define id given value store = .error reason store') :
    store.received id ((given, value) :: bindings) = [] := by
  unfold received
  rw [h]
  cases given <;> rfl

theorem received_of_ok {name : String} (h : define id (.symbol name) value store = .ok () store') :
    store.received id ((.symbol name, value) :: bindings) =
      ⟨id, name, value⟩ :: store'.received id bindings := by
  conv_lhs => unfold received
  rw [h]

theorem left_bind (first : Writing Unit) (second : Unit → Writing Unit) :
    store.left (first >>= second) =
      match first store with
      | .ok _ between => between.left (second ())
      | .error _ between => between := by
  show (match EStateM.bind first second store with | .ok _ left => left | .error _ left => left) = _
  unfold EStateM.bind
  cases first store <;> rfl

theorem left_defineAll_of_error {reason : BindError}
    (h : define id given value store = .error reason store') :
    store.left (defineAll id ((given, value) :: bindings)) = store' := by
  rw [defineAll_cons, left_bind, h]

theorem left_defineAll_of_ok (h : define id given value store = .ok () store') :
    store.left (defineAll id ((given, value) :: bindings)) =
      store'.left (defineAll id bindings) := by
  rw [defineAll_cons, left_bind, h]

theorem left_defineAll_singleton (id : FrameId) (given value : Value) (store : Store) :
    store.left (defineAll id [(given, value)]) = store.left (define id given value) := by
  rw [defineAll_cons, left_bind]
  unfold left
  cases define id given value store <;> rfl

/-- Whether something is wrong behind the names makes no difference to the store. -/
theorem left_bindPattern (id : FrameId) (pattern value : Value) (store : Store) :
    store.left (Pattern.bind id pattern value) =
      store.left (defineAll id (Pattern.parts pattern value).targets) := by
  rw [Pattern.bind_eq_carryOut, Pattern.Parts.carryOut, left_bind]
  unfold left
  cases defineAll id (Pattern.parts pattern value).targets store with
  | error reason between => rfl
  | ok u between => cases (Pattern.parts pattern value).failure <;> rfl

end Store

namespace Operation

/-- What the operation does to the store. -/
def perform : Operation → Store.Writing Unit
  | create outer => modify (·.push outer)
  | define id name value => Store.define id name value
  | defineGlobal id name value => Store.defineGlobal id name value
  | update id bindings => Store.defineAll id bindings
  | bind id pattern value => Pattern.bind id pattern value

/-- The writes of the operation that take effect. -/
def writes (store : Store) : Operation → List Write
  | create _ => []
  | define id name value => store.received id [(name, value)]
  | defineGlobal id name value =>
    match name with
    | .symbol name => [⟨store.root id, name, value⟩]
    | _ => []
  | update id bindings => store.received id bindings
  | bind id pattern value => store.received id (Pattern.parts pattern value).targets

/-- The frames that the operation makes, by the frame that each lies in. -/
def opens : Operation → List (Option FrameId)
  | create outer => [outer]
  | _ => []

/-- The frames that the operation speaks of. -/
def mentions : Operation → List FrameId
  | create outer => outer.toList
  | define id _ _ => [id]
  | defineGlobal id _ _ => [id]
  | update id _ => [id]
  | bind id _ _ => [id]

end Operation

/-! ## Courses of operations -/

/-- The frames and the books after some operations. -/
structure Course where
  /-- The frames. -/
  store : Store
  /-- The frame that each frame was made in. -/
  links : List (Option FrameId)
  /-- The writes that took effect, in order. -/
  writes : List Write

namespace Course

/-- Nothing has been done. -/
def start : Course :=
  ⟨.empty, [], []⟩

/-- One more operation, which may fail. -/
def step (course : Course) (op : Operation) : Course where
  store := course.store.left op.perform
  links := course.links ++ op.opens
  writes := course.writes ++ op.writes course.store

/-- Further operations, in order. -/
def steps (course : Course) (ops : List Operation) : Course :=
  ops.foldl step course

/-- The operations in order, from no frames. -/
def run (ops : List Operation) : Course :=
  start.steps ops

/-- If there are so many frames, each operation speaks of frames that exist by then. -/
def admits : Nat → List Operation → Bool
  | _, [] => true
  | count, op :: ops => op.mentions.all (· < count) && admits (count + op.opens.length) ops

theorem step_of_opens_eq_nil {course : Course} {op : Operation} (h : op.opens = []) :
    course.step op =
      ⟨course.store.left op.perform, course.links, course.writes ++ op.writes course.store⟩ := by
  rw [step, h, List.append_nil]

/-- What is made is made behind what was made before. -/
theorem links_steps (course : Course) (ops : List Operation) :
    ∃ tail, (course.steps ops).links = course.links ++ tail := by
  induction ops generalizing course with
  | nil => exact ⟨[], (List.append_nil _).symm⟩
  | cons op ops ih =>
    obtain ⟨tail, htail⟩ := ih (course.step op)
    exact ⟨op.opens ++ tail, htail.trans (List.append_assoc _ _ _)⟩

theorem admits_cons {count : Nat} {op : Operation} {ops : List Operation} :
    admits count (op :: ops) = true ↔
      (∀ id ∈ op.mentions, id < count) ∧ admits (count + op.opens.length) ops = true := by
  simp [admits]

end Course

/-! ## The books -/

/-- The frames from one outwards to a root. -/
inductive Outward (links : List (Option FrameId)) : FrameId → List FrameId → Prop
  | root {id : FrameId} : links[id]? = some none → Outward links id [id]
  | inside {id outer : FrameId} {path : List FrameId} :
      links[id]? = some (some outer) → Outward links outer path → Outward links id (id :: path)

/-- The frame received the name. -/
def Received (writes : List Write) (id : FrameId) (name : String) : Prop :=
  ∃ write ∈ writes, write.frame = id ∧ write.name = name

/-- The value is the last one that the frame received the name with. -/
def LastReceived (writes : List Write) (id : FrameId) (name : String) (value : Value) : Prop :=
  ∃ earlier later, writes = earlier ++ ⟨id, name, value⟩ :: later ∧ ¬ Received later id name

/-- Writes to a frame, as names with values. -/
def writesTo (id : FrameId) (writes : List Write) : List (String × Value) :=
  (writes.filter (·.frame == id)).map fun write => (write.name, write.value)

/-- What is bound if these names are written in this order. -/
def tally (writes : List (String × Value)) : List (String × Value) :=
  writes.foldl (fun vars write => Frame.setVar vars write.1 write.2) []

theorem received_append {first second : List Write} {id : FrameId} {name : String} :
    Received (first ++ second) id name ↔ Received first id name ∨ Received second id name := by
  simp only [Received, List.mem_append, or_and_right, exists_or]

theorem received_singleton {write : Write} {id : FrameId} {name : String} :
    Received [write] id name ↔ write.frame = id ∧ write.name = name := by
  simp [Received]

/-- The last write of all is the last one of its name. -/
theorem lastReceived_concat {writes : List Write} {write : Write} {id : FrameId} {name : String}
    {value : Value} :
    LastReceived (writes ++ [write]) id name value ↔
      if write.frame = id ∧ write.name = name then write.value = value
      else LastReceived writes id name value := by
  constructor
  · rintro ⟨earlier, later, hwrites, hlater⟩
    rcases List.eq_nil_or_concat later with rfl | ⟨later', last, rfl⟩
    · obtain ⟨-, hlast⟩ := List.append_inj' hwrites rfl
      obtain rfl := List.singleton_inj.1 hlast
      simp
    · rw [List.concat_eq_append, ← List.cons_append, ← List.append_assoc] at hwrites
      obtain ⟨rfl, hlast⟩ := List.append_inj' hwrites rfl
      obtain rfl := List.singleton_inj.1 hlast
      rw [List.concat_eq_append, received_append, received_singleton, not_or] at hlater
      rw [if_neg hlater.2]
      exact ⟨earlier, later', rfl, hlater.1⟩
  · intro h
    split at h
    · rename_i hthis
      obtain ⟨frame, given, last⟩ := write
      obtain ⟨rfl, rfl⟩ := hthis
      subst h
      exact ⟨writes, [], rfl, by simp [Received]⟩
    · rename_i hother
      obtain ⟨earlier, later, rfl, hlater⟩ := h
      refine ⟨earlier, later ++ [write], by simp, ?_⟩
      rw [received_append, received_singleton]
      exact not_or.2 ⟨hlater, hother⟩

theorem writesTo_of_within {writes : List Write} {count : Nat} {id : FrameId}
    (h : ∀ write ∈ writes, write.frame < count) (hid : count ≤ id) : writesTo id writes = [] := by
  rw [writesTo, List.map_eq_nil_iff, List.filter_eq_nil_iff]
  intro write hwrite hframe
  rw [← beq_iff_eq.1 hframe] at hid
  exact Nat.not_lt.2 hid (h write hwrite)

theorem received_of_mem_writesTo {writes : List Write} {id : FrameId} {name : String}
    (h : name ∈ (writesTo id writes).map (·.1)) : Received writes id name := by
  simpa [writesTo, Received, and_assoc] using h

theorem tally_concat (writes : List (String × Value)) (write : String × Value) :
    tally (writes ++ [write]) = Frame.setVar (tally writes) write.1 write.2 := by
  simp [tally]

theorem writesTo_append (id : FrameId) (first second : List Write) :
    writesTo id (first ++ second) = writesTo id first ++ writesTo id second := by
  simp [writesTo]

/-- Another write to the frame is tallied. -/
theorem tally_writesTo_concat (id : FrameId) (writes : List Write) (write : Write) :
    tally (writesTo id (writes ++ [write])) =
      if write.frame = id then Frame.setVar (tally (writesTo id writes)) write.name write.value
      else tally (writesTo id writes) := by
  rw [writesTo_append]
  split
  · rename_i h
    have hthis : writesTo id [write] = [(write.name, write.value)] := by simp [writesTo, h]
    rw [hthis, tally_concat]
  · rename_i h
    have hother : writesTo id [write] = [] := by simp [writesTo, h]
    rw [hother, List.append_nil]

/-- The tally binds a name to the value of its last write. -/
theorem lookup_tally_iff {writes : List Write} {id : FrameId} {name : String} {value : Value} :
    (tally (writesTo id writes)).lookup name = some value ↔ LastReceived writes id name value := by
  induction writes using List.reverseRecOn with
  | nil => simp [tally, writesTo, LastReceived]
  | append_singleton writes write ih =>
    rw [tally_writesTo_concat, lastReceived_concat]
    by_cases hframe : write.frame = id
    · rw [if_pos hframe, Frame.lookup_setVar]
      by_cases hname : write.name = name
      · simp [hframe, hname]
      · rw [if_neg (Ne.symm hname), if_neg fun h => hname h.2]
        exact ih
    · rw [if_neg hframe, if_neg fun h => hframe h.1]
      exact ih

/-- The tally binds the names that were written. -/
theorem isSome_lookup_tally_iff {writes : List Write} {id : FrameId} {name : String} :
    ((tally (writesTo id writes)).lookup name).isSome = true ↔ Received writes id name := by
  induction writes using List.reverseRecOn with
  | nil => simp [tally, writesTo, Received]
  | append_singleton writes write ih =>
    rw [tally_writesTo_concat, received_append, received_singleton]
    by_cases hframe : write.frame = id
    · rw [if_pos hframe, Frame.lookup_setVar]
      by_cases hname : write.name = name
      · simp [hframe, hname]
      · rw [if_neg (Ne.symm hname), ih]
        simp [hname]
    · rw [if_neg hframe, ih]
      simp [hframe]

/-- In a frame that has each name once, a binding is what its name means. -/
theorem Frame.get?_of_mem_vars {frame : Frame} (hnodup : frame.names.Nodup)
    {var : String × Value} (hvar : var ∈ frame.vars) : frame.get? var.1 = some var.2 := by
  obtain ⟨before, after, hvars⟩ := List.append_of_mem hvar
  rw [names, hvars, List.map_append, List.nodup_append] at hnodup
  refine List.lookup_eq_some_iff.2 ⟨before, after, hvars, fun other hother => ?_⟩
  have hne := hnodup.2.2 other.1 (List.mem_map_of_mem hother) var.1 (by simp)
  simpa using hne.symm

theorem names_setVar (vars : List (String × Value)) (name : String) (value : Value) :
    (Frame.setVar vars name value).map (·.1) =
      if name ∈ vars.map (·.1) then vars.map (·.1) else vars.map (·.1) ++ [name] := by
  induction vars with
  | nil => rfl
  | cons var vars ih =>
    rw [Frame.setVar]
    by_cases hvar : var.1 = name
    · simp [hvar]
    · have hne : (var.1 == name) = false := by simpa using hvar
      rw [hne, if_neg Bool.false_ne_true, List.map_cons, ih]
      by_cases hmem : name ∈ vars.map (·.1)
      · rw [if_pos hmem, if_pos (by simp [hmem])]
        rfl
      · rw [if_neg hmem, if_neg (by simp [hmem, Ne.symm hvar])]
        rfl

theorem nodup_tally (writes : List (String × Value)) : ((tally writes).map (·.1)).Nodup := by
  induction writes using List.reverseRecOn with
  | nil => exact List.nodup_nil
  | append_singleton writes write ih =>
    rw [tally_concat, names_setVar]
    split
    · exact ih
    · rename_i hmem
      exact List.nodup_append.2 ⟨ih, by simp, by
        rintro name hname last hlast rfl
        obtain rfl := List.mem_singleton.1 hlast
        exact hmem hname⟩

/-- The tally has its names in the order of the first writes. -/
theorem names_tally (writes : List (String × Value)) :
    (tally writes).map (·.1) = (writes.map (·.1)).eraseDups := by
  induction writes using List.reverseRecOn with
  | nil => rfl
  | append_singleton writes write ih =>
    rw [tally_concat, names_setVar, ih, List.map_append, List.eraseDups_append]
    by_cases hmem : write.1 ∈ writes.map (·.1)
    · rw [if_pos (List.mem_eraseDups.2 hmem)]
      simp [List.removeAll, hmem]
    · rw [if_neg (fun h => hmem (List.mem_eraseDups.1 h))]
      simp [List.removeAll, hmem, List.eraseDups_cons]

/-! ## The books are kept -/

/-- The frames are what the books say. -/
structure Course.Balanced (course : Course) : Prop where
  /-- There are as many frames as were made. -/
  size : course.store.size = course.links.length
  /-- Frames were written to after they were made. -/
  within : ∀ write ∈ course.writes, write.frame < course.links.length
  /-- Each frame lies where it was made, and binds what was written to it. -/
  frame : ∀ id frame, course.store.frame? id = some frame →
    course.links[id]? = some frame.outer ∧ frame.vars = tally (writesTo id course.writes)
  /-- A frame inside another one received no name twice. -/
  once : ∀ id outer, course.links[id]? = some (some outer) →
    ((writesTo id course.writes).map (·.1)).Nodup

namespace Course.Balanced

variable {store : Store} {links : List (Option FrameId)} {writes : List Write}

theorem start : Course.start.Balanced where
  size := rfl
  within _ h := by cases h
  frame _ _ h := by cases h
  once _ _ h := by cases h

/-- A frame binds a name exactly if it received it. -/
theorem isSome_local?_iff (h : Balanced ⟨store, links, writes⟩) {id : FrameId}
    (hid : id < links.length) {name : String} :
    (store.local? id name).isSome = true ↔ Received writes id name := by
  obtain ⟨frame, hframe⟩ := Store.frame?_eq_some_of_lt (hid.trans_eq h.size.symm)
  rw [← isSome_lookup_tally_iff, ← (h.frame id frame hframe).2, Store.local?, hframe]
  rfl

/-- A frame binds a name to the value that it received last. -/
theorem local?_iff (h : Balanced ⟨store, links, writes⟩) {id : FrameId}
    (hid : id < links.length) {name : String} {value : Value} :
    store.local? id name = some value ↔ LastReceived writes id name value := by
  obtain ⟨frame, hframe⟩ := Store.frame?_eq_some_of_lt (hid.trans_eq h.size.symm)
  rw [← lookup_tally_iff, ← (h.frame id frame hframe).2, Store.local?, hframe]
  rfl

/-- A frame is a root exactly if it was made as one. -/
theorem isRoot_iff (h : Balanced ⟨store, links, writes⟩) {id : FrameId}
    (hid : id < links.length) : store.isRoot id = true ↔ links[id]? = some none := by
  obtain ⟨frame, hframe⟩ := Store.frame?_eq_some_of_lt (hid.trans_eq h.size.symm)
  rw [(h.frame id frame hframe).1, Store.isRoot_iff]
  simp [hframe]

/-- A frame is made. -/
theorem push (h : Balanced ⟨store, links, writes⟩) {outer : Option FrameId}
    (houter : ∀ id ∈ outer, id < links.length) :
    Balanced ⟨store.push outer, links ++ [outer], writes⟩ where
  size := by
    show (store.push outer).size = (links ++ [outer]).length
    rw [Store.size_push, List.length_append, h.size]
    rfl
  within write hwrite := by
    rw [List.length_append]
    exact Nat.lt_add_right _ (h.within write hwrite)
  frame id frame hframe := by
    have hsize : store.size = links.length := h.size
    have hfilter : outer.filter (· < store.size) = outer := by
      cases outer with
      | none => rfl
      | some outer => simp [Option.filter_some, hsize, houter outer rfl]
    change (store.push outer).frame? id = some frame at hframe
    rw [Store.frame?_push, hfilter] at hframe
    split at hframe
    · rename_i hid
      cases hframe
      refine ⟨by simp [hid, hsize], ?_⟩
      rw [writesTo_of_within h.within (hsize.ge.trans_eq hid.symm)]
      rfl
    · have hlt := (Store.lt_size_of_frame? hframe).trans_eq hsize
      rw [List.getElem?_append_left hlt]
      exact h.frame id frame hframe
  once id outer' hlink := by
    change (links ++ [outer])[id]? = some (some outer') at hlink
    rw [List.getElem?_append] at hlink
    split at hlink
    · exact h.once id outer' hlink
    · rename_i hid
      rw [writesTo_of_within h.within (Nat.not_lt.1 hid)]
      exact List.nodup_nil

/-- A name is written, which a frame inside another one has not received. -/
theorem write (h : Balanced ⟨store, links, writes⟩) {id : FrameId} (hid : id < links.length)
    {name : String} {value : Value}
    (hfree : ∀ outer, links[id]? = some (some outer) → ¬ Received writes id name) {store' : Store}
    (hsize : store'.size = store.size)
    (hframes : ∀ other, store'.frame? other =
      if id = other then (store.frame? other).map (·.set name value) else store.frame? other) :
    Balanced ⟨store', links, writes ++ [⟨id, name, value⟩]⟩ where
  size := hsize.trans h.size
  within := by
    intro write hwrite
    rcases List.mem_append.1 hwrite with hwrite | hwrite
    · exact h.within write hwrite
    · rw [List.mem_singleton.1 hwrite]
      exact hid
  frame other frame hframe := by
    change store'.frame? other = some frame at hframe
    rw [hframes] at hframe
    rw [tally_writesTo_concat]
    split at hframe
    · rename_i heq
      obtain ⟨before, hbefore, rfl⟩ := Option.map_eq_some_iff.1 hframe
      obtain ⟨hlink, hvars⟩ := h.frame other before hbefore
      rw [if_pos heq, ← hvars]
      exact ⟨hlink, rfl⟩
    · rename_i hne
      rw [if_neg hne]
      exact h.frame other frame hframe
  once other outer hlink := by
    rw [writesTo_append]
    by_cases heq : id = other
    · subst heq
      have hthis : writesTo id [⟨id, name, value⟩] = [(name, value)] := by simp [writesTo]
      rw [hthis, List.map_append, List.map_singleton]
      refine List.nodup_append.2 ⟨h.once id outer hlink, by simp, ?_⟩
      rintro other hmem last hlast rfl
      obtain rfl := List.mem_singleton.1 hlast
      exact hfree outer hlink (received_of_mem_writesTo hmem)
    · have hother : writesTo other [⟨id, name, value⟩] = [] := by simp [writesTo, heq]
      rw [hother, List.append_nil]
      exact h.once other outer hlink

/-- A frame that does not refuse a name receives it. -/
theorem define (h : Balanced ⟨store, links, writes⟩) {id : FrameId} (hid : id < links.length)
    {name : String} {value : Value} {store' : Store}
    (hdefine : Store.define id (.symbol name) value store = .ok () store') :
    Balanced ⟨store', links, writes ++ [⟨id, name, value⟩]⟩ := by
  rw [Store.define_symbol] at hdefine
  split at hdefine
  · cases hdefine
  · rename_i hguard
    cases hdefine
    refine h.write hid ?_ (store.size_extend id name value)
      fun other => store.frame?_extend id other name value
    intro outer hlink hreceived
    apply hguard
    rw [(h.isSome_local?_iff hid).2 hreceived, Bool.true_and, Bool.not_eq_true',
      Bool.eq_false_iff, ne_eq, h.isRoot_iff hid, hlink]
    simp

/-- The root around a frame was made as a root. -/
theorem root (h : Balanced ⟨store, links, writes⟩) {id : FrameId} (hid : id < links.length) :
    store.root id < links.length ∧ links[store.root id]? = some none := by
  have hroot := Store.isRoot_root (hid.trans_eq h.size.symm)
  obtain ⟨frame, hframe, -⟩ := Store.isRoot_iff.1 hroot
  have hlt := (Store.lt_size_of_frame? hframe).trans_eq h.size
  exact ⟨hlt, (h.isRoot_iff hlt).1 hroot⟩

/-- The root around a frame receives every name. -/
theorem assign (h : Balanced ⟨store, links, writes⟩) {id : FrameId} (hid : id < links.length)
    (name : String) (value : Value) :
    Balanced ⟨store.assign (store.root id) name value, links,
      writes ++ [⟨store.root id, name, value⟩]⟩ := by
  obtain ⟨hlt, hlink⟩ := h.root hid
  refine h.write hlt ?_ (store.size_assign _ name value)
    fun other => store.frame?_assign _ other name value
  intro outer hinside
  rw [hlink] at hinside
  cases hinside

/-- Names are bound in a frame one after the other, up to the first that it refuses. -/
theorem received (h : Balanced ⟨store, links, writes⟩) {id : FrameId} (hid : id < links.length)
    (bindings : List (Value × Value)) :
    Balanced ⟨store.left (Store.defineAll id bindings), links,
      writes ++ store.received id bindings⟩ := by
  induction bindings generalizing store writes with
  | nil =>
    rw [Store.received, List.append_nil]
    exact h
  | cons binding bindings ih =>
    obtain ⟨given, value⟩ := binding
    rcases Store.define_cases id given value store with
      ⟨reason, hrefused⟩ | ⟨name, between, rfl, htaken⟩
    · rw [Store.left_defineAll_of_error hrefused, Store.received_of_error hrefused, List.append_nil]
      exact h
    · rw [Store.left_defineAll_of_ok htaken, Store.received_of_ok htaken, List.append_cons]
      exact ih (h.define hid htaken)

/-- An operation that speaks of frames that exist keeps the books balanced. -/
theorem step {course : Course} (h : course.Balanced) {op : Operation}
    (hop : ∀ id ∈ op.mentions, id < course.links.length) : (course.step op).Balanced := by
  cases op with
  | create outer =>
    have hpushed := h.push fun id hid => hop id (Option.mem_toList.2 hid)
    rw [← List.append_nil course.writes] at hpushed
    exact hpushed
  | define id given value =>
    have hid := hop id (List.mem_singleton.2 rfl)
    have hreceived := h.received hid [(given, value)]
    rw [Store.left_defineAll_singleton] at hreceived
    rw [step_of_opens_eq_nil rfl]
    exact hreceived
  | defineGlobal id given value =>
    have hid := hop id (List.mem_singleton.2 rfl)
    rw [step_of_opens_eq_nil rfl]
    cases given with
    | symbol name => exact h.assign hid name value
    | _ =>
      show Balanced ⟨course.store, course.links, course.writes ++ []⟩
      rw [List.append_nil]
      exact h
  | update id bindings =>
    have hid := hop id (List.mem_singleton.2 rfl)
    rw [step_of_opens_eq_nil rfl]
    exact h.received hid bindings
  | bind id pattern value =>
    have hid := hop id (List.mem_singleton.2 rfl)
    have hreceived := h.received hid (Pattern.parts pattern value).targets
    rw [← Store.left_bindPattern] at hreceived
    rw [step_of_opens_eq_nil rfl]
    exact hreceived

/-- So does a course of such operations. -/
theorem steps {course : Course} (h : course.Balanced) {ops : List Operation}
    (hops : admits course.links.length ops = true) : (course.steps ops).Balanced := by
  induction ops generalizing course with
  | nil => exact h
  | cons op ops ih =>
    obtain ⟨hop, hrest⟩ := admits_cons.1 hops
    rw [← List.length_append] at hrest
    exact ih (h.step hop) hrest

end Course.Balanced

/-! ## Walking outwards -/

/-- There is one way outwards. -/
theorem Outward.unique {links : List (Option FrameId)} {id : FrameId} {path path' : List FrameId}
    (h : Outward links id path) (h' : Outward links id path') : path' = path := by
  induction h generalizing path' with
  | root hlink =>
    cases h' with
    | root => rfl
    | inside hlink' => rw [hlink] at hlink'; cases hlink'
  | inside hlink _ ih =>
    cases h' with
    | root hlink' => rw [hlink] at hlink'; cases hlink'
    | inside hlink' hpath' =>
      rw [hlink] at hlink'
      cases hlink'
      rw [ih hpath']

/-- The way outwards leads through frames that exist. -/
theorem Outward.lt {links : List (Option FrameId)} {id : FrameId} {path : List FrameId}
    (h : Outward links id path) : ∀ other ∈ path, other < links.length := by
  induction h with
  | root hlink =>
    intro other hother
    rw [List.mem_singleton.1 hother]
    exact (List.getElem?_eq_some_iff.1 hlink).1
  | inside hlink _ ih =>
    intro other hother
    rcases List.mem_cons.1 hother with rfl | hother
    · exact (List.getElem?_eq_some_iff.1 hlink).1
    · exact ih other hother

/-- What is made later does not change the way outwards. -/
theorem Outward.append {links : List (Option FrameId)} {id : FrameId} {path : List FrameId}
    (h : Outward links id path) (more : List (Option FrameId)) :
    Outward (links ++ more) id path := by
  induction h with
  | root hlink =>
    refine .root ?_
    rwa [List.getElem?_append_left (List.getElem?_eq_some_iff.1 hlink).1]
  | inside hlink _ ih =>
    refine .inside ?_ ih
    rwa [List.getElem?_append_left (List.getElem?_eq_some_iff.1 hlink).1]

namespace Course.Balanced

variable {store : Store} {links : List (Option FrameId)} {writes : List Write}

/-- The frames around a frame are those on its way outwards. -/
theorem outward_chain (h : Balanced ⟨store, links, writes⟩) {id : FrameId}
    (hid : id < links.length) : Outward links id (store.chain id) := by
  induction id using Nat.strongRecOn with
  | _ id ih =>
    obtain ⟨frame, hframe⟩ := Store.frame?_eq_some_of_lt (hid.trans_eq h.size.symm)
    have hlink := (h.frame id frame hframe).1
    cases houter : frame.outer with
    | none =>
      rw [Store.chain_of_root hframe houter]
      rw [houter] at hlink
      exact .root hlink
    | some outer =>
      have hlt := store.outer_lt id frame outer hframe houter
      rw [Store.chain_of_outer hframe houter]
      rw [houter] at hlink
      exact .inside hlink (ih outer hlt (hlt.trans hid))

theorem chain_eq (h : Balanced ⟨store, links, writes⟩) {id : FrameId} {path : List FrameId}
    (hpath : Outward links id path) : store.chain id = path := by
  have hid : id < links.length := by
    cases hpath with
    | root hlink => exact (List.getElem?_eq_some_iff.1 hlink).1
    | inside hlink => exact (List.getElem?_eq_some_iff.1 hlink).1
  exact hpath.unique (h.outward_chain hid)

/-- What a name means is what the first frame outwards that received it received last. -/
theorem lookup?_iff (h : Balanced ⟨store, links, writes⟩) {id : FrameId} {path : List FrameId}
    (hpath : Outward links id path) {name : String} {value : Value} :
    store.lookup? id name = some value ↔
      ∃ before frame after, path = before ++ frame :: after ∧
        (∀ other ∈ before, ¬ Received writes other name) ∧
        LastReceived writes frame name value := by
  have hlt := hpath.lt
  rw [Store.lookup?, h.chain_eq hpath, List.findSome?_eq_some_iff]
  constructor
  · rintro ⟨before, frame, after, rfl, hlocal, hbefore⟩
    refine ⟨before, frame, after, rfl, fun other hother hreceived => ?_, ?_⟩
    · have hother' := (h.isSome_local?_iff (hlt other (by simp [hother]))).2 hreceived
      rw [hbefore other hother] at hother'
      cases hother'
    · exact (h.local?_iff (hlt frame (by simp))).1 hlocal
  · rintro ⟨before, frame, after, rfl, hbefore, hlast⟩
    refine ⟨before, frame, after, rfl, (h.local?_iff (hlt frame (by simp))).2 hlast,
      fun other hother => ?_⟩
    have hother' := (h.isSome_local?_iff (hlt other (by simp [hother]))).not.2
      (hbefore other hother)
    simpa using hother'

/-- The frame that binds a name is the first one outwards that received it. -/
theorem find?_iff (h : Balanced ⟨store, links, writes⟩) {id : FrameId} {path : List FrameId}
    (hpath : Outward links id path) {name : String} {frame : FrameId} :
    store.find? id name = some frame ↔
      ∃ before after, path = before ++ frame :: after ∧
        (∀ other ∈ before, ¬ Received writes other name) ∧ Received writes frame name := by
  have hlt := hpath.lt
  have hlocal : ∀ other ∈ path,
      ((store.local? other name).isSome = true ↔ Received writes other name) :=
    fun other hother => h.isSome_local?_iff (hlt other hother)
  rw [Store.find?, h.chain_eq hpath, List.find?_eq_some_iff_append]
  constructor
  · rintro ⟨hframe, before, after, rfl, hbefore⟩
    refine ⟨before, after, rfl, fun other hother hreceived => ?_, (hlocal frame (by simp)).1 hframe⟩
    have hother' := (hlocal other (by simp [hother])).2 hreceived
    exact absurd hother' (by simpa using hbefore other hother)
  · rintro ⟨before, after, rfl, hbefore, hframe⟩
    refine ⟨(hlocal frame (by simp)).2 hframe, before, after, rfl, fun other hother => ?_⟩
    have hother' := (hlocal other (by simp [hother])).not.2 (hbefore other hother)
    simpa using hother'

/-- A name means nothing if no frame outwards received it. -/
theorem lookup?_eq_none_iff (h : Balanced ⟨store, links, writes⟩) {id : FrameId}
    {path : List FrameId} (hpath : Outward links id path) {name : String} :
    store.lookup? id name = none ↔ ∀ frame ∈ path, ¬ Received writes frame name := by
  rw [Store.lookup?, h.chain_eq hpath, List.findSome?_eq_none_iff]
  refine forall₂_congr fun frame hframe => ?_
  rw [← h.isSome_local?_iff (hpath.lt frame hframe), Option.not_isSome_iff_eq_none]

/-- A frame is found if some frame outwards received the name. -/
theorem isSome_find?_iff (h : Balanced ⟨store, links, writes⟩) {id : FrameId}
    {path : List FrameId} (hpath : Outward links id path) {name : String} :
    (store.find? id name).isSome = true ↔ ∃ frame ∈ path, Received writes frame name := by
  rw [Store.find?, h.chain_eq hpath, List.find?_isSome]
  refine exists_congr fun frame => and_congr_right fun hframe => ?_
  exact h.isSome_local?_iff (hpath.lt frame hframe)

/-- A frame inside another one received a name at most once. -/
theorem length_filter_le (h : Balanced ⟨store, links, writes⟩) {id outer : FrameId}
    (hlink : links[id]? = some (some outer)) (name : String) :
    (writes.filter fun write => write.frame == id && write.name == name).length ≤ 1 := by
  have hcount := List.nodup_iff_count_le_one.1 (h.once id outer hlink) name
  have hsame : ((writesTo id writes).map (·.1)).count name =
      (writes.filter fun write => write.frame == id && write.name == name).length := by
    rw [writesTo, List.map_map, List.count, List.countP_map, List.countP_filter,
      List.countP_eq_length_filter]
    congr 2
    funext write
    exact Bool.and_comm _ _
  exact hsame ▸ hcount

/-- What the frames bind. -/
theorem exists_frame (h : Balanced ⟨store, links, writes⟩) {id : FrameId}
    (hid : id < links.length) :
    ∃ frame, store.frame? id = some frame ∧ links[id]? = some frame.outer ∧
      frame.names.Nodup ∧
      frame.names = ((writes.filter (·.frame == id)).map (·.name)).eraseDups ∧
      ∀ var ∈ frame.vars, LastReceived writes id var.1 var.2 := by
  obtain ⟨frame, hframe⟩ := Store.frame?_eq_some_of_lt (hid.trans_eq h.size.symm)
  obtain ⟨hlink, hvars⟩ := h.frame id frame hframe
  have hnames : frame.names = ((writes.filter (·.frame == id)).map (·.name)).eraseDups := by
    rw [Frame.names, hvars, names_tally, writesTo, List.map_map]
    rfl
  have hnodup : frame.names.Nodup := by
    rw [Frame.names, hvars]
    exact nodup_tally _
  refine ⟨frame, hframe, hlink, hnodup, hnames, fun var hvar => ?_⟩
  rw [← lookup_tally_iff, ← hvars]
  exact Frame.get?_of_mem_vars hnodup hvar

/-- Frames stay where they are. -/
theorem lasting {course : Course} (h : course.Balanced) {more : List Operation}
    (hmore : admits course.links.length more = true) {id : FrameId}
    (hid : id < course.links.length) :
    ((course.steps more).store.frame? id).map (·.outer) =
        (course.store.frame? id).map (·.outer) ∧
      (course.steps more).store.root id = course.store.root id := by
  obtain ⟨tail, htail⟩ := links_steps course more
  have hlater := h.steps hmore
  have hid' : id < (course.steps more).links.length := by
    rw [htail, List.length_append]
    exact Nat.lt_add_right _ hid
  obtain ⟨frame, hframe, hlink, -⟩ := h.exists_frame hid
  obtain ⟨frame', hframe', hlink', -⟩ := hlater.exists_frame hid'
  change (course.steps more).store.frame? id = _ at hframe'
  change (course.steps more).links[id]? = _ at hlink'
  constructor
  · rw [htail, List.getElem?_append_left hid, hlink] at hlink'
    rw [hframe, hframe', Option.map_some, Option.map_some, Option.some.inj hlink']
  · have hpath := (h.outward_chain hid).append tail
    rw [← htail] at hpath
    exact Store.root_eq_of_chain (hlater.chain_eq hpath)

end Course.Balanced

/-! ## What the books tell -/

namespace Session

variable {id : FrameId} {name : String} {m : Machine}

/-- Asking for a name answers what it means, or that it is unbound. -/
theorem outcome_lookup :
    (lookup id (.symbol name)).outcome m =
      match m.store.lookup? id name with
      | some value => .ok value
      | none => .error (.fault (.unbound (.symbol name))) := by
  have hrun : lookup id (.symbol name) m =
      (match m.store.lookup? id name with
        | some value => (pure value : Run Value)
        | none => Run.fail (.unbound (.symbol name))) m := rfl
  rw [Run.outcome, hrun]
  cases m.store.lookup? id name <;> rfl

theorem outcome_find? :
    (find? id (.symbol name)).outcome m = .ok (m.store.find? id name) := rfl

end Session

/-- What a session is told about frames is what the books say.

The books are the frame that each frame was made in, and the writes that took effect. An operation
writes to the frame that it names, a definition on the root to the root around it. -/
structure Course.Faithful (course : Course) : Prop where
  /-- Every frame has a way outwards, and it ends at the root. -/
  path : ∀ id < course.links.length, ∃ path, Outward course.links id path ∧
    path.getLast? = some (course.store.root id)
  /-- Asking for a name gives the value that the first frame outwards that received it received
  last. -/
  lookup : ∀ m, m.store = course.store → ∀ id path, Outward course.links id path →
    ∀ name value, (Session.lookup id (.symbol name)).outcome m = .ok value ↔
      ∃ before frame after, path = before ++ frame :: after ∧
        (∀ other ∈ before, ¬ Received course.writes other name) ∧
        LastReceived course.writes frame name value
  /-- It is refused, as an unbound name, exactly if no frame outwards received it. -/
  unbound : ∀ m, m.store = course.store → ∀ id path, Outward course.links id path →
    ∀ name, (Session.lookup id (.symbol name)).outcome m =
        .error (.fault (.unbound (.symbol name))) ↔
      ∀ frame ∈ path, ¬ Received course.writes frame name
  /-- The frame that is found is the first one outwards that received the name. -/
  find : ∀ m, m.store = course.store → ∀ id path, Outward course.links id path →
    ∀ name frame, (Session.find? id (.symbol name)).outcome m = .ok (some frame) ↔
      ∃ before after, path = before ++ frame :: after ∧
        (∀ other ∈ before, ¬ Received course.writes other name) ∧
        Received course.writes frame name
  /-- There is one exactly if some frame outwards received the name. -/
  contains : ∀ m, m.store = course.store → ∀ id path, Outward course.links id path →
    ∀ name, (∃ frame, (Session.find? id (.symbol name)).outcome m = .ok (some frame)) ↔
      ∃ frame ∈ path, Received course.writes frame name
  /-- A frame inside another one received a name at most once. -/
  once : ∀ id outer, course.links[id]? = some (some outer) → ∀ name,
    (course.writes.filter fun write => write.frame == id && write.name == name).length ≤ 1
  /-- A definition on the root writes to the root, and to no frame inside another one. -/
  defineGlobal : ∀ id < course.links.length, ∀ name value,
    (∀ write ∈ (Operation.defineGlobal id name value).writes course.store,
      write.frame = course.store.root id) ∧
    ∀ other outer, course.links[other]? = some (some outer) →
      (course.step (.defineGlobal id name value)).store.frame? other = course.store.frame? other
  /-- A frame has each name once, in the order of the first writes, and with the last value. -/
  vars : ∀ id < course.links.length, ∃ frame, course.store.frame? id = some frame ∧
    course.links[id]? = some frame.outer ∧ frame.names.Nodup ∧
    frame.names = ((course.writes.filter (·.frame == id)).map (·.name)).eraseDups ∧
    ∀ var ∈ frame.vars, LastReceived course.writes id var.1 var.2
  /-- Whatever is done later, a frame lies in the same frame, and the same root is around it. -/
  lasting : ∀ more, Course.admits course.links.length more = true →
    ∀ id < course.links.length,
      ((course.steps more).store.frame? id).map (·.outer) =
          (course.store.frame? id).map (·.outer) ∧
        (course.steps more).store.root id = course.store.root id

namespace Course

/-- A definition on the root leaves the frames inside other frames as they are. -/
theorem Balanced.frame?_defineGlobal {course : Course} (h : course.Balanced) {id : FrameId}
    (hid : id < course.links.length) (given value : Value) {other outer : FrameId}
    (hother : course.links[other]? = some (some outer)) :
    (course.step (.defineGlobal id given value)).store.frame? other =
      course.store.frame? other := by
  cases given with
  | symbol name =>
    have hne : course.store.root id ≠ other := by
      intro heq
      rw [← heq, (h.root hid).2] at hother
      cases hother
    show (course.store.assign (course.store.root id) name value).frame? other = _
    rw [Store.frame?_assign, if_neg hne]
  | _ => rfl

/-- **The environment refines its write history.** After every course of operations from no frames,
each of which speaks of frames that exist by then and any of which may fail, what a session is told
about the frames is what the books say. -/
theorem faithful {ops : List Operation} (hops : admits 0 ops = true) : (run ops).Faithful := by
  have h : (run ops).Balanced := Balanced.start.steps hops
  generalize run ops = course at h
  exact {
    path := by
      intro id hid
      obtain ⟨root, hlast, -⟩ := Store.exists_getLast?_chainWithin (Nat.lt_succ_self id)
        (hid.trans_eq h.size.symm)
      change (course.store.chain id).getLast? = some root at hlast
      refine ⟨_, h.outward_chain hid, ?_⟩
      rw [Store.root, hlast]
      rfl
    lookup := by
      rintro m hm id path hpath name value
      rw [Session.outcome_lookup, hm, ← h.lookup?_iff hpath]
      cases course.store.lookup? id name <;> simp
    unbound := by
      rintro m hm id path hpath name
      rw [Session.outcome_lookup, hm, ← h.lookup?_eq_none_iff hpath]
      cases course.store.lookup? id name <;> simp
    find := by
      rintro m hm id path hpath name frame
      rw [Session.outcome_find?, hm, ← h.find?_iff hpath]
      simp
    contains := by
      rintro m hm id path hpath name
      rw [Session.outcome_find?, hm, ← h.isSome_find?_iff hpath, Option.isSome_iff_exists]
      simp
    once := fun id outer hlink name => h.length_filter_le hlink name
    defineGlobal := by
      intro id hid given value
      refine ⟨?_, fun other outer hother => h.frame?_defineGlobal hid given value hother⟩
      intro write hwrite
      cases given with
      | symbol name => rw [List.mem_singleton.1 hwrite]
      | _ => cases hwrite
    vars := fun id hid => h.exists_frame hid
    lasting := fun more hmore id hid => h.lasting hmore hid }

/-- A pattern and a bulk definition stop at a name that the inner frame has already; a definition on
the root, made from the inner frame, writes `nil` to the root and leaves the inner frame alone. -/
theorem faithful_halfway :
    let ops : List Operation := [.create none, .create (some 0),
      .define 0 (.symbol "x") (.bool true),
      .bind 1 (.vector [.symbol "x", .symbol "y", .symbol "x", .symbol "z"])
        (.list [.str "a", .str "b", .str "c", .str "d"]),
      .defineGlobal 1 (.symbol "x") .nil,
      .update 1 [(.symbol "z", .str "e"), (.symbol "y", .str "f"), (.symbol "w", .str "g")],
      .defineGlobal 1 (.keyword "x") .nil]
    admits 0 ops = true ∧ (run ops).Faithful ∧
      (run ops).writes = [⟨0, "x", .bool true⟩, ⟨1, "x", .str "a"⟩, ⟨1, "y", .str "b"⟩,
        ⟨0, "x", .nil⟩, ⟨1, "z", .str "e"⟩] := by
  intro ops
  exact ⟨by decide, faithful (by decide), rfl⟩

end Course

end SmallLisp
