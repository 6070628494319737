import SmallLisp.Proofs.Evaluation
import SmallLisp.Proofs.Frames

/-!
# The frame condition of evaluation

What evaluating a form does to the frames of the store, whether it ends with a value or not.

* `Store.replay`: the store that a row of events makes out of another one.
* `Store.Bracketed`: all that happened to a frame is that it was made, that names were bound in it,
  each once, and that it was entered; then nothing.
* `Store.FrameCondition`: the events of a run explain the store it leaves behind. The frames that
  were there keep their places; those inside another one stay as they are, and to a root only
  definitions happen. The frames that are new are bracketed.
* **`Engine.eval_frameCondition`**: every evaluation satisfies it.

A frame that is still being bound can be reached already, by a function made on one of the
right-hand sides or by a scope handed to a transformer. Hence the condition is carried through a run
in two forms: `FrameCondition` between two stores, and `Binding`, in which one new frame has not
been entered yet. The run in between leaves such a frame alone since it lies inside another one.
-/

namespace SmallLisp

namespace Store

/-! ## Events -/

/-- What an event makes out of the store. -/
def happen (store : Store) : Event → Store
  | .opened _ outer => store.push outer
  | .bound id name value => store.extend id name value
  | .entered id => store.enter id
  | .defined root name value => store.assign root name value

/-- What a row of events makes out of the store. -/
def replay (store : Store) (events : List Event) : Store :=
  events.foldl happen store

theorem replay_append (store : Store) (events events' : List Event) :
    store.replay (events ++ events') = (store.replay events).replay events' :=
  List.foldl_append

/-- The events that happen to a frame. -/
def eventsAt (events : List Event) (id : FrameId) : List Event :=
  events.filter fun event => event.frame == id

@[simp] theorem eventsAt_append (events events' : List Event) (id : FrameId) :
    eventsAt (events ++ events') id = eventsAt events id ++ eventsAt events' id :=
  List.filter_append events events'

theorem eventsAt_eq_nil {events : List Event} {id : FrameId}
    (h : ∀ event ∈ events, event.frame ≠ id) : eventsAt events id = [] := by
  unfold eventsAt
  rw [List.filter_eq_nil_iff]
  intro event hevent
  simpa using h event hevent

theorem eventsAt_singleton (event : Event) : eventsAt [event] event.frame = [event] := by
  simp [eventsAt]

/-- The frame was made, its names were bound, each once, and it may have been entered. Nothing else
happened to it, and the bindings are all that it holds. -/
def Bracketed (store : Store) (events : List Event) (id : FrameId) : Prop :=
  ∃ outer bindings entry,
    eventsAt events id =
      .opened id (some outer) :: bindings.map (fun binding => .bound id binding.1 binding.2) ++
        entry ∧
    (entry = [] ∨ entry = [.entered id]) ∧
    (bindings.map (·.1)).Nodup ∧
    store.frame? id = some ⟨some outer, bindings⟩

/-- The events explain how the store `after` came out of the store `before`. -/
structure FrameCondition (before after : Store) (events : List Event) : Prop where
  /-- The events are what was added to the history. -/
  history : after.history = before.history ++ events.toArray
  /-- Nothing but the events changed the store. -/
  replay : after = before.replay events
  /-- The frames that were there are there. -/
  size_le : before.size ≤ after.size
  /-- No event happens to a frame that does not exist. -/
  within : ∀ event ∈ events, event.frame < after.size
  /-- A frame keeps its place. -/
  outer : ∀ id, id < before.size →
    (after.frame? id).map (·.outer) = (before.frame? id).map (·.outer)
  /-- A frame inside another one keeps its names, their values and their order. -/
  inner : ∀ id frame, before.frame? id = some frame → frame.outer ≠ none →
    after.frame? id = some frame
  /-- A root loses no name and keeps the order of its names. A name that it binds to something else
  than before was defined. -/
  root : ∀ id frame frame', before.frame? id = some frame → frame.outer = none →
    after.frame? id = some frame' →
    frame.names <+: frame'.names ∧
      ∀ name, frame'.get? name ≠ frame.get? name → ∃ value, .defined id name value ∈ events
  /-- Nothing happens to a frame that was there, except that a name is defined on a root. -/
  defined : ∀ event ∈ events, event.frame < before.size →
    before.isRoot event.frame = true ∧ ∃ name value, event = .defined event.frame name value
  /-- A new frame is made, bound and entered, in this order. -/
  created : ∀ id, before.size ≤ id → id < after.size → after.Bracketed events id

namespace FrameCondition

variable {before after after' : Store} {events events' : List Event}

theorem refl (store : Store) : FrameCondition store store [] where
  history := by simp
  replay := rfl
  size_le := Nat.le_refl _
  within := by simp
  outer _ _ := rfl
  inner _ _ h _ := h
  root id frame frame' h _ h' := by
    rw [h] at h'
    cases h'
    exact ⟨List.prefix_rfl, fun _ hne => absurd rfl hne⟩
  defined := by simp
  created id h h' := absurd h' (Nat.not_lt.2 h)

/-- A root stays one, and no other frame that was there becomes one. -/
theorem isRoot_eq (h : FrameCondition before after events) {id : FrameId} (hid : id < before.size) :
    after.isRoot id = before.isRoot id := by
  have houter := h.outer id hid
  obtain ⟨frame, hframe⟩ := frame?_eq_some_of_lt hid
  obtain ⟨frame', hframe'⟩ := frame?_eq_some_of_lt (Nat.lt_of_lt_of_le hid h.size_le)
  rw [hframe, hframe', Option.map_some, Option.map_some, Option.some.injEq] at houter
  unfold isRoot
  rw [hframe, hframe']
  simp only [houter]

/-- Nothing happens to a frame that was there and is no root. -/
theorem eventsAt_inner (h : FrameCondition before after events) {id : FrameId} {frame : Frame}
    (hframe : before.frame? id = some frame) (houter : frame.outer ≠ none) :
    eventsAt events id = [] := by
  apply eventsAt_eq_nil
  rintro event hevent rfl
  obtain ⟨hroot, -⟩ := h.defined event hevent (lt_size_of_frame? hframe)
  obtain ⟨frame', hframe', hnone⟩ := isRoot_iff.1 hroot
  rw [hframe] at hframe'
  cases hframe'
  exact houter hnone

/-- A bracketed frame is left alone by what follows. -/
theorem bracketed_of_left (h' : FrameCondition after after' events') {id : FrameId}
    (hid : after.Bracketed events id) : after'.Bracketed (events ++ events') id := by
  obtain ⟨outer, bindings, entry, hevents, hentry, hnodup, hframe⟩ := hid
  refine ⟨outer, bindings, entry, ?_, hentry, hnodup, ?_⟩
  · rw [eventsAt_append, h'.eventsAt_inner hframe (by simp), List.append_nil, hevents]
  · exact h'.inner id _ hframe (by simp)

/-- A frame that is made later is not concerned by what came before. -/
theorem bracketed_of_right (h : FrameCondition before after events) {id : FrameId}
    (hsize : after.size ≤ id) (hid : after'.Bracketed events' id) :
    after'.Bracketed (events ++ events') id := by
  obtain ⟨outer, bindings, entry, hevents, hrest⟩ := hid
  refine ⟨outer, bindings, entry, ?_, hrest⟩
  rw [eventsAt_append, eventsAt_eq_nil, List.nil_append, hevents]
  intro event hevent heq
  exact absurd (h.within event hevent) (Nat.not_lt.2 (heq ▸ hsize))

theorem root_trans (h : FrameCondition before after events)
    (h' : FrameCondition after after' events') {id : FrameId} {frame frame'' : Frame}
    (hframe : before.frame? id = some frame) (hnone : frame.outer = none)
    (hframe'' : after'.frame? id = some frame'') :
    frame.names <+: frame''.names ∧
      ∀ name, frame''.get? name ≠ frame.get? name →
        ∃ value, .defined id name value ∈ events ++ events' := by
  have hid := lt_size_of_frame? hframe
  obtain ⟨frame', hframe'⟩ := frame?_eq_some_of_lt (Nat.lt_of_lt_of_le hid h.size_le)
  have hnone' : frame'.outer = none := by
    have houter := h.outer id hid
    rw [hframe, hframe', Option.map_some, Option.map_some, Option.some.injEq] at houter
    rw [houter, hnone]
  obtain ⟨hnames, hdefined⟩ := h.root id frame frame' hframe hnone hframe'
  obtain ⟨hnames', hdefined'⟩ := h'.root id frame' frame'' hframe' hnone' hframe''
  refine ⟨hnames.trans hnames', ?_⟩
  intro name hne
  by_cases heq : frame''.get? name = frame'.get? name
  · rw [heq] at hne
    obtain ⟨value, hvalue⟩ := hdefined name hne
    exact ⟨value, List.mem_append_left _ hvalue⟩
  · obtain ⟨value, hvalue⟩ := hdefined' name heq
    exact ⟨value, List.mem_append_right _ hvalue⟩

/-- What two runs do one after the other. -/
theorem trans (h : FrameCondition before after events)
    (h' : FrameCondition after after' events') :
    FrameCondition before after' (events ++ events') where
  history := by simp [h'.history, h.history, Array.append_assoc]
  replay := by rw [replay_append, ← h.replay, ← h'.replay]
  size_le := h.size_le.trans h'.size_le
  within event hevent := by
    rcases List.mem_append.1 hevent with hevent | hevent
    · exact Nat.lt_of_lt_of_le (h.within event hevent) h'.size_le
    · exact h'.within event hevent
  outer id hid := by
    rw [h'.outer id (Nat.lt_of_lt_of_le hid h.size_le), h.outer id hid]
  inner id frame hframe houter :=
    h'.inner id frame (h.inner id frame hframe houter) houter
  root _ _ _ hframe hnone hframe'' := h.root_trans h' hframe hnone hframe''
  defined event hevent hid := by
    rcases List.mem_append.1 hevent with hevent | hevent
    · exact h.defined event hevent hid
    · rw [← h.isRoot_eq hid]
      exact h'.defined event hevent (Nat.lt_of_lt_of_le hid h.size_le)
  created id hid hid' := by
    by_cases hlt : id < after.size
    · exact bracketed_of_left h' (h.created id hid hlt)
    · have hle := Nat.not_lt.1 hlt
      exact h.bracketed_of_right hle (h'.created id hle hid')

/-- A frame is made inside one that exists. -/
theorem push {outer : FrameId} (houter : outer < before.size) :
    FrameCondition before (before.push (some outer)) [.opened before.size (some outer)] := by
  have hframe := frame?_push_some houter
  have hkept : ∀ id, id < before.size →
      (before.push (some outer)).frame? id = before.frame? id := by
    intro id hid
    rw [hframe, if_neg (Nat.ne_of_lt hid)]
  refine ⟨?_, rfl, by simp, by simp [Event.frame], ?_, ?_, ?_, ?_, ?_⟩
  · have hfilter : (some outer).filter (· < before.frames.size) = some outer := by
      have hlt : outer < before.frames.size := houter
      simp [Option.filter_some, hlt]
    show before.history.push (.opened _ ((some outer).filter _)) = _
    rw [hfilter, Array.push_eq_append]
    rfl
  · intro id hid
    rw [hkept id hid]
  · intro id frame hid _
    rw [hkept id (lt_size_of_frame? hid), hid]
  · intro id frame frame' hid _ hid'
    rw [hkept id (lt_size_of_frame? hid), hid] at hid'
    cases hid'
    exact ⟨List.prefix_rfl, fun _ hne => absurd rfl hne⟩
  · intro event hevent hid
    rw [List.mem_singleton.1 hevent] at hid
    exact absurd hid (Nat.lt_irrefl _)
  · intro id hid hid'
    have hid : id = before.size := by
      rw [size_push] at hid'
      omega
    subst hid
    refine ⟨outer, [], [], ?_, .inl rfl, List.nodup_nil, ?_⟩
    · simp [eventsAt, Event.frame]
    · rw [hframe, if_pos rfl]

/-- A name is defined on a root. -/
theorem assign {root : FrameId} (name : String) (value : Value)
    (hroot : before.isRoot root = true) :
    FrameCondition before (before.assign root name value) [.defined root name value] := by
  obtain ⟨old, hold, hnone⟩ := isRoot_iff.1 hroot
  have hframe := before.frame?_assign root
  refine ⟨Array.push_eq_append, rfl, by simp, ?_, ?_, ?_, ?_, ?_, ?_⟩
  · simpa [Event.frame] using lt_size_of_frame? hold
  · intro id hid
    rw [hframe]
    split
    · simp [Function.comp_def]
    · rfl
  · intro id frame hid houter
    rw [hframe, if_neg, hid]
    rintro rfl
    rw [hold] at hid
    cases hid
    exact houter hnone
  · intro id frame frame' hid _ hid'
    rw [hframe, hid] at hid'
    split at hid'
    · rename_i heq
      subst heq
      cases hid'
      refine ⟨frame.names_prefix_set name value, ?_⟩
      intro other hne
      rw [Frame.get?_set] at hne
      split at hne
      · rename_i heq
        exact ⟨value, by simp [heq]⟩
      · exact absurd rfl hne
    · cases hid'
      exact ⟨List.prefix_rfl, fun _ hne => absurd rfl hne⟩
  · intro event hevent _
    rw [List.mem_singleton.1 hevent]
    exact ⟨hroot, name, value, rfl⟩
  · intro id hid hid'
    rw [size_assign] at hid'
    exact absurd hid' (Nat.not_lt.2 hid)

/-- Something happens to a frame that is new. -/
theorem own (event : Event) (h : FrameCondition before after events)
    (hnew : before.size ≤ event.frame) (hlt : event.frame < after.size)
    (hhistory : (after.happen event).history = after.history.push event)
    (hsize : (after.happen event).size = after.size)
    (hothers : ∀ id, id ≠ event.frame → (after.happen event).frame? id = after.frame? id)
    (hown : (after.happen event).Bracketed (events ++ [event]) event.frame) :
    FrameCondition before (after.happen event) (events ++ [event]) := by
  have hkept : ∀ id, id < before.size → (after.happen event).frame? id = after.frame? id :=
    fun id hid => hothers id (Nat.ne_of_lt (Nat.lt_of_lt_of_le hid hnew))
  refine ⟨?_, ?_, ?_, ?_, ?_, ?_, ?_, ?_, ?_⟩
  · rw [hhistory, h.history]
    simp
  · rw [replay_append, ← h.replay]
    rfl
  · rw [hsize]
    exact h.size_le
  · rw [hsize, List.forall_mem_append]
    exact ⟨h.within, by simpa using hlt⟩
  · intro id hid
    rw [hkept id hid, h.outer id hid]
  · intro id frame hframe houter
    rw [hkept id (lt_size_of_frame? hframe), h.inner id frame hframe houter]
  · intro id frame frame' hframe hnone hframe'
    rw [hkept id (lt_size_of_frame? hframe)] at hframe'
    obtain ⟨hnames, hdefined⟩ := h.root id frame frame' hframe hnone hframe'
    refine ⟨hnames, fun name hne => ?_⟩
    obtain ⟨value, hvalue⟩ := hdefined name hne
    exact ⟨value, List.mem_append_left _ hvalue⟩
  · intro other hother hid
    rcases List.mem_append.1 hother with hother | hother
    · exact h.defined other hother hid
    · rw [List.mem_singleton.1 hother] at hid
      exact absurd hid (Nat.not_lt.2 hnew)
  · intro id hid hid'
    rw [hsize] at hid'
    by_cases heq : id = event.frame
    · rw [heq]
      exact hown
    · obtain ⟨outer, bindings, entry, hevents, hentry, hnodup, hframe⟩ := h.created id hid hid'
      refine ⟨outer, bindings, entry, ?_, hentry, hnodup, ?_⟩
      · have hnil : eventsAt [event] id = [] := eventsAt_eq_nil (by simpa using Ne.symm heq)
        rw [eventsAt_append, hnil, List.append_nil, hevents]
      · rw [hothers id heq, hframe]

end FrameCondition

/-! ## A frame that is being bound -/

/-- The frame is new and has not been entered yet. -/
def Binding (before : Store) (id : FrameId) (after : Store) : Prop :=
  ∃ events, FrameCondition before after events ∧ before.size ≤ id ∧ id < after.size ∧
    .entered id ∉ events

namespace Binding

variable {before after after' : Store} {id : FrameId}

/-- What happened to a frame that is being bound. -/
theorem bindings {events : List Event} (h : FrameCondition before after events)
    (hnew : before.size ≤ id) (hlt : id < after.size) (hentered : .entered id ∉ events) :
    ∃ outer bindings, eventsAt events id =
        .opened id (some outer) :: bindings.map (fun binding => .bound id binding.1 binding.2) ∧
      (bindings.map (·.1)).Nodup ∧ after.frame? id = some ⟨some outer, bindings⟩ := by
  obtain ⟨outer, bindings, entry, hevents, hentry, hnodup, hframe⟩ := h.created id hnew hlt
  refine ⟨outer, bindings, ?_, hnodup, hframe⟩
  rcases hentry with rfl | rfl
  · rw [hevents, List.append_nil]
  · have hmem : .entered id ∈ eventsAt events id := by simp [hevents]
    exact absurd (List.mem_of_mem_filter hmem) hentered

theorem push {outer : FrameId} (houter : outer < before.size) :
    Binding before before.size (before.push (some outer)) :=
  ⟨_, FrameCondition.push houter, Nat.le_refl _, by simp, by simp⟩

/-- What a run does in between leaves the frame to be bound further. -/
theorem trans {events' : List Event} (h : Binding before id after)
    (h' : FrameCondition after after' events') : Binding before id after' := by
  obtain ⟨events, hcondition, hnew, hlt, hentered⟩ := h
  obtain ⟨outer, bindings, -, -, hframe⟩ := bindings hcondition hnew hlt hentered
  refine ⟨events ++ events', hcondition.trans h', hnew, Nat.lt_of_lt_of_le hlt h'.size_le, ?_⟩
  rw [List.mem_append, not_or]
  refine ⟨hentered, fun hmem => ?_⟩
  -- the frame lies inside another one, so the run in between does nothing to it
  have hnil := h'.eventsAt_inner hframe (by simp)
  have hat : .entered id ∈ eventsAt events' id :=
    List.mem_filter.2 ⟨hmem, by simp [Event.frame]⟩
  rw [hnil] at hat
  cases hat

/-- A name that the frame does not bind yet is bound in it. -/
theorem extend {name : String} {value : Value} (h : Binding before id after)
    (hguard : ((after.local? id name).isSome && !after.isRoot id) = false) :
    Binding before id (after.extend id name value) := by
  obtain ⟨events, hcondition, hnew, hlt, hentered⟩ := h
  obtain ⟨outer, bindings, hevents, hnodup, hframe⟩ := bindings hcondition hnew hlt hentered
  have hlocal : Frame.get? ⟨some outer, bindings⟩ name = none := by
    simpa [local?, isRoot, hframe] using hguard
  refine ⟨events ++ [.bound id name value], ?_, hnew, by simpa using hlt, by simpa using hentered⟩
  refine hcondition.own (.bound id name value) hnew hlt rfl (size_extend after id name value) ?_ ?_
  · intro other hne
    exact (after.frame?_extend id other name value).trans (if_neg (Ne.symm hne))
  · refine ⟨outer, bindings ++ [(name, value)], [], ?_, .inl rfl, ?_, ?_⟩
    · have hown := eventsAt_singleton (.bound id name value)
      simp only [Event.frame] at hown ⊢
      rw [eventsAt_append, hown, hevents, List.map_append, List.append_nil, List.cons_append]
      rfl
    · have hname := Frame.not_mem_names_of_get?_eq_none hlocal
      rw [List.map_append, List.nodup_append]
      refine ⟨hnodup, by simp, ?_⟩
      rintro other hother _ hlast rfl
      rw [List.mem_singleton.1 hlast] at hother
      exact hname hother
    · have hset := Frame.set_of_get?_eq_none value hlocal
      show (after.extend id name value).frame? id = _
      rw [after.frame?_extend, if_pos rfl, hframe, Option.map_some, ← hset]
      rfl

/-- A frame whose names are bound is entered. -/
theorem enter (h : Binding before id after) :
    ∃ events, FrameCondition before (after.enter id) events := by
  obtain ⟨events, hcondition, hnew, hlt, hentered⟩ := h
  obtain ⟨outer, bindings, hevents, hnodup, hframe⟩ := bindings hcondition hnew hlt hentered
  have hown := eventsAt_singleton (.entered id)
  have hbracketed : (after.enter id).Bracketed (events ++ [.entered id]) id := by
    refine ⟨outer, bindings, [.entered id], ?_, .inr rfl, hnodup, hframe⟩
    simp only [Event.frame] at hown
    rw [eventsAt_append, hown, hevents]
  exact ⟨_, hcondition.own (.entered id) hnew hlt rfl rfl (fun _ _ => rfl) hbracketed⟩

end Binding

end Store

/-! ## Evaluation -/

open Store in
/-- The discipline behind the frame condition: in a closed store a program can get only at frames
that exist. -/
def frameDiscipline : Discipline where
  Good := Closed
  Leads s s' := ∃ events, FrameCondition s s' events
  Opens := Binding
  Trusts := Holds
  Scope s id := id < s.size
  Code s form := form.Every s.Holds
  Allows _ := True
  leads_refl := ⟨[], .refl _⟩
  leads_trans := fun ⟨_, h⟩ ⟨_, h'⟩ => ⟨_, h.trans h'⟩
  trusts_mono := fun ⟨_, h⟩ hc => hc.mono h.size_le
  scope_mono := fun ⟨_, h⟩ hid => Nat.lt_of_lt_of_le hid h.size_le
  code_mono := fun ⟨_, h⟩ hform => every_holds_mono hform h.size_le
  push hgood hscope := ⟨hgood.push _, .push hscope⟩
  opens_leads := fun ⟨events, h, _⟩ => ⟨events, h⟩
  opens_scope := fun ⟨_, _, _, hlt, _⟩ => hlt
  opens_trans := fun h ⟨_, h'⟩ => h.trans h'
  extend hgood hopens hguard hvalue :=
    ⟨hgood.write _ _ hvalue, hopens.extend hguard, fun _ hc => hc.mono (by simp)⟩
  enter hgood hopens := ⟨hgood, hopens.enter, hopens.choose_spec.2.2.1⟩
  assign hgood hscope hvalue :=
    ⟨hgood.write _ _ hvalue, _, .assign _ _ (isRoot_root hscope)⟩
  lookup hgood _ _ hlookup := hgood.lookup? hlookup
  every_of_code h := h
  shape _ _ _ := trivial
  parts hcode _ _ := SpecialForm.every_of_mem_parts hcode
  call hcode _ := (Value.every_list _).1 hcode
  function _ _ _ hscope := hscope
  home h := by
    obtain ⟨hhome, -, hbody⟩ := Value.every_function.1 h
    exact ⟨hhome, hbody⟩
  application _ _ _ _ := trivial
  uncallable _ _ := trivial
  invoker _ := trivial
  expander _ harguments hform := Expander.every_expand hform harguments trivial
  expander_fault _ _ := trivial
  missing _ := trivial
  maker _ _ := trivial
  environment _ hscope := hscope
  expansion _ hform _ := hform
  invalid _ _ := trivial
  ordinary _ := trivial

/-- **The frame condition of evaluation.** Let the frames that the store and the form refer to
exist, and let the form be evaluated in one of them. However deep the evaluation goes and however it
ends, its events explain the store that it leaves behind: the frames that were there keep their
places, those inside another one keep their bindings, a root gains or changes only names that were
defined on it, and a frame made by the run is written only between being made and being entered,
each name once. Again all frames that are referred to exist. -/
theorem Engine.eval_frameCondition (depth : Nat) (form : Value) (frame : FrameId) (m : Machine)
    (hclosed : m.store.Closed) (hframe : frame < m.store.size)
    (hform : form.Every m.store.Holds) :
    (((ofDepth depth).eval form frame).after m).store.Closed ∧
    ∃ events, m.store.FrameCondition (((ofDepth depth).eval form frame).after m).store events :=
  ((frameDiscipline.respects_ofDepth depth).eval hclosed hframe hform).after

/-- A function made in a `let` defines a name on the root and then asks for one that nothing binds:
the run fails with both frames made and the definition done. -/
theorem Engine.eval_frameCondition_let :
    let m : Machine := ⟨(Store.empty.push none).push (some 0), 1, #[], #[], false⟩
    let form : Value := .list [.symbol "let",
      .vector [.symbol "x", .int 1, .symbol "f",
        .list [.symbol "fn", .vector [.symbol "z"], .list [.symbol "def", .symbol "y", .symbol "x"],
          .symbol "unbound"]],
      .list [.symbol "f", .symbol "x"]]
    let after := (((ofDepth 9).eval form 1).after m).store
    m.store.Closed ∧ 1 < m.store.size ∧ form.Every m.store.Holds ∧ after.size = 4 ∧
      (after.local? 0 "y").isSome = true ∧
      ∃ events, m.store.FrameCondition after events := by
  intro m form after
  have hempty : Store.empty.Closed := fun id frame hframe => by cases hframe
  have hclosed : m.store.Closed := (hempty.push none).push (some 0)
  have hframe : 1 < m.store.size := by decide
  have hform : form.Every m.store.Holds := by simp [form]
  refine ⟨hclosed, hframe, hform, by decide, by decide, ?_⟩
  exact (Engine.eval_frameCondition 9 form 1 m hclosed hframe hform).2

end SmallLisp
