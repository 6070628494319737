import Mathlib.Data.Set.Basic
import SmallLisp.Proofs.Evaluation
import SmallLisp.Proofs.Frames

/-!
# Regions of frames

A set of frames is a **region** if nothing in it leads out of it: each of its frames lies inside
another one of them, or in none, and every function and scope that they bind refers to them only. A
program that starts in a region, with values of the region, stays there.

* `Value.RefersTo`: the frame that a capability refers to belongs to a set. A value refers to the
  set if all its capabilities do.
* `Store.Region`: the set is closed.
* `Store.grown`: a region together with the frames that a run has made since.
* `Store.Intact`: the grown region is a region, under the roots of the old one.
* `Store.Spares`: what a run leaves alone: the frames outside of its region, and their roots.
* `regionDiscipline`: runs in a region keep it intact and spare everything else.
-/

namespace SmallLisp

/-- The frame that the capability refers to belongs to the set. -/
def Value.RefersTo (S : Set FrameId) : Value → Prop
  | .function _ _ _ home => home ∈ S
  | .environment frame => frame ∈ S
  | _ => True

instance (S : Set FrameId) [DecidablePred (· ∈ S)] : DecidablePred (Value.RefersTo S) := fun c =>
  match c with
  | .function _ _ _ home => inferInstanceAs (Decidable (home ∈ S))
  | .environment frame => inferInstanceAs (Decidable (frame ∈ S))
  | .nil | .bool _ | .number _ | .str _ | .symbol _ | .keyword _ | .list _ | .vector _ | .map _
  | .host .. | .transformer .. => .isTrue trivial

theorem Value.RefersTo.mono {S S' : Set FrameId} (hsub : S ⊆ S') {c : Value}
    (h : c.RefersTo S) : c.RefersTo S' := by
  cases c with
  | function | environment => exact hsub h
  | _ => trivial

theorem Value.every_refersTo_mono {S S' : Set FrameId} (hsub : S ⊆ S') {value : Value}
    (h : value.Every (RefersTo S)) : value.Every (RefersTo S') :=
  h.mono fun _ hc => hc.mono hsub

namespace Store

/-! ## Regions -/

/-- Nothing in the set of frames leads out of it. -/
structure Region (store : Store) (S : Set FrameId) : Prop where
  lt : ∀ id ∈ S, id < store.size
  outer : ∀ id ∈ S, ∀ frame outer, store.frame? id = some frame → frame.outer = some outer →
    outer ∈ S
  vars : ∀ id ∈ S, ∀ frame, store.frame? id = some frame → ∀ var ∈ frame.vars,
    var.2.Every (Value.RefersTo S)

namespace Region

variable {store : Store} {S : Set FrameId}

theorem mem_chain (h : store.Region S) {id other : FrameId} (hid : id ∈ S)
    (hother : other ∈ store.chain id) : other ∈ S :=
  mem_of_mem_chain h.outer hid hother

theorem congr {store' : Store} (h : store.Region S)
    (hframes : ∀ id, store'.frame? id = store.frame? id) : store'.Region S := by
  refine ⟨?_, ?_, ?_⟩
  · intro id hid
    obtain ⟨frame, hframe⟩ := frame?_eq_some_of_lt (h.lt id hid)
    exact lt_size_of_frame? ((hframes id).trans hframe)
  · intro id hid frame outer hframe
    rw [hframes] at hframe
    exact h.outer id hid frame outer hframe
  · intro id hid frame hframe
    rw [hframes] at hframe
    exact h.vars id hid frame hframe

/-- The root around a frame of a region belongs to the region. -/
theorem root_mem (h : store.Region S) {id : FrameId} (hid : id ∈ S) : store.root id ∈ S := by
  obtain ⟨root, hlast, -⟩ := exists_getLast?_chainWithin (Nat.lt_succ_self id) (h.lt id hid)
  have hroot : store.root id = root := by
    unfold Store.root chain
    rw [hlast]
    rfl
  rw [hroot]
  exact h.mem_chain hid (List.mem_of_getLast? hlast)

/-- In a region a name means something that refers to the region. -/
theorem lookup? (h : store.Region S) {id : FrameId} (hid : id ∈ S) {name : String} {value : Value}
    (hlookup : store.lookup? id name = some value) : value.Every (Value.RefersTo S) := by
  obtain ⟨other, hother, hlocal⟩ := List.exists_of_findSome?_eq_some hlookup
  obtain ⟨frame, hframe, hget⟩ := exists_frame?_of_local? hlocal
  exact h.vars other (h.mem_chain hid hother) frame hframe _ (Frame.mem_vars_of_get? hget)

/-- Binding a name to a value that refers to the region keeps it a region. -/
theorem write (h : store.Region S) (id : FrameId) (name : String) {value : Value}
    (hvalue : value.Every (Value.RefersTo S)) : (store.write id name value).Region S := by
  refine ⟨fun other hother => by simpa using h.lt other hother, ?_, ?_⟩
  · intro other hother frame outer hframe houter
    rw [frame?_write] at hframe
    split at hframe
    · obtain ⟨old, hold, rfl⟩ := Option.map_eq_some_iff.1 hframe
      exact h.outer other hother old outer hold houter
    · exact h.outer other hother frame outer hframe houter
  · intro other hother frame hframe var hvar
    rw [frame?_write] at hframe
    split at hframe
    · obtain ⟨old, hold, rfl⟩ := Option.map_eq_some_iff.1 hframe
      rcases Frame.mem_setVar hvar with hvar | rfl
      · exact h.vars other hother old hold var hvar
      · exact hvalue
    · exact h.vars other hother frame hframe var hvar

/-- A new frame inside a frame of a region makes the region larger. -/
theorem push (h : store.Region S) {outer : FrameId} (houter : outer ∈ S) {S' : Set FrameId}
    (hS' : ∀ id, id ∈ S' ↔ id ∈ S ∨ id = store.size) :
    (store.push (some outer)).Region S' := by
  have hsub : S ⊆ S' := fun id hid => (hS' id).2 (.inl hid)
  have hframe := frame?_push_some (h.lt outer houter)
  have hold : ∀ id ∈ S, (store.push (some outer)).frame? id = store.frame? id := by
    intro id hid
    rw [hframe, if_neg (Nat.ne_of_lt (h.lt id hid))]
  refine ⟨?_, ?_, ?_⟩
  · intro id hid
    rw [size_push]
    rcases (hS' id).1 hid with hid | rfl
    · exact Nat.lt_succ_of_lt (h.lt id hid)
    · exact Nat.lt_succ_self _
  · intro id hid frame out hget hout
    rcases (hS' id).1 hid with hid | rfl
    · rw [hold id hid] at hget
      exact hsub (h.outer id hid frame out hget hout)
    · rw [hframe, if_pos rfl] at hget
      cases hget
      cases hout
      exact hsub houter
  · intro id hid frame hget var hvar
    rcases (hS' id).1 hid with hid | rfl
    · rw [hold id hid] at hget
      exact Value.every_refersTo_mono hsub (h.vars id hid frame hget var hvar)
    · rw [hframe, if_pos rfl] at hget
      cases hget
      cases hvar

end Region

/-- A root whose bindings refer to no other frame is a region by itself. -/
theorem region_singleton {store : Store} {root : FrameId} (hroot : store.isRoot root = true)
    (hvars : ∀ frame, store.frame? root = some frame → ∀ var ∈ frame.vars,
      var.2.Every (Value.RefersTo {root})) : store.Region {root} := by
  obtain ⟨base, hbase, hnone⟩ := isRoot_iff.1 hroot
  refine ⟨?_, ?_, ?_⟩
  · rintro _ rfl
    exact lt_size_of_frame? hbase
  · rintro _ rfl frame outer hframe houter
    cases hframe.symm.trans hbase
    cases houter.symm.trans hnone
  · rintro _ rfl
    exact hvars

/-! ## Roots -/

theorem root_congr {store store' : Store}
    (h : ∀ id, (store'.frame? id).map (·.outer) = (store.frame? id).map (·.outer)) (id : FrameId) :
    store'.root id = store.root id :=
  root_eq_of_chain
    (chain_congr (S := Set.univ) (fun id _ => h id) (fun _ _ _ _ _ _ => trivial) trivial)

/-- Binding a name leaves each frame under its root. -/
theorem root_write (store : Store) (id : FrameId) (name : String) (value : Value) (event : Event)
    (other : FrameId) :
    ((store.write id name value).record event).root other = store.root other := by
  refine root_congr (fun other => ?_) other
  show ((store.write id name value).frame? other).map (·.outer) = _
  rw [frame?_write]
  split
  · simp [Function.comp_def]
  · rfl

/-- A new frame has the root of the frame that it is made in. -/
theorem root_push {store : Store} {S : Set FrameId} (h : store.Region S) {outer : FrameId}
    (houter : outer ∈ S) {id : FrameId} (hid : id ∈ S ∨ id = store.size) :
    (store.push (some outer)).root id = store.root (if id = store.size then outer else id) := by
  have hframe := frame?_push_some (h.lt outer houter)
  have hold : ∀ id ∈ S, (store.push (some outer)).root id = store.root id := by
    intro id hid
    refine root_eq_of_chain (chain_congr (S := S) ?_ h.outer hid)
    intro other hother
    rw [hframe, if_neg (Nat.ne_of_lt (h.lt other hother))]
  rcases hid with hid | rfl
  · rw [if_neg (Nat.ne_of_lt (h.lt id hid)), hold id hid]
  · have hnew : (store.push (some outer)).frame? store.size = some ⟨some outer, []⟩ := by
      rw [hframe, if_pos rfl]
    have hlt : outer < (store.push (some outer)).size := by
      rw [size_push]
      exact Nat.lt_succ_of_lt (h.lt outer houter)
    rw [if_pos rfl, root_of_outer hnew rfl hlt, hold outer houter]

/-! ## What a run does to a region -/

section confined

variable (before : Store) (S : Set FrameId)

/-- The frames of the region, and those that were made since. -/
def grown (after : Store) : Set FrameId :=
  {id | id ∈ S ∨ before.size ≤ id ∧ id < after.size}

/-- The frames of a region are still a region together with those made since, and no frame has come
under another root. -/
structure Intact (after : Store) : Prop where
  size_le : before.size ≤ after.size
  region : after.Region (before.grown S after)
  root : ∀ id ∈ before.grown S after, ∃ origin ∈ S, after.root id = before.root origin

/-- Between the two stores, frames outside the region have been left alone, and names have been
defined on the roots of the region only. -/
structure Spares (s s' : Store) : Prop where
  size_le : s.size ≤ s'.size
  frames : ∀ id < before.size, id ∉ S → s'.frame? id = s.frame? id
  history : ∃ events : List Event, s'.history.toList = s.history.toList ++ events ∧
    ∀ root name value, .defined root name value ∈ events → ∃ origin ∈ S, before.root origin = root

variable {before S}

theorem grown_mono {s s' : Store} (h : s.size ≤ s'.size) :
    before.grown S s ⊆ before.grown S s' :=
  fun _ hid => hid.imp_right fun hnew => ⟨hnew.1, Nat.lt_of_lt_of_le hnew.2 h⟩

theorem Spares.refl (s : Store) : Spares before S s s :=
  ⟨le_rfl, fun _ _ _ => rfl, [], by simp, by simp⟩

theorem Spares.trans {s s' s'' : Store} (h : Spares before S s s') (h' : Spares before S s' s'') :
    Spares before S s s'' := by
  obtain ⟨events, hevents, hroots⟩ := h.history
  obtain ⟨events', hevents', hroots'⟩ := h'.history
  refine ⟨h.size_le.trans h'.size_le, ?_, events ++ events', ?_, ?_⟩
  · exact fun id hid hnot => (h'.frames id hid hnot).trans (h.frames id hid hnot)
  · rw [hevents', hevents, List.append_assoc]
  · intro root name value hmem
    rcases List.mem_append.1 hmem with hmem | hmem
    · exact hroots root name value hmem
    · exact hroots' root name value hmem

/-- A frame of the grown region is no frame that was there outside the region. -/
theorem ne_of_mem_grown {s : Store} {id other : FrameId} (hid : id ∈ before.grown S s)
    (hother : other < before.size) (hnot : other ∉ S) : id ≠ other := by
  rintro rfl
  rcases hid with hid | ⟨hge, -⟩
  · exact hnot hid
  · exact absurd hother (Nat.not_lt.2 hge)

theorem Intact.push {s : Store} (h : Intact before S s) {outer : FrameId}
    (houter : outer ∈ before.grown S s) :
    Intact before S (s.push (some outer)) ∧ Spares before S s (s.push (some outer)) := by
  have hgrown : ∀ id, id ∈ before.grown S (s.push (some outer)) ↔
      id ∈ before.grown S s ∨ id = s.size := by
    intro id
    have := h.size_le
    simp only [grown, Set.mem_ofPred_eq, size_push]
    constructor
    · rintro (hid | ⟨hge, hlt⟩)
      · exact .inl (.inl hid)
      · rcases Nat.lt_succ_iff_lt_or_eq.1 hlt with hlt | rfl
        · exact .inl (.inr ⟨hge, hlt⟩)
        · exact .inr rfl
    · rintro ((hid | ⟨hge, hlt⟩) | rfl)
      · exact .inl hid
      · exact .inr ⟨hge, Nat.lt_succ_of_lt hlt⟩
      · exact .inr ⟨this, Nat.lt_succ_self _⟩
  refine ⟨⟨?_, h.region.push houter hgrown, ?_⟩, ?_, ?_, ?_⟩
  · rw [size_push]
    exact Nat.le_succ_of_le h.size_le
  · intro id hid
    rw [root_push h.region houter ((hgrown id).1 hid)]
    split
    · exact h.root outer houter
    · rename_i hne
      exact h.root id (((hgrown id).1 hid).resolve_right hne)
  · rw [size_push]
    exact Nat.le_succ _
  · intro id hid _
    rw [frame?_push, if_neg (Nat.ne_of_lt (Nat.lt_of_lt_of_le hid h.size_le))]
  · refine ⟨[.opened s.size ((some outer).filter (· < s.size))], Array.toList_push, ?_⟩
    simp

theorem Intact.write {s : Store} (h : Intact before S s) {id : FrameId}
    (hid : id ∈ before.grown S s) (name : String) {value : Value}
    (hvalue : value.Every (Value.RefersTo (before.grown S s))) {event : Event}
    (hevent : ∀ root name value, event = .defined root name value →
      ∃ origin ∈ S, before.root origin = root) :
    Intact before S ((s.write id name value).record event) ∧
      Spares before S s ((s.write id name value).record event) := by
  have hgrown : before.grown S ((s.write id name value).record event) = before.grown S s := by
    ext other
    simp only [grown, Set.mem_ofPred_eq]
    rw [show ((s.write id name value).record event).size = s.size from size_write s id name value]
  refine ⟨⟨?_, ?_, ?_⟩, ?_, ?_, [event], ?_, ?_⟩
  · exact h.size_le.trans (le_of_eq (size_write s id name value).symm)
  · rw [hgrown]
    exact (h.region.write id name hvalue).congr fun _ => rfl
  · rw [hgrown]
    intro other hother
    obtain ⟨origin, horigin, hroot⟩ := h.root other hother
    exact ⟨origin, horigin, (root_write s id name value event other).trans hroot⟩
  · exact le_of_eq (size_write s id name value).symm
  · intro other hother hnot
    exact (frame?_write s id other name value).trans (if_neg (ne_of_mem_grown hid hother hnot))
  · exact Array.toList_push
  · intro root name value hmem
    exact hevent root name value (List.mem_singleton.1 hmem).symm

theorem Intact.extend {s : Store} (h : Intact before S s) {id : FrameId}
    (hid : id ∈ before.grown S s) (name : String) {value : Value}
    (hvalue : value.Every (Value.RefersTo (before.grown S s))) :
    Intact before S (s.extend id name value) ∧ Spares before S s (s.extend id name value) :=
  h.write hid name hvalue nofun

/-- A definition lands on a root of the region. -/
theorem Intact.assign {s : Store} (h : Intact before S s) {id : FrameId}
    (hid : id ∈ before.grown S s) (name : String) {value : Value}
    (hvalue : value.Every (Value.RefersTo (before.grown S s))) :
    Intact before S (s.assign (s.root id) name value) ∧
      Spares before S s (s.assign (s.root id) name value) := by
  obtain ⟨origin, horigin, hroot⟩ := h.root id hid
  refine h.write (h.region.root_mem hid) name hvalue ?_
  rintro root name value heq
  cases heq
  exact ⟨origin, horigin, hroot.symm⟩

theorem Intact.enter {s : Store} (h : Intact before S s) (id : FrameId) :
    Intact before S (s.enter id) ∧ Spares before S s (s.enter id) := by
  have hframes : ∀ other, (s.enter id).frame? other = s.frame? other := fun _ => rfl
  refine ⟨⟨h.size_le, h.region.congr hframes, ?_⟩, le_rfl, fun other _ _ => hframes other,
    [.entered id], Array.toList_push, by simp⟩
  intro other hother
  have hroot : (s.enter id).root other = s.root other :=
    root_congr (fun other => by rw [hframes]) other
  rw [hroot]
  exact h.root other hother

/-- The discipline of a region: a program can get at the frames of the region and at those that were
made since. -/
def regionDiscipline (before : Store) (S : Set FrameId) : Discipline where
  Good := Intact before S
  Leads := Spares before S
  Opens s id s' := Spares before S s s' ∧ id ∈ before.grown S s'
  Trusts s c := c.RefersTo (before.grown S s)
  Scope s id := id ∈ before.grown S s
  Code s form := form.Every (Value.RefersTo (before.grown S s))
  Allows _ := True
  leads_refl := .refl _
  leads_trans h h' := h.trans h'
  trusts_mono h hc := hc.mono (grown_mono h.size_le)
  scope_mono h hid := grown_mono h.size_le hid
  code_mono h hform := Value.every_refersTo_mono (grown_mono h.size_le) hform
  push hgood hscope := by
    obtain ⟨hintact, hspares⟩ := hgood.push hscope
    exact ⟨hintact, hspares, .inr ⟨hgood.size_le, by simp⟩⟩
  opens_leads h := h.1
  opens_scope h := h.2
  opens_trans h h' := ⟨h.1.trans h', grown_mono h'.size_le h.2⟩
  extend hgood hopens _ hvalue := by
    obtain ⟨hintact, hspares⟩ := hgood.extend hopens.2 _ hvalue
    refine ⟨hintact, ⟨hopens.1.trans hspares, grown_mono hspares.size_le hopens.2⟩, ?_⟩
    exact fun c hc => hc.mono (grown_mono hspares.size_le)
  enter hgood hopens := by
    obtain ⟨hintact, hspares⟩ := hgood.enter _
    exact ⟨hintact, hopens.1.trans hspares, grown_mono hspares.size_le hopens.2⟩
  assign hgood hscope hvalue := hgood.assign hscope _ hvalue
  lookup hgood hscope _ hlookup := hgood.region.lookup? hscope hlookup
  every_of_code h := h
  shape _ _ _ := trivial
  parts hcode _ _ := SpecialForm.every_of_mem_parts hcode
  call hcode _ := (Value.every_list _).1 hcode
  function _ _ _ hscope := hscope
  home h := by
    obtain ⟨hhome, -, hbody⟩ := Value.every_function.1 h
    exact ⟨hhome, hbody⟩
  application _ _ _ _ := trivial
  uncallable _ _ := trivial
  invoker _ := trivial
  expander _ harguments hform := Expander.every_expand hform harguments trivial
  expander_fault _ _ := trivial
  missing _ := trivial
  maker _ _ := trivial
  environment _ hscope := hscope
  expansion _ hform _ := hform
  invalid _ _ := trivial
  ordinary _ := trivial

/-- A region is intact as long as nothing has happened. -/
theorem Region.intact (h : before.Region S) : Intact before S before := by
  have hgrown : before.grown S before = S := by
    ext id
    simp only [grown, Set.mem_ofPred_eq]
    exact ⟨fun hid => hid.resolve_right fun hnew => absurd hnew.2 (Nat.not_lt.2 hnew.1), .inl⟩
  refine ⟨le_rfl, by rwa [hgrown], ?_⟩
  rw [hgrown]
  exact fun id hid => ⟨id, hid, rfl⟩

end confined

end Store

end SmallLisp
