import Mathlib.Data.List.Infix
import SmallLisp.Proofs.Capability
import SmallLisp.Store

/-!
# Frames and what refers to them

The facts about the store that statements about runs are made of.

* `Frame.names`: the names that a frame binds, in their order. Writing a name that is there keeps
  the row of names, and writing a new one adds it at the end.
* The four steps of a store, `push`, `extend`, `enter` and `assign`: what each does to the frames,
  their number and the history.
* `Frame.VarRel`: two frames bind the same names to values that are related.
* `Store.isRoot_root`: walking outwards from a frame ends at a root.
* `Store.chain_congr`, `Store.mem_of_mem_chain`: the way outwards depends on the frames around a
  frame only, and stays within a set that they do not lead out of.
* `Store.lookup?_write_of_ne`, `Store.lookup?_push_size`: what a step does to the meaning of names.
* `Store.Grants`: every name but some is bound to values that have a property.
* `Store.Closed`: every frame that a binding refers to exists. A run on such a store cannot get at
  a frame before it is made, and each of the four steps keeps the store closed.
-/

namespace SmallLisp

/-! ## Bindings of one frame -/

namespace Frame

/-- The names that the frame binds, in the order in which they first arrived. -/
def names (frame : Frame) : List String :=
  frame.vars.map (·.1)

theorem mem_setVar {vars : List (String × Value)} {name : String} {value : Value}
    {var : String × Value} (h : var ∈ setVar vars name value) :
    var ∈ vars ∨ var = (name, value) := by
  induction vars with
  | nil => exact .inr (List.mem_singleton.1 h)
  | cons first vars ih =>
    unfold setVar at h
    split at h
    · rcases List.mem_cons.1 h with rfl | h
      · exact .inr rfl
      · exact .inl (List.mem_cons_of_mem _ h)
    · rcases List.mem_cons.1 h with rfl | h
      · exact .inl List.mem_cons_self
      · exact (ih h).imp_left (List.mem_cons_of_mem _)

/-- Writing keeps the names of a frame in their places. -/
theorem names_prefix_set (frame : Frame) (name : String) (value : Value) :
    frame.names <+: (frame.set name value).names := by
  obtain ⟨outer, vars⟩ := frame
  unfold names set
  dsimp only
  induction vars with
  | nil => exact List.nil_prefix
  | cons first vars ih =>
    unfold setVar
    split
    · rename_i hfirst
      rw [List.map_cons, List.map_cons, beq_iff_eq.1 hfirst]
    · rw [List.map_cons, List.map_cons]
      exact (List.prefix_cons_inj _).2 ih

/-- A name that a frame does not bind is added at the end. -/
theorem set_of_get?_eq_none {frame : Frame} {name : String} (value : Value)
    (h : frame.get? name = none) : (frame.set name value).vars = frame.vars ++ [(name, value)] := by
  obtain ⟨outer, vars⟩ := frame
  unfold get? at h
  unfold set
  dsimp only at h ⊢
  induction vars with
  | nil => rfl
  | cons first vars ih =>
    obtain ⟨bound, old⟩ := first
    have hne : (name == bound) = false := by
      by_contra hne
      rw [Bool.not_eq_false, beq_iff_eq] at hne
      simp [hne] at h
    rw [List.lookup_cons, hne] at h
    have hne' : (bound == name) = false := by
      rw [beq_eq_false_iff_ne] at hne ⊢
      exact hne.symm
    rw [setVar, hne', if_neg (by simp), ih h, List.cons_append]

theorem not_mem_names_of_get?_eq_none {frame : Frame} {name : String}
    (h : frame.get? name = none) : name ∉ frame.names := by
  unfold get? at h
  unfold names
  rw [List.lookup_eq_none_iff] at h
  intro hmem
  obtain ⟨var, hvar, rfl⟩ := List.mem_map.1 hmem
  simpa using h var hvar

theorem mem_vars_of_get? {frame : Frame} {name : String} {value : Value}
    (h : frame.get? name = some value) : (name, value) ∈ frame.vars := by
  unfold get? at h
  obtain ⟨before, after, hvars, -⟩ := List.lookup_eq_some_iff.1 h
  rw [hvars]
  simp

/-! ### Two frames -/

section related

variable (R : String → Value → Value → Prop)

/-- The bindings are of one name, to values that are related as this name asks for. -/
def VarRel (var var' : String × Value) : Prop :=
  var.1 = var'.1 ∧ R var.1 var.2 var'.2

variable {R} {vars vars' : List (String × Value)} (h : vars.Forall₂ (VarRel R) vars')

include h

theorem forall₂_setVar {name : String} {value value' : Value} (hvalue : R name value value') :
    (setVar vars name value).Forall₂ (VarRel R) (setVar vars' name value') := by
  induction h with
  | nil => exact .cons ⟨rfl, hvalue⟩ .nil
  | @cons var var' vars vars' hvar hvars ih =>
    rw [setVar, setVar, hvar.1]
    split
    · exact .cons ⟨rfl, hvalue⟩ hvars
    · exact .cons hvar ih

theorem rel_lookup (name : String) :
    Option.Rel (R name) (vars.lookup name) (vars'.lookup name) := by
  induction h with
  | nil => exact .none
  | @cons var var' vars vars' hvar _ ih =>
    obtain ⟨bound, value⟩ := var
    obtain ⟨bound', value'⟩ := var'
    obtain ⟨hname, hvalue⟩ := hvar
    dsimp only at hname hvalue
    subst hname
    rw [List.lookup_cons, List.lookup_cons]
    split
    · rename_i heq
      rw [beq_iff_eq.1 heq]
      exact .some hvalue
    · exact ih

end related

end Frame

namespace Store

/-! ## The steps of a store -/

@[simp] theorem size_extend (store : Store) (id : FrameId) (name : String) (value : Value) :
    (store.extend id name value).size = store.size := size_write store id name value

@[simp] theorem size_assign (store : Store) (id : FrameId) (name : String) (value : Value) :
    (store.assign id name value).size = store.size := size_write store id name value

@[simp] theorem size_enter (store : Store) (id : FrameId) : (store.enter id).size = store.size :=
  rfl

theorem frame?_extend (store : Store) (id other : FrameId) (name : String) (value : Value) :
    (store.extend id name value).frame? other =
      if id = other then (store.frame? other).map (·.set name value) else store.frame? other :=
  frame?_write store id other name value

theorem frame?_assign (store : Store) (id other : FrameId) (name : String) (value : Value) :
    (store.assign id name value).frame? other =
      if id = other then (store.frame? other).map (·.set name value) else store.frame? other :=
  frame?_write store id other name value

@[simp] theorem frame?_enter (store : Store) (id other : FrameId) :
    (store.enter id).frame? other = store.frame? other := rfl

/-- A frame made inside one that exists lies inside that one. -/
theorem frame?_push_some {store : Store} {outer : FrameId} (houter : outer < store.size)
    (id : FrameId) :
    (store.push (some outer)).frame? id =
      if id = store.size then some ⟨some outer, []⟩ else store.frame? id := by
  have hfilter : (some outer).filter (· < store.size) = some outer := by
    simp [Option.filter_some, houter]
  rw [frame?_push, hfilter]

theorem frame?_eq_some_of_lt {store : Store} {id : FrameId} (h : id < store.size) :
    ∃ frame, store.frame? id = some frame :=
  ⟨store.frames[id], Array.getElem?_eq_getElem h⟩

theorem lt_size_of_frame? {store : Store} {id : FrameId} {frame : Frame}
    (h : store.frame? id = some frame) : id < store.size :=
  (Array.getElem?_eq_some_iff.1 h).1

theorem isRoot_iff {store : Store} {id : FrameId} :
    store.isRoot id = true ↔ ∃ frame, store.frame? id = some frame ∧ frame.outer = none := by
  unfold isRoot
  cases store.frame? id with
  | none => simp
  | some frame => simp

/-! ## Walking outwards -/

theorem exists_getLast?_chainWithin {store : Store} {steps : Nat} {id : FrameId}
    (hsteps : id < steps) (hid : id < store.size) :
    ∃ root, (store.chainWithin steps id).getLast? = some root ∧ store.isRoot root = true := by
  induction steps generalizing id with
  | zero => exact absurd hsteps (Nat.not_lt_zero id)
  | succ steps ih =>
    obtain ⟨frame, hframe⟩ := frame?_eq_some_of_lt hid
    cases houter : frame.outer with
    | none =>
      have hchain : store.chainWithin (steps + 1) id = [id] := by
        rw [chainWithin_succ hframe, houter]
        rfl
      exact ⟨id, by rw [hchain]; rfl, isRoot_iff.2 ⟨frame, hframe, houter⟩⟩
    | some outer =>
      have hlt := store.outer_lt id frame outer hframe houter
      obtain ⟨root, hlast, hroot⟩ := ih (Nat.lt_of_lt_of_le hlt (Nat.le_of_lt_succ hsteps))
        (hlt.trans hid)
      have hchain : store.chainWithin (steps + 1) id = id :: store.chainWithin steps outer := by
        rw [chainWithin_succ hframe, houter]
        rfl
      refine ⟨root, ?_, hroot⟩
      rw [hchain, List.getLast?_cons, hlast]
      rfl

/-- Walking outwards from a frame ends at a root. -/
theorem isRoot_root {store : Store} {id : FrameId} (h : id < store.size) :
    store.isRoot (store.root id) = true := by
  obtain ⟨root, hlast, hroot⟩ := exists_getLast?_chainWithin (Nat.lt_succ_self id) h
  unfold Store.root chain
  rw [hlast]
  exact hroot

theorem chainWithin_of_lt (store : Store) {steps : Nat} {id : FrameId} (h : id < steps) :
    store.chainWithin steps id = store.chain id := by
  induction steps using Nat.strongRecOn generalizing id with
  | _ steps ih =>
    obtain ⟨steps, rfl⟩ := Nat.exists_eq_succ_of_ne_zero (Nat.ne_zero_of_lt h)
    unfold chain
    cases hframe : store.frame? id with
    | none => rw [chainWithin, chainWithin, hframe]
    | some frame =>
      rw [chainWithin_succ hframe, chainWithin_succ hframe]
      cases houter : frame.outer with
      | none => rfl
      | some outer =>
        have hlt := store.outer_lt id frame outer hframe houter
        rw [Option.elim_some, Option.elim_some,
          ih steps (Nat.lt_succ_self steps) (Nat.lt_of_lt_of_le hlt (Nat.le_of_lt_succ h)),
          ih id h hlt]

/-- Walking outwards from a frame that lies in no other ends at once. -/
theorem chain_of_root {store : Store} {id : FrameId} {frame : Frame}
    (hframe : store.frame? id = some frame) (houter : frame.outer = none) :
    store.chain id = [id] := by
  rw [chain, chainWithin_succ hframe, houter]
  rfl

/-- Walking outwards from a frame goes on with the one around it. -/
theorem chain_of_outer {store : Store} {id outer : FrameId} {frame : Frame}
    (hframe : store.frame? id = some frame) (houter : frame.outer = some outer) :
    store.chain id = id :: store.chain outer := by
  have hlt := store.outer_lt id frame outer hframe houter
  rw [← store.chainWithin_of_lt hlt, chain, chainWithin_succ hframe, houter]
  rfl

theorem chain_of_none {store : Store} {id : FrameId} (hframe : store.frame? id = none) :
    store.chain id = [] := by
  rw [chain, chainWithin, hframe]

/-- Stores in which the frames around a frame lie in the same frames have the same way outwards. -/
theorem chain_congr {store store' : Store} {S : Set FrameId}
    (hframes : ∀ id ∈ S, (store'.frame? id).map (·.outer) = (store.frame? id).map (·.outer))
    (hclosed : ∀ id ∈ S, ∀ frame outer, store.frame? id = some frame →
      frame.outer = some outer → outer ∈ S) {id : FrameId} (hid : id ∈ S) :
    store'.chain id = store.chain id := by
  induction id using Nat.strongRecOn with
  | _ id ih =>
    have hsame := hframes id hid
    cases hframe : store.frame? id with
    | none =>
      rw [hframe, Option.map_none, Option.map_eq_none_iff] at hsame
      rw [chain_of_none hframe, chain_of_none hsame]
    | some frame =>
      rw [hframe, Option.map_some, Option.map_eq_some_iff] at hsame
      obtain ⟨frame', hframe', heq⟩ := hsame
      cases houter : frame.outer with
      | none => rw [chain_of_root hframe houter, chain_of_root hframe' (heq.trans houter)]
      | some outer =>
        rw [chain_of_outer hframe houter, chain_of_outer hframe' (heq.trans houter),
          ih outer (store.outer_lt id frame outer hframe houter)
            (hclosed id hid frame outer hframe houter)]

/-- Walking outwards does not leave a set of frames that lie in frames of the set. -/
theorem mem_of_mem_chain {store : Store} {S : Set FrameId}
    (hclosed : ∀ id ∈ S, ∀ frame outer, store.frame? id = some frame →
      frame.outer = some outer → outer ∈ S) {id other : FrameId} (hid : id ∈ S)
    (hother : other ∈ store.chain id) : other ∈ S := by
  induction id using Nat.strongRecOn with
  | _ id ih =>
    cases hframe : store.frame? id with
    | none =>
      rw [chain_of_none hframe] at hother
      cases hother
    | some frame =>
      cases houter : frame.outer with
      | none =>
        rw [chain_of_root hframe houter, List.mem_singleton] at hother
        rw [hother]
        exact hid
      | some outer =>
        rw [chain_of_outer hframe houter, List.mem_cons] at hother
        rcases hother with rfl | hother
        · exact hid
        · exact ih outer (store.outer_lt id frame outer hframe houter)
            (hclosed id hid frame outer hframe houter) hother

theorem root_eq_of_chain {store store' : Store} {id : FrameId}
    (h : store'.chain id = store.chain id) : store'.root id = store.root id := by
  unfold root
  rw [h]

/-- The root around a frame is the root around the one that the frame lies in. -/
theorem root_of_outer {store : Store} {id outer : FrameId} {frame : Frame}
    (hframe : store.frame? id = some frame) (houter : frame.outer = some outer)
    (hlt : outer < store.size) : store.root id = store.root outer := by
  obtain ⟨root, hlast, -⟩ := exists_getLast?_chainWithin (Nat.lt_succ_self outer) hlt
  change (store.chain outer).getLast? = some root at hlast
  unfold Store.root
  rw [chain_of_outer hframe houter, List.getLast?_cons, hlast]
  rfl

/-- What a name means is what some frame binds it to. -/
theorem exists_local?_of_lookup? {store : Store} {id : FrameId} {name : String} {value : Value}
    (h : store.lookup? id name = some value) : ∃ other, store.local? other name = some value := by
  obtain ⟨other, -, hlocal⟩ := List.exists_of_findSome?_eq_some h
  exact ⟨other, hlocal⟩

/-- On a root a name means what the root itself binds it to. -/
theorem lookup?_of_isRoot {store : Store} {id : FrameId} (h : store.isRoot id = true)
    (name : String) : store.lookup? id name = store.local? id name := by
  obtain ⟨frame, hframe, houter⟩ := isRoot_iff.1 h
  rw [lookup?, chain_of_root hframe houter, List.findSome?_singleton]

/-- A name means something only in a frame that exists. -/
theorem lt_size_of_lookup? {store : Store} {id : FrameId} {name : String} {value : Value}
    (h : store.lookup? id name = some value) : id < store.size := by
  cases hframe : store.frame? id with
  | some frame => exact lt_size_of_frame? hframe
  | none =>
    rw [lookup?, chain_of_none hframe] at h
    cases h

theorem exists_frame?_of_local? {store : Store} {id : FrameId} {name : String} {value : Value}
    (h : store.local? id name = some value) :
    ∃ frame, store.frame? id = some frame ∧ frame.get? name = some value :=
  Option.bind_eq_some_iff.1 h

/-- What a name means depends on the frames only. -/
theorem lookup?_congr {store store' : Store} (h : ∀ id, store'.frame? id = store.frame? id)
    (id : FrameId) (name : String) : store'.lookup? id name = store.lookup? id name := by
  have hchain : store'.chain id = store.chain id := chain_congr (S := Set.univ)
    (fun id _ => congrArg (Option.map (·.outer)) (h id)) (fun _ _ _ _ _ _ => trivial) trivial
  simp only [lookup?, hchain, local?, h]

/-- Binding a name leaves the meaning of every other name as it is. -/
theorem lookup?_write_of_ne (store : Store) (id : FrameId) {name name' : String} (value : Value)
    (event : Event) (hname : name' ≠ name) (other : FrameId) :
    ((store.write id name value).record event).lookup? other name' =
      store.lookup? other name' := by
  have hframe : ∀ other, ((store.write id name value).record event).frame? other =
      if id = other then (store.frame? other).map (·.set name value) else store.frame? other :=
    fun other => frame?_write store id other name value
  have hchain : ((store.write id name value).record event).chain other = store.chain other := by
    refine chain_congr (S := Set.univ) (fun other _ => ?_) (fun _ _ _ _ _ _ => trivial) trivial
    rw [hframe]
    split
    · simp [Function.comp_def]
    · rfl
  have hlocal : ∀ other, ((store.write id name value).record event).local? other name' =
      store.local? other name' := by
    intro other
    unfold local?
    rw [hframe]
    split
    · cases store.frame? other with
      | none => rfl
      | some frame => exact (Frame.get?_set frame name name' value).trans (if_neg hname)
    · rfl
  simp only [lookup?, hchain, hlocal]

/-- A new frame leaves the meaning of names in the frames that are there as it is. -/
theorem lookup?_push_of_lt (store : Store) (outer : Option FrameId) {id : FrameId}
    (hid : id < store.size) (name : String) :
    (store.push outer).lookup? id name = store.lookup? id name := by
  have hframe : ∀ id < store.size, (store.push outer).frame? id = store.frame? id := by
    intro id hid
    rw [frame?_push, if_neg (Nat.ne_of_lt hid)]
  have hclosed : ∀ id < store.size, ∀ frame outer, store.frame? id = some frame →
      frame.outer = some outer → outer < store.size := fun id hid frame outer hget houter =>
    (store.outer_lt id frame outer hget houter).trans hid
  have hchain : (store.push outer).chain id = store.chain id :=
    chain_congr (S := {id | id < store.size}) (fun id hid => by rw [hframe id hid]) hclosed hid
  have hlocal : ∀ other ∈ store.chain id, (store.push outer).local? other name =
      store.local? other name := fun other hother => by
    rw [local?, local?,
      hframe other (mem_of_mem_chain (S := {id | id < store.size}) hclosed hid hother)]
  unfold lookup?
  rw [hchain]
  generalize store.chain id = ids at hlocal
  induction ids with
  | nil => rfl
  | cons other ids ih =>
    rw [List.forall_mem_cons] at hlocal
    rw [List.findSome?_cons, List.findSome?_cons, hlocal.1, ih hlocal.2]

/-- In a new frame a name means what it means in the frame outside. -/
theorem lookup?_push_size {store : Store} {outer : FrameId} (houter : outer < store.size)
    (name : String) :
    (store.push (some outer)).lookup? store.size name = store.lookup? outer name := by
  have hframe : (store.push (some outer)).frame? store.size = some ⟨some outer, []⟩ := by
    rw [frame?_push_some houter, if_pos rfl]
  have hlocal : (store.push (some outer)).local? store.size name = none := by
    rw [local?, hframe]
    rfl
  rw [← lookup?_push_of_lt store (some outer) houter, lookup?, chain_of_outer hframe rfl,
    List.findSome?_cons, hlocal]
  rfl

/-! ## What names are bound to -/

/-- Every name but those given is bound to values that have a property. -/
def Grants (names : List String) (p : Value → Prop) (store : Store) : Prop :=
  ∀ id name value, store.local? id name = some value → name ∉ names → p value

namespace Grants

variable {names : List String} {p : Value → Prop} {store : Store}

theorem of_frames (h : ∀ frame ∈ store.frames.toList, ∀ var ∈ frame.vars,
    var.1 ∉ names → p var.2) : Grants names p store := by
  intro id name value hlocal hname
  obtain ⟨frame, hframe, hget⟩ := exists_frame?_of_local? hlocal
  have hmem : frame ∈ store.frames.toList := Array.mem_toList_iff.2 (Array.mem_of_getElem? hframe)
  exact h frame hmem _ (Frame.mem_vars_of_get? hget) hname

theorem write (h : Grants names p store) (id : FrameId) {name : String} {value : Value}
    (hvalue : name ∉ names → p value) : Grants names p (store.write id name value) := by
  intro other name' value' hlocal hname'
  obtain ⟨frame, hframe, hget⟩ := exists_frame?_of_local? hlocal
  have hold : ∀ before, store.frame? other = some before → before.get? name' = some value' →
      p value' := by
    intro before hbefore hget
    refine h other name' value' ?_ hname'
    rw [local?, hbefore]
    exact hget
  rw [frame?_write] at hframe
  split at hframe
  · obtain ⟨before, hbefore, rfl⟩ := Option.map_eq_some_iff.1 hframe
    rw [Frame.get?_set] at hget
    split at hget
    · rename_i heq
      cases hget
      exact hvalue (heq ▸ hname')
    · exact hold before hbefore hget
  · exact hold frame hframe hget

theorem push (h : Grants names p store) (outer : Option FrameId) :
    Grants names p (store.push outer) := by
  intro other name value hlocal hname
  obtain ⟨frame, hframe, hget⟩ := exists_frame?_of_local? hlocal
  rw [frame?_push] at hframe
  split at hframe
  · cases hframe
    cases hget
  · refine h other name value ?_ hname
    rw [local?, hframe]
    exact hget

theorem lookup? (h : Grants names p store) {id : FrameId} {name : String} {value : Value}
    (hname : name ∉ names) (hlookup : store.lookup? id name = some value) : p value := by
  obtain ⟨other, hlocal⟩ := exists_local?_of_lookup? hlookup
  exact h other name value hlocal hname

end Grants

/-! ## References -/

/-- The frame that a capability refers to exists. -/
def Holds (store : Store) : Value → Prop
  | .function _ _ _ home => home < store.size
  | .environment frame => frame < store.size
  | _ => True

/-- Every frame that a binding refers to exists. -/
def Closed (store : Store) : Prop :=
  ∀ id frame, store.frame? id = some frame → ∀ var ∈ frame.vars, var.2.Every store.Holds

theorem Holds.mono {store store' : Store} {c : Value} (h : store.Holds c)
    (hsize : store.size ≤ store'.size) : store'.Holds c := by
  cases c with
  | function | environment => exact Nat.lt_of_lt_of_le h hsize
  | _ => trivial

theorem every_holds_mono {store store' : Store} {value : Value} (h : value.Every store.Holds)
    (hsize : store.size ≤ store'.size) : value.Every store'.Holds :=
  h.mono fun _ hc => hc.mono hsize

theorem Closed.push {store : Store} (h : store.Closed) (outer : Option FrameId) :
    (store.push outer).Closed := by
  intro id frame hframe var hvar
  rw [frame?_push] at hframe
  split at hframe
  · cases hframe
    cases hvar
  · exact every_holds_mono (h id frame hframe var hvar) (by simp)

theorem Closed.write {store : Store} (h : store.Closed) (id : FrameId) (name : String)
    {value : Value} (hvalue : value.Every store.Holds) : (store.write id name value).Closed := by
  intro other frame hframe var hvar
  have hsize : store.size ≤ (store.write id name value).size := by simp
  rw [frame?_write] at hframe
  split at hframe
  · obtain ⟨before, hbefore, rfl⟩ := Option.map_eq_some_iff.1 hframe
    rcases Frame.mem_setVar hvar with hvar | rfl
    · exact every_holds_mono (h other before hbefore var hvar) hsize
    · exact every_holds_mono hvalue hsize
  · exact every_holds_mono (h other frame hframe var hvar) hsize

/-- In a closed store a name means something that refers to frames that exist. -/
theorem Closed.lookup? {store : Store} (h : store.Closed) {id : FrameId} {name : String}
    {value : Value} (hlookup : store.lookup? id name = some value) : value.Every store.Holds := by
  obtain ⟨other, hlocal⟩ := exists_local?_of_lookup? hlookup
  obtain ⟨frame, hframe, hget⟩ := exists_frame?_of_local? hlocal
  exact h other frame hframe _ (Frame.mem_vars_of_get? hget)

end Store

end SmallLisp
