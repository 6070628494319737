import SmallLisp.Proofs.Discipline
import SmallLisp.Proofs.Frames

/-!
# What a pattern takes from a value

Binding a pattern is an attempt to bind names one after the other, and which names these are, and to
what, can be said without a frame: `Pattern.parts`. A part that can take nothing from its value ends
the row.

* `Pattern.bind_eq_carryOut`, `Pattern.bindEach_eq_carryOut`: binding a pattern carries out its
  parts.
* `Pattern.bindings_partsEach`: if nothing is wrong, each of several patterns takes its share from
  its own item, whatever the others take.
* `Store.frame?_of_defineAll_ok`: names that are bound in a frame inside another one stand there in
  order, each of them once.
-/

namespace SmallLisp

namespace Store

/-! ## Names one after the other -/

theorem defineAll_cons (id : FrameId) (binding : Value × Value)
    (bindings : List (Value × Value)) :
    defineAll id (binding :: bindings) =
      (define id binding.1 binding.2 >>= fun _ => defineAll id bindings) := rfl

theorem defineAll_append (id : FrameId) (first second : List (Value × Value)) :
    defineAll id (first ++ second) =
      (defineAll id first >>= fun _ => defineAll id second) := by
  induction first with
  | nil => rfl
  | cons binding first ih =>
    rw [List.cons_append, defineAll_cons, defineAll_cons, ih, bind_assoc]

end Store

namespace Pattern

/-! ## The parts of a pattern -/

/-- Names with the values that they take, in order, and why no further one takes any. -/
structure Parts where
  /-- The names, each with its value. -/
  bindings : List (String × Value)
  /-- What is wrong behind the last one. -/
  failure : Option BindError

/-- Further parts count if nothing is wrong in front of them. -/
def Parts.andThen (first second : Parts) : Parts :=
  match first.failure with
  | some _ => first
  | none => ⟨first.bindings ++ second.bindings, second.failure⟩

mutual

/-- What a pattern takes from a value. -/
def parts : Value → Value → Parts
  | .symbol name, value => ⟨[(name, value)], none⟩
  | .vector patterns, value =>
    match positions value with
    | .ok items => partsEach patterns items
    | .error reason => ⟨[], some reason⟩
  | other, _ => ⟨[], some (.target other)⟩

/-- What patterns take from items by position. -/
def partsEach : List Value → List Value → Parts
  | [], _ => ⟨[], none⟩
  | pattern :: patterns, items =>
    (parts pattern (items.head?.getD .nil)).andThen (partsEach patterns items.tail)

end

/-- If nothing is wrong, each pattern takes its share from its own item. -/
theorem bindings_partsEach {patterns items : List Value} (hlength : items.length = patterns.length)
    (h : (partsEach patterns items).failure = none) :
    (partsEach patterns items).bindings =
      ((patterns.zip items).map fun pair => (parts pair.1 pair.2).bindings).flatten := by
  induction patterns generalizing items with
  | nil =>
    rw [List.length_eq_zero_iff.1 hlength]
    rfl
  | cons pattern patterns ih =>
    obtain ⟨item, items, rfl⟩ := List.exists_cons_of_length_eq_add_one hlength
    rw [partsEach, Parts.andThen, List.head?_cons, Option.getD_some, List.tail_cons] at h ⊢
    cases hfirst : (parts pattern item).failure with
    | some reason =>
      rw [hfirst] at h
      dsimp only at h
      rw [hfirst] at h
      cases h
    | none =>
      rw [hfirst] at h
      dsimp only at h ⊢
      rw [ih (Nat.succ.inj hlength) h, List.zip_cons_cons, List.map_cons, List.flatten_cons]

/-! ## Carrying them out -/

/-- The names as they are bound. -/
def Parts.targets (parts : Parts) : List (Value × Value) :=
  parts.bindings.map fun binding => (.symbol binding.1, binding.2)

/-- Binds the names one after the other, then reports what is wrong. -/
def Parts.carryOut (id : FrameId) (parts : Parts) : Store.Writing Unit := do
  Store.defineAll id parts.targets
  match parts.failure with
  | some reason => throw reason
  | none => pure ()

theorem Parts.carryOut_andThen (id : FrameId) (first second : Parts) :
    (first.andThen second).carryOut id =
      (first.carryOut id >>= fun _ => second.carryOut id) := by
  obtain ⟨bindings, failure⟩ := first
  cases failure with
  | none =>
    simp only [carryOut, andThen, targets, List.map_append, Store.defineAll_append, bind_assoc,
      pure_bind]
  | some reason =>
    simp only [carryOut, andThen, bind_assoc]
    rfl

mutual

/-- **Binding a pattern carries out its parts.** -/
theorem bind_eq_carryOut (id : FrameId) : ∀ pattern value : Value,
    bind id pattern value = (parts pattern value).carryOut id
  | .symbol name, value => by
    rw [bind, parts, Parts.carryOut]
    simp [Parts.targets, Store.defineAll]
  | .vector patterns, value => by
    rw [bind, parts]
    cases positions value with
    | error reason => rfl
    | ok items => exact bindEach_eq_carryOut id patterns items
  | .nil, _ | .bool _, _ | .number _, _ | .str _, _ | .keyword _, _ | .list _, _ | .map _, _
  | .function .., _ | .host .., _ | .transformer .., _ | .environment _, _ => rfl

/-- Binding patterns by position carries out the parts of each. -/
theorem bindEach_eq_carryOut (id : FrameId) : ∀ patterns items : List Value,
    bindEach id patterns items = (partsEach patterns items).carryOut id
  | [], _ => rfl
  | pattern :: patterns, items => by
    rw [bindEach, partsEach, Parts.carryOut_andThen, bind_eq_carryOut id pattern,
      bindEach_eq_carryOut id patterns]

end

/-- Parts that were carried out are all that there are. -/
theorem Parts.failure_of_carryOut {id : FrameId} {parts : Parts} {store store' : Store}
    (h : parts.carryOut id store = .ok () store') :
    parts.failure = none ∧ Store.defineAll id parts.targets store = .ok () store' := by
  change EStateM.bind (Store.defineAll id parts.targets) _ store = _ at h
  unfold EStateM.bind at h
  split at h
  · rename_i hall
    rw [hall]
    cases hfailure : parts.failure with
    | none =>
      rw [hfailure] at h
      exact ⟨rfl, h⟩
    | some reason =>
      rw [hfailure] at h
      cases h
  · cases h

end Pattern

namespace Store

/-! ## Names in a frame inside another one -/

theorem defineAll_cons_ok {id : FrameId} {name value : Value} {rest : List (Value × Value)}
    {store store' : Store} (h : defineAll id ((name, value) :: rest) store = .ok () store') :
    ∃ between, define id name value store = .ok () between ∧
      defineAll id rest between = .ok () store' := by
  change EStateM.bind (define id name value) _ store = _ at h
  unfold EStateM.bind at h
  split at h
  · rename_i between hfirst
    exact ⟨between, hfirst, h⟩
  · cases h

/-- Names that are bound in a frame inside another one were not bound there before. -/
theorem frame?_of_define_ok {id outer : FrameId} {name : String} {value : Value} {frame : Frame}
    {store store' : Store} (hframe : store.frame? id = some frame)
    (houter : frame.outer = some outer)
    (h : define id (.symbol name) value store = .ok () store') :
    store'.frame? id = some { frame with vars := frame.vars ++ [(name, value)] } := by
  have hroot : store.isRoot id = false := by
    simp [isRoot, hframe, houter]
  have hlocal : store.local? id name = frame.get? name := by
    simp [local?, hframe]
  rw [define_symbol, hroot, hlocal] at h
  cases hget : frame.get? name with
  | some old =>
    simp [hget] at h
  | none =>
    simp only [hget, Option.isSome_none, Bool.false_and, Bool.false_eq_true, if_false] at h
    cases h
    have hvars := Frame.set_of_get?_eq_none value hget
    rw [frame?_extend, if_pos rfl, hframe, Option.map_some, ← hvars]
    rfl

/-- Names that are bound one after the other in a frame inside another one stand there in this
order, behind those that stood there. -/
theorem frame?_of_defineAll_ok {id outer : FrameId} {bindings : List (String × Value)}
    {frame : Frame} {store store' : Store} (hframe : store.frame? id = some frame)
    (houter : frame.outer = some outer)
    (h : defineAll id (bindings.map fun binding => (.symbol binding.1, binding.2)) store =
      .ok () store') :
    store'.frame? id = some { frame with vars := frame.vars ++ bindings } := by
  induction bindings generalizing frame store with
  | nil =>
    cases h
    rw [hframe, List.append_nil]
  | cons binding bindings ih =>
    obtain ⟨between, hfirst, hrest⟩ := defineAll_cons_ok h
    have hbetween := frame?_of_define_ok hframe houter hfirst
    rw [ih hbetween houter hrest, List.append_assoc, List.singleton_append]

end Store

end SmallLisp
