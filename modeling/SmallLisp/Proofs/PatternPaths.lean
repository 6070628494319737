import SmallLisp.Proofs.WriteHistory

/-!
# Destructuring, place by place

A pattern is a tree whose leaves are symbols, and binding it goes through the tree once. Here the
tree is read as the row of its spots, from left to right and each vector before what is in it, and
**`Pattern.bind_exact`** says what binding does in terms of that row alone:

* it succeeds exactly if nothing is wrong at any spot;
* otherwise the first spot at which something is wrong decides which fault is reported;
* the frame gains the symbols of the spots that come before, each with the value at the end of the
  path that leads to the symbol, and nothing else happens to any frame.

The words of the statement:

* `Pattern.at?`, `Pattern.reach`: following one path, into the pattern and into the value.
* `Pattern.spots`: all paths into the pattern, in their lexicographic order (`Pattern.mem_spots`,
  `Pattern.pairwise_spots`).
* `Spot.offence?`: what is wrong at a spot, for a frame that has the symbols before it by then.

What happens at one spot is `Spot.bind_eq`, and `Pattern.forM_spots` is the run over the row.
-/

namespace SmallLisp

/-! ## Frames that receive bindings -/

namespace Frame

/-- The frame with the bindings written to it in order. -/
def receive (frame : Frame) (bindings : List (String × Value)) : Frame :=
  bindings.foldl (fun frame binding => frame.set binding.1 binding.2) frame

theorem receive_concat (frame : Frame) (bindings : List (String × Value))
    (binding : String × Value) :
    frame.receive (bindings ++ [binding]) = (frame.receive bindings).set binding.1 binding.2 := by
  simp [receive]

@[simp] theorem outer_receive (frame : Frame) (bindings : List (String × Value)) :
    (frame.receive bindings).outer = frame.outer := by
  induction bindings using List.reverseRecOn with
  | nil => rfl
  | append_singleton bindings binding ih => rw [receive_concat, outer_set, ih]

/-- A name means what was written last to it, or what it meant before. -/
theorem get?_receive (frame : Frame) (bindings : List (String × Value)) (name : String) :
    (frame.receive bindings).get? name =
      (bindings.reverse.lookup name).or (frame.get? name) := by
  induction bindings using List.reverseRecOn with
  | nil => rfl
  | append_singleton bindings binding ih =>
    obtain ⟨bound, value⟩ := binding
    rw [receive_concat, get?_set, ih, List.reverse_append, List.reverse_singleton,
      List.singleton_append, List.lookup_cons]
    by_cases h : name = bound
    · simp [h]
    · have hne : (name == bound) = false := by simp [h]
      simp [h, hne]

/-- New names come behind those that are there, in the order in which they first arrive. -/
theorem names_receive (frame : Frame) (bindings : List (String × Value)) :
    (frame.receive bindings).names =
      frame.names ++ ((bindings.map (·.1)).filter (· ∉ frame.names)).eraseDups := by
  induction bindings using List.reverseRecOn with
  | nil => simp [receive]
  | append_singleton bindings binding ih =>
    have hset := names_setVar (frame.receive bindings).vars binding.1 binding.2
    change ((frame.receive bindings).set binding.1 binding.2).names =
      if binding.1 ∈ (frame.receive bindings).names then (frame.receive bindings).names
      else (frame.receive bindings).names ++ [binding.1] at hset
    rw [receive_concat, hset, ih, List.map_append, List.filter_append, List.eraseDups_append]
    by_cases hframe : binding.1 ∈ frame.names
    · simp [hframe]
    · by_cases hbindings : binding.1 ∈ bindings.map (·.1)
      · simp_all [List.removeAll]
      · simp_all [List.removeAll, List.eraseDups_cons]

theorem mem_names_receive {frame : Frame} {bindings : List (String × Value)} {name : String} :
    name ∈ (frame.receive bindings).names ↔
      name ∈ frame.names ∨ name ∈ bindings.map (·.1) := by
  rw [names_receive, List.mem_append, List.mem_eraseDups, List.mem_filter, decide_eq_true_eq]
  by_cases hname : name ∈ frame.names <;> simp [hname]

theorem isSome_get?_iff {frame : Frame} {name : String} :
    (frame.get? name).isSome = true ↔ name ∈ frame.names := by
  constructor
  · intro h
    obtain ⟨value, hvalue⟩ := Option.isSome_iff_exists.1 h
    exact List.mem_map_of_mem (mem_vars_of_get? hvalue)
  · intro h
    by_contra hnone
    rw [Option.not_isSome_iff_eq_none] at hnone
    exact not_mem_names_of_get?_eq_none hnone h

/-- Names that are all new stand behind those that are there. -/
theorem receive_of_fresh {frame : Frame} {bindings : List (String × Value)}
    (hnodup : (bindings.map (·.1)).Nodup)
    (hfresh : ∀ name ∈ bindings.map (·.1), name ∉ frame.names) :
    frame.receive bindings = { frame with vars := frame.vars ++ bindings } := by
  induction bindings using List.reverseRecOn with
  | nil => simp [receive]
  | append_singleton bindings binding ih =>
    rw [List.map_append, List.nodup_append] at hnodup
    rw [List.map_append, List.forall_mem_append] at hfresh
    have hreceive := ih hnodup.1 hfresh.1
    have hget : (frame.receive bindings).get? binding.1 = none := by
      rw [← Option.not_isSome_iff_eq_none, isSome_get?_iff, mem_names_receive, not_or]
      exact ⟨hfresh.2 _ (by simp), fun hmem => hnodup.2.2 _ hmem binding.1 (by simp) rfl⟩
    have hset := set_of_get?_eq_none binding.2 hget
    rw [receive_concat]
    calc (frame.receive bindings).set binding.1 binding.2
        = { frame.receive bindings with vars := (frame.receive bindings).vars ++ [binding] } := by
          rw [← hset]; rfl
      _ = _ := by rw [hreceive]; simp

end Frame

namespace Store

/-- The store with the bindings written to a frame in order. -/
def extendAll (store : Store) (id : FrameId) (bindings : List (String × Value)) : Store :=
  bindings.foldl (fun store binding => store.extend id binding.1 binding.2) store

theorem extendAll_concat (store : Store) (id : FrameId) (bindings : List (String × Value))
    (binding : String × Value) :
    store.extendAll id (bindings ++ [binding]) =
      (store.extendAll id bindings).extend id binding.1 binding.2 := by
  simp [extendAll]

/-- The frame receives the bindings, and no other frame receives anything. -/
theorem frame?_extendAll (store : Store) (id other : FrameId) (bindings : List (String × Value)) :
    (store.extendAll id bindings).frame? other =
      if id = other then (store.frame? other).map (·.receive bindings) else store.frame? other := by
  induction bindings using List.reverseRecOn with
  | nil => simp [extendAll, Frame.receive]
  | append_singleton bindings binding ih =>
    rw [extendAll_concat, frame?_extend, ih]
    split
    · rw [Option.map_map]
      congr 1
      funext frame
      exact (frame.receive_concat bindings binding).symm
    · rfl

end Store

namespace Pattern

/-! ## Paths -/

/-- A place in a sequence, one in the sequence that stands there, and so on. -/
abbrev Path := List Nat

/-- The part of a pattern that a path leads to. -/
def at? : Value → Path → Option Value
  | part, [] => some part
  | .vector patterns, place :: path => patterns[place]?.bind fun pattern => at? pattern path
  | _, _ :: _ => none

/-- The value that a path leads to. A place that a sequence does not have counts as `nil`. -/
def reach : Value → Path → Value
  | value, [] => value
  | value, place :: path => reach ((value.sequence?.getD [])[place]?.getD .nil) path

/-- The value can be taken apart by position: it is a sequence, or `nil`. -/
def Sequential (value : Value) : Prop :=
  value = .nil ∨ value.sequence?.isSome = true

/-- A part of a pattern, with the path that leads to it. -/
structure Spot where
  /-- The path. -/
  path : Path
  /-- The part. -/
  part : Value

/-- A spot of the pattern that stands at a place of a vector, as a spot of that vector. -/
def Spot.below (place : Nat) (spot : Spot) : Spot :=
  ⟨place :: spot.path, spot.part⟩

mutual

/-- The spots of a pattern, from left to right. -/
def spots : Value → List Spot
  | .vector patterns => ⟨[], .vector patterns⟩ :: spotsFrom 0 patterns
  | part => [⟨[], part⟩]

/-- The spots of patterns that stand in a vector from a place on. -/
def spotsFrom (place : Nat) : List Value → List Spot
  | [] => []
  | pattern :: patterns => (spots pattern).map (Spot.below place) ++ spotsFrom (place + 1) patterns

end

mutual

/-- Every part of a pattern has its spot, and no spot shows anything else. -/
theorem mem_spots : ∀ {pattern : Value} {spot : Spot},
    spot ∈ spots pattern ↔ at? pattern spot.path = some spot.part
  | .vector patterns, ⟨[], part⟩ => by
    rw [spots, List.mem_cons, mem_spotsFrom]
    simp [at?, eq_comm]
  | .vector patterns, ⟨place :: path, part⟩ => by
    rw [spots, List.mem_cons, mem_spotsFrom]
    simp [at?]
  | .symbol _, ⟨path, _⟩ | .nil, ⟨path, _⟩ | .bool _, ⟨path, _⟩ | .number _, ⟨path, _⟩
  | .str _, ⟨path, _⟩ | .keyword _, ⟨path, _⟩ | .list _, ⟨path, _⟩ | .map _, ⟨path, _⟩
  | .function .., ⟨path, _⟩ | .host .., ⟨path, _⟩ | .transformer .., ⟨path, _⟩
  | .environment _, ⟨path, _⟩ => by
    cases path <;> simp [spots, at?, eq_comm]

/-- A spot from a place on leads into one of the patterns from there on. -/
theorem mem_spotsFrom : ∀ {patterns : List Value} {place : Nat} {spot : Spot},
    spot ∈ spotsFrom place patterns ↔ ∃ n path, spot.path = (place + n) :: path ∧
      (patterns[n]?.bind fun pattern => at? pattern path) = some spot.part
  | [], place, spot => by simp [spotsFrom]
  | pattern :: patterns, place, ⟨path, part⟩ => by
    rw [spotsFrom, List.mem_append, List.mem_map, mem_spotsFrom]
    constructor
    · rintro (⟨spot, hspot, heq⟩ | ⟨n, path, hpath, hpart⟩)
      · cases heq
        exact ⟨0, spot.path, rfl, mem_spots.1 hspot⟩
      · exact ⟨n + 1, path, by rw [hpath, Nat.add_right_comm, Nat.add_assoc], hpart⟩
    · rintro ⟨_ | n, path, hpath, hpart⟩
      · refine .inl ⟨⟨path, part⟩, mem_spots.2 hpart, ?_⟩
        exact congrArg (Spot.mk · part) hpath.symm
      · exact .inr ⟨n, path, by rw [hpath, Nat.add_right_comm, Nat.add_assoc], hpart⟩

end

mutual

/-- The spots of a pattern stand in the order of their paths. -/
theorem pairwise_spots : ∀ pattern : Value,
    (spots pattern).Pairwise fun a b => a.path < b.path
  | .vector patterns => by
    rw [spots, List.pairwise_cons]
    refine ⟨fun spot hspot => ?_, pairwise_spotsFrom 0 patterns⟩
    obtain ⟨n, path, hpath, -⟩ := mem_spotsFrom.1 hspot
    rw [hpath]
    exact List.nil_lt_cons _ _
  | .symbol _ | .nil | .bool _ | .number _ | .str _ | .keyword _ | .list _ | .map _
  | .function .. | .host .. | .transformer .. | .environment _ => List.pairwise_singleton _ _

/-- So do the spots of patterns in a vector. -/
theorem pairwise_spotsFrom : ∀ (place : Nat) (patterns : List Value),
    (spotsFrom place patterns).Pairwise fun a b => a.path < b.path
  | _, [] => List.Pairwise.nil
  | place, pattern :: patterns => by
    rw [spotsFrom, List.pairwise_append]
    refine ⟨?_, pairwise_spotsFrom (place + 1) patterns, fun first hfirst second hsecond => ?_⟩
    · rw [List.pairwise_map]
      refine (pairwise_spots pattern).imp fun {a b} hab => ?_
      exact List.cons_lt_cons_iff.2 (.inr ⟨rfl, hab⟩)
    · obtain ⟨spot, -, rfl⟩ := List.mem_map.1 hfirst
      obtain ⟨n, path, hpath, -⟩ := mem_spotsFrom.1 hsecond
      rw [hpath]
      exact List.cons_lt_cons_iff.2 (.inl (by omega))

end

/-! ## One spot -/

/-- What a spot takes from a value: a symbol takes the value at the end of its path. -/
def Spot.binding? (value : Value) (spot : Spot) : Option (String × Value) :=
  spot.part.symbolName?.map fun name => (name, reach value spot.path)

/-- The symbols of a row of spots. -/
def names (spots : List Spot) : List String :=
  spots.filterMap (·.part.symbolName?)

/-- The symbols of a row of spots, each with the value at the end of its path. -/
def bindings (value : Value) (spots : List Spot) : List (String × Value) :=
  spots.filterMap (·.binding? value)

/-- What is wrong at a spot, for a frame that has the symbols of the earlier spots by then. A frame
inside another one refuses a symbol that it has. -/
def Spot.offence? (frame : Frame) (earlier : List Spot) (value : Value) (spot : Spot) :
    Option BindError :=
  match spot.part with
  | .symbol name =>
    if frame.outer.isSome ∧ (name ∈ frame.names ∨ name ∈ names earlier) then
      some (.duplicate name)
    else none
  | .vector _ =>
    match positions (reach value spot.path) with
    | .ok _ => none
    | .error reason => some reason
  | part => some (.target part)

/-- Nothing is wrong at any spot of a row that stands behind the earlier ones. -/
def Clear (frame : Frame) (value : Value) : List Spot → List Spot → Prop
  | _, [] => True
  | earlier, spot :: spots =>
    spot.offence? frame earlier value = none ∧ Clear frame value (earlier ++ [spot]) spots

theorem clear_append {frame : Frame} {value : Value} {earlier first second : List Spot} :
    Clear frame value earlier (first ++ second) ↔
      Clear frame value earlier first ∧ Clear frame value (earlier ++ first) second := by
  induction first generalizing earlier with
  | nil => simp [Clear]
  | cons spot first ih => simp [Clear, ih, and_assoc]

theorem names_cons (spot : Spot) (spots : List Spot) :
    names (spot :: spots) = spot.part.symbolName?.toList ++ names spots := by
  rw [names, List.filterMap_cons]
  cases spot.part.symbolName? <;> rfl

theorem names_concat (spots : List Spot) (spot : Spot) :
    names (spots ++ [spot]) = names spots ++ spot.part.symbolName?.toList := by
  rw [names, List.filterMap_append]
  exact congrArg _ ((names_cons spot []).trans (List.append_nil _))

theorem map_fst_bindings (value : Value) (spots : List Spot) :
    (bindings value spots).map (·.1) = names spots := by
  rw [bindings, names, List.map_filterMap]
  congr 1
  funext spot
  simp [Spot.binding?, Function.comp_def]

/-- What binding does at a spot. -/
def Spot.bind (id : FrameId) (value : Value) (spot : Spot) : Store.Writing Unit :=
  match spot.part with
  | .symbol name => Store.define id (.symbol name) (reach value spot.path)
  | .vector _ =>
    match positions (reach value spot.path) with
    | .ok _ => pure ()
    | .error reason => throw reason
  | part => throw (.target part)

theorem forM_cons (id : FrameId) (value : Value) (spot : Spot) (spots : List Spot) :
    (spot :: spots).forM (Spot.bind id value) =
      (spot.bind id value >>= fun _ => spots.forM (Spot.bind id value)) := rfl

theorem forM_singleton (id : FrameId) (value : Value) (spot : Spot) :
    [spot].forM (Spot.bind id value) = spot.bind id value := by
  rw [forM_cons]
  exact bind_pure_comp _ _ |>.trans (id_map' _)

theorem forM_append (id : FrameId) (value : Value) (first second : List Spot) :
    (first ++ second).forM (Spot.bind id value) =
      (first.forM (Spot.bind id value) >>= fun _ => second.forM (Spot.bind id value)) := by
  induction first with
  | nil => rfl
  | cons spot first ih => rw [List.cons_append, forM_cons, forM_cons, ih, bind_assoc]

theorem forM_below (id : FrameId) (value : Value) (place : Nat) (spots : List Spot) :
    (spots.map (Spot.below place)).forM (Spot.bind id value) =
      spots.forM (Spot.bind id ((value.sequence?.getD [])[place]?.getD .nil)) := by
  induction spots with
  | nil => rfl
  | cons spot spots ih => rw [List.map_cons, forM_cons, forM_cons, ih]; rfl

theorem sequence?_of_positions {value : Value} {items : List Value}
    (h : positions value = .ok items) : value.sequence?.getD [] = items := by
  cases value <;> cases h <;> rfl

mutual

/-- **Binding a pattern goes through its spots.** -/
theorem bind_eq_forM (id : FrameId) : ∀ pattern value : Value,
    bind id pattern value = (spots pattern).forM (Spot.bind id value)
  | .symbol name, value => by
    show _ = [Spot.mk [] (.symbol name)].forM (Spot.bind id value)
    rw [forM_singleton, bind]
    rfl
  | .vector patterns, value => by
    rw [spots, forM_cons, bind]
    simp only [Spot.bind, reach]
    cases hitems : positions value with
    | error reason => rfl
    | ok items =>
      have heach := bindEach_eq_forM id patterns 0 value
      rw [List.drop_zero, sequence?_of_positions hitems] at heach
      exact heach
  | .nil, _ | .bool _, _ | .number _, _ | .str _, _ | .keyword _, _ | .list _, _ | .map _, _
  | .function .., _ | .host .., _ | .transformer .., _ | .environment _, _ => rfl

/-- Binding patterns by position goes through the spots of each. -/
theorem bindEach_eq_forM (id : FrameId) : ∀ (patterns : List Value) (place : Nat) (value : Value),
    bindEach id patterns ((value.sequence?.getD []).drop place) =
      (spotsFrom place patterns).forM (Spot.bind id value)
  | [], _, _ => rfl
  | pattern :: patterns, place, value => by
    rw [bindEach, spotsFrom, forM_append, forM_below, bind_eq_forM id pattern,
      List.head?_drop, List.tail_drop, bindEach_eq_forM id patterns (place + 1)]

end

/-! ## The run over the spots -/

section run

variable {store : Store} {id : FrameId} {frame : Frame} (hframe : store.frame? id = some frame)

include hframe

/-- Behind the earlier spots, the frame has its own names and theirs. -/
theorem isSome_local?_extendAll (value : Value) (earlier : List Spot) (name : String) :
    ((store.extendAll id (bindings value earlier)).local? id name).isSome = true ↔
      name ∈ frame.names ∨ name ∈ names earlier := by
  rw [Store.local?, Store.frame?_extendAll, if_pos rfl, hframe, Option.map_some, Option.bind_some,
    Frame.isSome_get?_iff, Frame.mem_names_receive, map_fst_bindings]

theorem isRoot_extendAll (bindings : List (String × Value)) :
    (store.extendAll id bindings).isRoot id = frame.outer.isNone := by
  have hreceive := store.frame?_extendAll id id bindings
  rw [if_pos rfl, hframe, Option.map_some] at hreceive
  simp only [Store.isRoot, hreceive, Frame.outer_receive]

/-- Binding at a spot, behind the earlier ones, comes to what is wrong there. -/
theorem Spot.bind_eq (value : Value) (earlier : List Spot) (spot : Spot) :
    spot.bind id value (store.extendAll id (bindings value earlier)) =
      match spot.offence? frame earlier value with
      | none => .ok () (store.extendAll id (bindings value (earlier ++ [spot])))
      | some reason => .error reason (store.extendAll id (bindings value earlier)) := by
  obtain ⟨path, part⟩ := spot
  have hbindings (binding? : Option (String × Value))
      (h : (Spot.mk path part).binding? value = binding?) :
      bindings value (earlier ++ [⟨path, part⟩]) = bindings value earlier ++ binding?.toList := by
    rw [bindings, List.filterMap_append, List.filterMap_cons, h]
    cases binding? <;> rfl
  cases part with
  | symbol name =>
    have hguard : (((store.extendAll id (bindings value earlier)).local? id name).isSome &&
        !(store.extendAll id (bindings value earlier)).isRoot id) = true ↔
          frame.outer.isSome ∧ (name ∈ frame.names ∨ name ∈ names earlier) := by
      rw [Bool.and_eq_true, isSome_local?_extendAll hframe, isRoot_extendAll hframe, and_comm]
      cases frame.outer <;> simp
    rw [hbindings (some (name, reach value path)) rfl, Option.toList_some,
      Store.extendAll_concat]
    show Store.define id (.symbol name) (reach value path) _ = _
    rw [Store.define_symbol]
    simp only [Spot.offence?, ← hguard]
    split <;> rfl
  | vector patterns =>
    rw [hbindings none rfl, Option.toList_none, List.append_nil]
    simp only [Spot.bind, Spot.offence?]
    cases positions (reach value path) <;> rfl
  | _ => rfl

/-- Binding goes on through a row of spots up to the first one at which something is wrong. -/
theorem forM_spots (value : Value) (earlier spots : List Spot) :
    (Clear frame value earlier spots ∧
      spots.forM (Spot.bind id value) (store.extendAll id (bindings value earlier)) =
        .ok () (store.extendAll id (bindings value (earlier ++ spots)))) ∨
    ∃ before spot after reason, spots = before ++ spot :: after ∧
      Clear frame value earlier before ∧
      spot.offence? frame (earlier ++ before) value = some reason ∧
      spots.forM (Spot.bind id value) (store.extendAll id (bindings value earlier)) =
        .error reason (store.extendAll id (bindings value (earlier ++ before))) := by
  induction spots generalizing earlier with
  | nil => exact .inl ⟨trivial, by rw [List.append_nil]; rfl⟩
  | cons spot spots ih =>
    have hspot := Spot.bind_eq hframe value earlier spot
    have hsplit (row : List Spot) : earlier ++ spot :: row = earlier ++ [spot] ++ row := by simp
    cases hoffence : spot.offence? frame earlier value with
    | some reason =>
      rw [hoffence] at hspot
      refine .inr ⟨[], spot, spots, reason, rfl, trivial, by rwa [List.append_nil], ?_⟩
      rw [List.append_nil, forM_cons]
      show EStateM.bind _ _ _ = _
      rw [EStateM.bind, hspot]
    | none =>
      rw [hoffence] at hspot
      have hstep : (spot :: spots).forM (Spot.bind id value)
          (store.extendAll id (bindings value earlier)) =
            spots.forM (Spot.bind id value)
              (store.extendAll id (bindings value (earlier ++ [spot]))) := by
        rw [forM_cons]
        show EStateM.bind _ _ _ = _
        rw [EStateM.bind, hspot]
      rw [hstep]
      rcases ih (earlier ++ [spot]) with
        ⟨hclear, hrun⟩ | ⟨before, bad, after, reason, hrow, hbefore, hbad, hrun⟩
      · rw [hsplit spots]
        exact .inl ⟨⟨hoffence, hclear⟩, hrun⟩
      · refine .inr ⟨spot :: before, bad, after, reason, by rw [hrow, List.cons_append],
          ⟨hoffence, hbefore⟩, ?_⟩
        rw [hsplit before]
        exact ⟨hbad, hrun⟩

end run

/-! ## When nothing is wrong -/

/-- Taking apart by position is refused by everything but sequences and `nil`. -/
theorem positions_ok_iff {value : Value} :
    (∃ items, positions value = .ok items) ↔ Sequential value := by
  cases value <;> simp [positions, Sequential, Value.sequence?]

theorem offence?_eq_none_iff {frame : Frame} {earlier : List Spot} {value : Value} {spot : Spot} :
    spot.offence? frame earlier value = none ↔
      (∃ name, spot.part = .symbol name ∧
        (frame.outer.isSome → name ∉ frame.names ∧ name ∉ names earlier)) ∨
      ∃ patterns, spot.part = .vector patterns ∧ Sequential (reach value spot.path) := by
  obtain ⟨path, part⟩ := spot
  cases part with
  | symbol name => simp [Spot.offence?]
  | vector patterns =>
    simp only [Spot.offence?, reduceCtorEq, false_and, exists_false, false_or,
      Value.vector.injEq, ← positions_ok_iff]
    cases positions (reach value path) <;> simp
  | _ => simp [Spot.offence?]

/-- A spot shows a part that a pattern may have. -/
def Spot.IsTarget (spot : Spot) : Prop :=
  (∃ name, spot.part = .symbol name) ∨ ∃ patterns, spot.part = .vector patterns

mutual

/-- The check of a pattern looks at all its spots. -/
theorem badTarget?_eq_none_iff : ∀ {pattern : Value},
    badTarget? pattern = none ↔ ∀ spot ∈ spots pattern, spot.IsTarget
  | .vector patterns => by
    rw [badTarget?, spots, List.forall_mem_cons, ← badTargets?_eq_none_iff 0]
    exact ⟨fun h => ⟨.inr ⟨patterns, rfl⟩, h⟩, And.right⟩
  | .symbol name => by
    have htarget : (Spot.mk [] (.symbol name)).IsTarget := .inl ⟨name, rfl⟩
    simpa [badTarget?, spots] using htarget
  | .nil | .bool _ | .number _ | .str _ | .keyword _ | .list _ | .map _ | .function ..
  | .host .. | .transformer .. | .environment _ => by
    simp [badTarget?, spots, Spot.IsTarget]

/-- So does the check of several patterns. -/
theorem badTargets?_eq_none_iff : ∀ (place : Nat) {patterns : List Value},
    badTargets? patterns = none ↔ ∀ spot ∈ spotsFrom place patterns, spot.IsTarget
  | place, [] => by simp [badTargets?, spotsFrom]
  | place, pattern :: patterns => by
    have hbelow : (∀ spot ∈ (spots pattern).map (Spot.below place), spot.IsTarget) ↔
        badTarget? pattern = none := by
      rw [List.forall_mem_map, badTarget?_eq_none_iff]
      rfl
    rw [badTargets?, spotsFrom, List.forall_mem_append, hbelow,
      ← badTargets?_eq_none_iff (place + 1)]
    cases badTarget? pattern <;> simp

end

/-- Nothing is wrong at a row of spots if each shows what a pattern may have, vectors meet sequences
or `nil`, and a frame inside another one meets no symbol that it has. -/
theorem clear_iff {frame : Frame} {value : Value} {earlier spots : List Spot} :
    Clear frame value earlier spots ↔
      (∀ spot ∈ spots, spot.IsTarget) ∧
      (∀ spot ∈ spots, ∀ patterns, spot.part = .vector patterns →
        Sequential (reach value spot.path)) ∧
      (frame.outer.isSome → (names spots).Nodup ∧
        ∀ name ∈ names spots, name ∉ frame.names ∧ name ∉ names earlier) := by
  induction spots generalizing earlier with
  | nil => simp [Clear, names]
  | cons spot spots ih =>
    obtain ⟨path, part⟩ := spot
    rw [Clear, offence?_eq_none_iff, ih, names_cons, names_concat, List.forall_mem_cons,
      List.forall_mem_cons]
    cases part with
    | symbol name =>
      simp only [Spot.IsTarget, Value.symbolName?, Option.toList_some, List.singleton_append,
        List.nodup_cons, List.forall_mem_cons, List.mem_append, List.mem_singleton]
      grind
    | vector patterns =>
      simp only [Spot.IsTarget, Value.symbolName?, Option.toList_none, List.nil_append,
        List.append_nil]
      grind
    | _ => simp [Spot.IsTarget]

/-! ## Binding is exact -/

/-- The bindings have been written to a frame, and nothing else has been written to any. -/
structure Gained (store : Store) (id : FrameId) (frame : Frame)
    (bindings : List (String × Value)) (store' : Store) : Prop where
  /-- No other frame is changed, and none is made. -/
  others : ∀ other ≠ id, store'.frame? other = store.frame? other
  /-- A frame inside another one has them behind those that it had. -/
  inside : frame.outer.isSome →
    store'.frame? id = some { frame with vars := frame.vars ++ bindings }
  /-- A root has the new names behind those that it had, each once and in the order in which they
  came, and a name means what was written to it last. -/
  root : frame.outer.isNone → ∃ frame', store'.frame? id = some frame' ∧ frame'.outer = none ∧
    frame'.names =
      frame.names ++ ((bindings.map (·.1)).filter (· ∉ frame.names)).eraseDups ∧
    ∀ name, frame'.get? name = (bindings.reverse.lookup name).or (frame.get? name)

/-- Where nothing is wrong, a frame gains what the spots take. -/
theorem gained_of_clear {store : Store} {id : FrameId} {frame : Frame} {value : Value}
    {spots : List Spot} (hframe : store.frame? id = some frame)
    (hclear : Clear frame value [] spots) :
    Gained store id frame (bindings value spots)
      (store.extendAll id (bindings value spots)) := by
  have hreceive := store.frame?_extendAll id id (bindings value spots)
  rw [if_pos rfl, hframe, Option.map_some] at hreceive
  refine ⟨fun other hother => ?_, fun houter => ?_, fun houter => ?_⟩
  · rw [Store.frame?_extendAll, if_neg hother.symm]
  · obtain ⟨hnodup, hfresh⟩ := (clear_iff.1 hclear).2.2 houter
    rw [← map_fst_bindings value] at hnodup hfresh
    rw [hreceive, Frame.receive_of_fresh hnodup fun name hname => (hfresh name hname).1]
  · exact ⟨_, hreceive, by rw [Frame.outer_receive, Option.isNone_iff_eq_none.1 houter],
      frame.names_receive _, frame.get?_receive _⟩

/-- What binding a pattern in a frame comes to. -/
structure Exact (store : Store) (id : FrameId) (frame : Frame) (pattern value : Value) : Prop where
  /-- The spots are all paths into the pattern, from left to right. -/
  spots : (∀ spot, spot ∈ spots pattern ↔ at? pattern spot.path = some spot.part) ∧
    (spots pattern).Pairwise fun a b => a.path < b.path
  /-- Binding succeeds exactly if the check accepts the pattern, each vector in it meets a sequence
  or `nil`, and, unless the frame is a root, the symbols are different from each other and from the
  names that the frame has. -/
  succeeds : (∃ store', bind id pattern value store = .ok () store') ↔
    badTarget? pattern = none ∧
    (∀ path patterns, at? pattern path = some (.vector patterns) →
      Sequential (reach value path)) ∧
    (frame.outer.isSome → (names (Pattern.spots pattern)).Nodup ∧
      ∀ name ∈ names (Pattern.spots pattern), name ∉ frame.names)
  /-- Then the frame gains all symbols, each with the value at the end of its path. -/
  ok : ∀ store', bind id pattern value store = .ok () store' →
    Gained store id frame (bindings value (Pattern.spots pattern)) store'
  /-- Otherwise something is wrong at a spot and at none before it. This is reported, and the frame
  gains the symbols before that spot. -/
  error : ∀ reason store', bind id pattern value store = .error reason store' →
    ∃ before spot after, Pattern.spots pattern = before ++ spot :: after ∧
      Clear frame value [] before ∧ spot.offence? frame before value = some reason ∧
      Gained store id frame (bindings value before) store'

theorem clear_spots_iff {frame : Frame} {pattern value : Value} :
    Clear frame value [] (spots pattern) ↔
      badTarget? pattern = none ∧
      (∀ path patterns, at? pattern path = some (.vector patterns) →
        Sequential (reach value path)) ∧
      (frame.outer.isSome → (names (spots pattern)).Nodup ∧
        ∀ name ∈ names (spots pattern), name ∉ frame.names) := by
  have hvectors : (∀ spot ∈ spots pattern, ∀ patterns, spot.part = .vector patterns →
        Sequential (reach value spot.path)) ↔
      ∀ path patterns, at? pattern path = some (.vector patterns) →
        Sequential (reach value path) := by
    constructor
    · exact fun h path patterns hpath => h ⟨path, _⟩ (mem_spots.2 hpath) patterns rfl
    · exact fun h spot hspot patterns hpart =>
        h spot.path patterns ((mem_spots.1 hspot).trans (congrArg some hpart))
  rw [clear_iff, badTarget?_eq_none_iff, hvectors]
  simp [names]

/-- **Destructuring is exact.** Whatever the pattern and the value are, binding the one to the other
in a frame that exists comes to what the spots of the pattern say, from left to right. -/
theorem bind_exact {store : Store} {id : FrameId} {frame : Frame}
    (hframe : store.frame? id = some frame) (pattern value : Value) :
    Exact store id frame pattern value := by
  have hrow := And.intro (fun spot => @mem_spots pattern spot) (pairwise_spots pattern)
  have hrun := forM_spots hframe value [] (spots pattern)
  rw [← bind_eq_forM] at hrun
  change (_ ∧ bind id pattern value store = _) ∨
    ∃ before spot after reason, _ ∧ _ ∧ _ ∧ bind id pattern value store = _ at hrun
  rcases hrun with ⟨hclear, hrun⟩ | ⟨before, spot, after, reason, hsplit, hclear, hoffence, hrun⟩
  · refine ⟨hrow, ⟨fun _ => clear_spots_iff.1 hclear, fun _ => ⟨_, hrun⟩⟩, ?_, ?_⟩
    · intro store' hok
      rw [hrun] at hok
      cases hok
      exact gained_of_clear hframe hclear
    · intro reason store' herror
      rw [hrun] at herror
      cases herror
  · have hstuck : ¬ Clear frame value [] (spots pattern) := by
      rw [hsplit, clear_append]
      intro hall
      rw [hall.2.1] at hoffence
      cases hoffence
    refine ⟨hrow, ⟨?_, fun h => absurd (clear_spots_iff.2 h) hstuck⟩, ?_, ?_⟩
    · rintro ⟨store', hok⟩
      rw [hrun] at hok
      cases hok
    · intro store' hok
      rw [hrun] at hok
      cases hok
    · intro reason' store' herror
      rw [hrun] at herror
      cases herror
      exact ⟨before, spot, after, hsplit, hclear, hoffence, gained_of_clear hframe hclear⟩

/-- A symbol is met a second time: by then the vector has been taken apart, its second place being
`nil`, and the symbol behind is not reached. -/
theorem bind_exact_repeated :
    let store := ((Store.empty.push none).push (some 0)).extend 1 "z" .nil
    let pattern := .vector [.symbol "a", .vector [.symbol "b", .symbol "c"], .symbol "a",
      .symbol "d"]
    let value := .list [.str "1", .vector [.str "2"]]
    ∃ frame, store.frame? 1 = some frame ∧ Exact store 1 frame pattern value ∧
      ∃ store', bind 1 pattern value store = .error (.duplicate "a") store' ∧
        (store'.frame? 1).map (·.vars) =
          some [("z", .nil), ("a", .str "1"), ("b", .str "2"), ("c", .nil)] :=
  ⟨_, rfl, bind_exact rfl _ _, _, rfl, rfl⟩

end Pattern

end SmallLisp
