import SmallLisp.Proofs.SequenceView

/-!
# Folding over a collection

The operation that folds applies a callable to a result so far and one item after the other. The
callable may be anything: a function that defines names or folds again, an operation, a transformer,
or nothing that can be called at all. So what a fold comes to includes all that its calls leave
behind, and a fold may stop in the middle.

* `Engine.FoldsBy`: the calls of a fold, one for each item from left to right, each on the machine
  that the one before has left. The first call that stops is the last one.
* `Engine.exists_foldsBy`: folding makes these calls and no others.
* `Engine.foldWith_append`: a row may be cut anywhere, and folded part by part.
* **`Engine.reduce_leftFold`**: all this of the operation as it is applied, to collections of every
  kind.
-/

namespace SmallLisp

namespace Engine

/-! ## The calls of a fold -/

/-- A fold that begins with a result and a machine calls the callable with each of these results so
far and items, in this order, and ends in this way. -/
inductive FoldsBy (engine : Engine) (callee : Value) :
    Value → List Value → Machine → List (Value × Value) → EStateM.Result Stop Machine Value → Prop
  /-- All items have been folded. -/
  | done {result : Value} {m : Machine} : FoldsBy engine callee result [] m [] (.ok result m)
  /-- The call gives the next result. -/
  | next {result item next : Value} {items : List Value} {m m' : Machine}
      {calls : List (Value × Value)} {ending : EStateM.Result Stop Machine Value} :
      engine.apply callee [result, item] m = .ok next m' →
      FoldsBy engine callee next items m' calls ending →
      FoldsBy engine callee result (item :: items) m ((result, item) :: calls) ending
  /-- The call stops, and with it the fold. -/
  | stopped {result item : Value} {items : List Value} {m m' : Machine} {stop : Stop} :
      engine.apply callee [result, item] m = .error stop m' →
      FoldsBy engine callee result (item :: items) m [(result, item)] (.error stop m')

variable {engine : Engine} {callee : Value}

/-- Folding makes one call for each item, as far as it comes. -/
theorem exists_foldsBy (engine : Engine) (callee start : Value) (items : List Value) (m : Machine) :
    ∃ calls, FoldsBy engine callee start items m calls (engine.foldWith callee start items m) := by
  induction items generalizing start m with
  | nil => exact ⟨[], .done⟩
  | cons item items ih =>
    cases hcall : engine.apply callee [start, item] m with
    | ok next m' =>
      obtain ⟨calls, hcalls⟩ := ih next m'
      have hfold : engine.foldWith callee start (item :: items) m =
          engine.foldWith callee next items m' := by
        rw [foldWith, List.foldlM_cons]
        exact Run.bind_ok hcall
      exact ⟨(start, item) :: calls, hfold ▸ .next hcall hcalls⟩
    | error stop m' =>
      have hfold : engine.foldWith callee start (item :: items) m = .error stop m' := by
        rw [foldWith, List.foldlM_cons]
        exact Run.bind_error hcall
      exact ⟨[(start, item)], hfold ▸ .stopped hcall⟩

namespace FoldsBy

variable {start : Value} {items : List Value} {m : Machine} {calls : List (Value × Value)}
  {ending : EStateM.Result Stop Machine Value}

/-- The items that are called with are the first ones. -/
theorem items_isPrefix (h : FoldsBy engine callee start items m calls ending) :
    calls.map (·.2) <+: items := by
  induction h with
  | done => exact List.prefix_rfl
  | next _ _ ih => exact (List.prefix_cons_inj _).2 ih
  | stopped => exact (List.prefix_cons_inj _).2 List.nil_prefix

/-- A fold that has a result has called with every item. -/
theorem items_eq (h : FoldsBy engine callee start items m calls ending) {value : Value}
    {m' : Machine} (hending : ending = .ok value m') : calls.map (·.2) = items := by
  induction h with
  | done => rfl
  | next _ _ ih => rw [List.map_cons, ih hending]
  | stopped => cases hending

/-- A fold that stops has been stopped by its last call. -/
theorem stopped_by_last (h : FoldsBy engine callee start items m calls ending) {stop : Stop}
    {m' : Machine} (hending : ending = .error stop m') :
    ∃ before last m₀, calls = before ++ [last] ∧
      engine.apply callee [last.1, last.2] m₀ = .error stop m' := by
  induction h with
  | done => cases hending
  | next _ _ ih =>
    obtain ⟨before, last, m₀, rfl, hlast⟩ := ih hending
    exact ⟨_ :: before, last, m₀, rfl, hlast⟩
  | @stopped result item items m m' stop hcall =>
    cases hending
    exact ⟨[], (result, item), m, rfl, hcall⟩

end FoldsBy

/-! ## Rows in parts -/

/-- A row in two parts is folded part by part. -/
theorem foldWith_append (engine : Engine) (callee start : Value) (items items' : List Value) :
    engine.foldWith callee start (items ++ items') =
      (engine.foldWith callee start items >>= fun result =>
        engine.foldWith callee result items') :=
  List.foldlM_append

/-- With a start, the operation folds the items of a collection. -/
theorem reduce_start (engine : Engine) (callee start : Value) {given : Value} {items : List Value}
    (h : given.items? = some items) :
    engine.reduce [callee, start, given] = engine.foldWith callee start items := by
  rw [reduce, foldItems, Collection.items_of_items? h]
  rfl

/-- Without one, it folds what is behind the first item. -/
theorem reduce_cons (engine : Engine) (callee : Value) {given item : Value} {items : List Value}
    (h : given.items? = some (item :: items)) :
    engine.reduce [callee, given] = engine.foldWith callee item items := by
  rw [reduce, foldItems, Collection.items_of_items? h]
  rfl

/-! ## The operation -/

/-- **The operation is a left fold, effects included.** Let any callable, or what cannot be called,
be given to the operation, and collections of any kind.

* With a start, folding a collection whose items are those of two others is to fold the first of
  these, and then the second from the result: with the same value or the same stop, and with the
  same machine behind it.
* Without one, folding a collection that has items is to fold all but the first from the first.
* The callable is called once for each item, from left to right, with the result so far and the
  item. If the fold stops, its last call has stopped, and no further item is called with.
* If there are no items, nothing is called: the start is the result whatever the callable is. -/
theorem reduce_leftFold (depth serial : Nat) (callee : Value) :
    let reduction := (ofDepth (depth + 1)).apply (.host serial (.builtin .reduce))
    (∀ (start given given₁ given₂ : Value) (items₁ items₂ : List Value),
      given₁.items? = some items₁ → given₂.items? = some items₂ →
      given.items? = some (items₁ ++ items₂) →
        reduction [callee, start, given] =
          (reduction [callee, start, given₁] >>= fun result =>
            reduction [callee, result, given₂])) ∧
    (∀ (given : Value) (items : List Value), given.items? = some items → items ≠ [] →
      ∃ head tail, Builtin.first.Gives [given] (.ok head) ∧ Builtin.rest.Gives [given] (.ok tail) ∧
        reduction [callee, given] = reduction [callee, head, tail]) ∧
    (∀ (start given : Value) (items : List Value) (m : Machine), given.items? = some items →
      ∃ calls, FoldsBy (ofDepth depth) callee start items m calls
          (reduction [callee, start, given] m) ∧
        calls.map (·.2) <+: items ∧
        (∀ value m', reduction [callee, start, given] m = .ok value m' →
          calls.map (·.2) = items) ∧
        ∀ stop m', reduction [callee, start, given] m = .error stop m' →
          ∃ before last m₀, calls = before ++ [last] ∧
            (ofDepth depth).apply callee [last.1, last.2] m₀ = .error stop m') ∧
    ∀ (start given : Value) (m : Machine), given.items? = some [] →
      reduction [callee, start, given] m = .ok start m := by
  intro reduction
  have hstart : ∀ (start : Value) {given : Value} {items : List Value},
      given.items? = some items →
        reduction [callee, start, given] = (ofDepth depth).foldWith callee start items :=
    fun start _ _ h => reduce_start (ofDepth depth) callee start h
  refine ⟨?_, ?_, ?_, ?_⟩
  · intro start given given₁ given₂ items₁ items₂ h₁ h₂ h
    simp only [hstart _ h₁, hstart _ h₂, hstart _ h, foldWith_append]
  · intro given items h hne
    obtain ⟨item, items, rfl⟩ := List.exists_cons_of_ne_nil hne
    refine ⟨item, .list items, Builtin.first_gives h, Builtin.rest_gives h, ?_⟩
    rw [hstart item (rfl : (Value.list items).items? = some items)]
    exact reduce_cons (ofDepth depth) callee h
  · intro start given items m h
    rw [hstart start h]
    obtain ⟨calls, hcalls⟩ := exists_foldsBy (ofDepth depth) callee start items m
    exact ⟨calls, hcalls, hcalls.items_isPrefix, fun _ _ => hcalls.items_eq,
      fun _ _ => hcalls.stopped_by_last⟩
  · intro start given m h
    rw [hstart start h]
    rfl

/-- A sum over a map entry stops at it. The item before it has been called with, also if it stood in
a collection of its own, and the one behind it has not. -/
theorem reduce_leftFold_stops :
    let sum : Value := .host 1 (.builtin .add)
    let entry : Value := .vector [.symbol "a", .int 2]
    let items : List Value := [.int 1, entry, .int 3]
    let reduction := (ofDepth 3).apply (.host 21 (.builtin .reduce))
    (Value.map [(.symbol "a", .int 2)]).items? = some [entry] ∧
      reduction [sum, .int 0, .vector [.int 1, entry]] =
        (reduction [sum, .int 0, .list [.int 1]] >>= fun result =>
          reduction [sum, result, .map [(.symbol "a", .int 2)]]) ∧
      ∀ m, ∃ calls, FoldsBy (ofDepth 2) sum (.int 0) items m calls
          (.error (.fault (.notNumber .add entry)) m) ∧
        calls = [(.int 0, .int 1), (.int 1, entry)] := by
  intro sum entry items reduction
  obtain ⟨hparts, -, hcalls, -⟩ := reduce_leftFold 2 21 sum
  refine ⟨rfl, hparts _ _ _ _ _ _ rfl rfl rfl, fun m => ?_⟩
  obtain ⟨calls, hfolds, -⟩ := hcalls (.int 0) (.list items) items m rfl
  replace hfolds : FoldsBy (ofDepth 2) sum (.int 0) [.int 1, entry, .int 3] m calls
      (.error (.fault (.notNumber .add entry)) m) := hfolds
  have hsecond : (ofDepth 2).apply sum [.int 1, entry] m =
      .error (.fault (.notNumber .add entry)) m := rfl
  refine ⟨calls, hfolds, ?_⟩
  cases hfolds with
  | stopped hcall => cases hcall
  | next hcall hrest =>
    cases hcall
    cases hrest with
    | stopped => rfl
    | next hcall _ =>
      have heq := hsecond.symm.trans hcall
      cases heq

end Engine

end SmallLisp
