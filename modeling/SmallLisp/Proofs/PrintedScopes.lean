import Mathlib.Data.Finite.Prod
import Mathlib.Order.Preorder.Finite
import Mathlib.Order.WellFounded
import SmallLisp.Proofs.Unmentioned

/-!
# Scopes printed within scopes

A scope prints what its frames bind, and a frame can bind a scope. So to print a value may be to
print scopes within scopes, and whether that comes to an end is a matter of which scopes are printed
within which.

* `Value.shownScopes`: the scopes that the text of a value shows, each in its style. One that stands
  inside a collection is cut off after its innermost frame, one that a frame binds is not.
* `Store.Within`: one scope is printed as part of another one.
* `Printer.Consults`: what the printer does with the scopes that it shows. It stops at the bound
  only if one of them does, and it has a text only if all of them have.
* `acc_iff_no_cycle`: among finitely many things, a descent ends exactly if it leads into no cycle.
* `Store.print_ends_iff`: printing a value comes to an end exactly if no scope that is reached in
  doing so is printed within itself.
* **`Session.print_ends`**: so it does for all values of programs that get hold of no scope.
* `Session.print_loops`: two short programs after which it does not.

That programs get hold of no scope is a matter of coupling their runs with themselves, as if another
value were bound to a name that they do not mention (`SmallLisp.Proofs.Unmentioned`).
-/

namespace SmallLisp

/-! ## Which scopes are printed -/

namespace Value

mutual

/-- The scopes that the text of a value shows, with their styles. -/
def shownScopes : Style → Value → List (Style × FrameId)
  | _, .list items => shownScopesAll items
  | _, .vector items => shownScopesAll items
  | _, .map entries => shownScopesEntries entries
  | _, .function _ params _ _ => shownScopes .source params
  | _, .transformer _ target => shownScopes .inspect target
  | style, .environment frame => [(style, frame)]
  | _, _ => []

/-- Those of the items of a collection. -/
def shownScopesAll : List Value → List (Style × FrameId)
  | [] => []
  | item :: items => shownScopes .source item ++ shownScopesAll items

/-- Those of the keys and values of a map. -/
def shownScopesEntries : Entries → List (Style × FrameId)
  | [] => []
  | (key, value) :: entries =>
    shownScopes .source key ++ (shownScopes .source value ++ shownScopesEntries entries)

end

end Value

namespace Store

/-- The values that a frame binds. -/
def boundValues (store : Store) (id : FrameId) : List Value :=
  ((store.frame? id).map (·.vars) |>.getD []).map (·.2)

/-- The scopes that are printed as part of a scope: those that its frames bind, or its innermost
frame if it is cut off after that. -/
def scopesWithin (store : Store) (scope : Style × FrameId) : List (Style × FrameId) :=
  let frames := match scope.1 with
    | .inspect => store.chain scope.2
    | _ => [scope.2]
  (frames.flatMap store.boundValues).flatMap (Value.shownScopes .inspect)

/-- One scope is printed as part of another one. -/
def Within (store : Store) (inner outer : Style × FrameId) : Prop :=
  inner ∈ store.scopesWithin outer

instance (store : Store) (inner outer : Style × FrameId) : Decidable (store.Within inner outer) :=
  inferInstanceAs (Decidable (inner ∈ store.scopesWithin outer))

/-- In printing the value a scope is reached that is printed within itself. -/
def Loops (store : Store) (style : Style) (value : Value) : Prop :=
  ∃ shown ∈ value.shownScopes style, ∃ scope,
    Relation.ReflTransGen store.Within scope shown ∧ Relation.TransGen store.Within scope scope

end Store

/-! ## What the printer does with them -/

namespace Printer

/-- The computation shows the scopes. If none of them is cut off at the bound, then it is not, and
if it has a result, then all of them have a text. -/
structure Consults {α : Type} (scope : Style → FrameId → Printed) (shown : List (Style × FrameId))
    (x : Except PrintError α) : Prop where
  ends : (∀ p ∈ shown, scope p.1 p.2 ≠ .error .circular) → x ≠ .error .circular
  texts : ∀ a, x = .ok a → ∀ p ∈ shown, ∃ text, scope p.1 p.2 = .ok text

namespace Consults

variable {α β : Type} {scope : Style → FrameId → Printed} {shown shown' : List (Style × FrameId)}

theorem ok (a : α) : Consults scope [] (.ok a) :=
  ⟨fun _ => nofun, fun _ _ => nofun⟩

theorem longNumeral : Consults scope [] (.error .longNumeral : Except PrintError α) :=
  ⟨fun _ => nofun, fun _ => nofun⟩

theorem self (style : Style) (id : FrameId) : Consults scope [(style, id)] (scope style id) := by
  refine ⟨fun h => h _ List.mem_cons_self, ?_⟩
  rintro text htext p hp
  obtain rfl := List.mem_singleton.1 hp
  exact ⟨text, htext⟩

theorem bind {x : Except PrintError α} {f : α → Except PrintError β} (hx : Consults scope shown x)
    (hf : ∀ a, Consults scope shown' (f a)) : Consults scope (shown ++ shown') (x >>= f) := by
  constructor
  · intro h
    rw [List.forall_mem_append] at h
    have hne := hx.ends h.1
    cases x with
    | error reason => exact fun heq => hne (congrArg Except.error (Except.error.inj heq))
    | ok a => exact (hf a).ends h.2
  · intro b hb
    rw [List.forall_mem_append]
    cases x with
    | error reason => cases hb
    | ok a => exact ⟨hx.texts a rfl, (hf a).texts b hb⟩

/-- What is made of a result shows nothing further. -/
theorem map {x : Except PrintError α} (hx : Consults scope shown x) (f : α → β) :
    Consults scope shown (x >>= fun a => .ok (f a)) := by
  have h := hx.bind fun a => (ok (f a) : Consults scope [] (.ok (f a)))
  rwa [List.append_nil] at h

theorem mapM {f : α → Printed} {g : α → List (Style × FrameId)}
    (h : ∀ a, Consults scope (g a) (f a)) (items : List α) :
    Consults scope (items.flatMap g) (items.mapM f) := by
  induction items with
  | nil => exact ok []
  | cons item items ih =>
    rw [List.mapM_cons, List.flatMap_cons]
    exact (h item).bind fun text => ih.map (text :: ·)

end Consults

section texts

variable {scope : Style → FrameId → Printed}

mutual

/-- The text of a value shows the scopes of the value. -/
theorem consults_valueText : ∀ (value : Value) (style : Style),
    Consults scope (value.shownScopes style) (valueText scope style value)
  | .list items, style => by
    rw [valueText, Value.shownScopes]
    exact (consults_itemTexts items).map _
  | .vector items, style => by
    rw [valueText, Value.shownScopes]
    exact (consults_itemTexts items).map _
  | .map entries, style => by
    rw [valueText, Value.shownScopes]
    exact (consults_entryTexts entries).map _
  | .function _ params _ _, style => by
    rw [valueText, Value.shownScopes]
    exact (consults_valueText params .source).map _
  | .transformer _ target, style => by
    rw [valueText, Value.shownScopes]
    exact (consults_valueText target .inspect).map _
  | .environment frame, style => by
    rw [valueText, Value.shownScopes]
    exact .self style frame
  | .number n, style => by
    rw [valueText, Value.shownScopes]
    · cases n.text? with
      | some text => exact .ok text
      | none => exact .longNumeral
    all_goals nofun
  | .nil, style | .bool _, style | .str _, style | .symbol _, style | .keyword _, style
  | .host .., style => by
    rw [valueText, Value.shownScopes] <;> first | exact .ok _ | nofun

theorem consults_itemTexts : ∀ items : List Value,
    Consults scope (Value.shownScopesAll items) (itemTexts scope items)
  | [] => by
    rw [itemTexts, Value.shownScopesAll]
    exact .ok []
  | item :: items => by
    rw [itemTexts, Value.shownScopesAll]
    exact (consults_valueText item .source).bind fun text =>
      (consults_itemTexts items).map (text :: ·)

theorem consults_entryTexts : ∀ entries : Entries,
    Consults scope (Value.shownScopesEntries entries) (entryTexts scope entries)
  | [] => by
    rw [entryTexts, Value.shownScopesEntries]
    exact .ok []
  | (key, value) :: entries => by
    rw [entryTexts, Value.shownScopesEntries]
    exact (consults_valueText key .source).bind fun keyText =>
      (consults_valueText value .source).bind fun text =>
        (consults_entryTexts entries).map ((keyText ++ " " ++ text) :: ·)

end

/-- What a frame binds is inspected. -/
theorem consults_varsText (vars : List (String × Value)) :
    Consults scope ((vars.map (·.2)).flatMap (Value.shownScopes .inspect))
      (varsText scope vars) := by
  rw [List.flatMap_map]
  refine Consults.map (Consults.mapM (fun var => ?_) vars) _
  exact (consults_valueText var.2 .inspect).map (var.1 ++ ": " ++ ·)

end texts

/-- The text of a scope shows the scopes that are printed as part of it. -/
theorem consults_environmentText (store : Store) (depth : Nat) (style : Style) (id : FrameId) :
    Consults (environmentText store depth) (store.scopesWithin (style, id))
      (environmentText store (depth + 1) style id) := by
  have hframe : ∀ frame, Consults (environmentText store depth)
      ((store.boundValues frame).flatMap (Value.shownScopes .inspect))
      (frameText store depth frame) := fun frame => consults_varsText _
  rw [environmentText_succ]
  cases style with
  | inspect =>
    show Consults _ ((List.flatMap _ _).flatMap _) _
    rw [List.flatMap_assoc]
    exact (Consults.mapM hframe _).map _
  | source | display =>
    show Consults _ ((List.flatMap _ [id]).flatMap _) _
    rw [List.flatMap_singleton]
    exact (hframe id).map _

/-- With a bound that is great enough, the text of a scope shows the texts under the same bound. -/
theorem consults_scope (store : Store) (p : Style × FrameId) :
    Consults (environmentText store (store.size + 1)) (store.scopesWithin p)
      (environmentText store (store.size + 1) p.1 p.2) := by
  have h := consults_environmentText store (store.size + 1) p.1 p.2
  rwa [environmentText_eq_of_lt store (show store.size < store.size + 1 + 1 by omega)] at h

end Printer

/-! ## Descents that end -/

/-- If only finitely many things stand below others, a descent ends exactly if it leads into no
cycle. -/
theorem acc_iff_no_cycle {α : Type} {r : α → α → Prop} (hfinite : {a | ∃ b, r b a}.Finite) (a : α) :
    Acc r a ↔ ¬∃ b, Relation.ReflTransGen r b a ∧ Relation.TransGen r b b := by
  constructor
  · rintro h ⟨b, hba, hcycle⟩
    have hb : Acc r b := by
      clear hcycle
      induction hba using Relation.ReflTransGen.head_induction_on with
      | refl => exact h
      | head hstep _ ih => exact ih.inv hstep
    have hirrefl : ∀ c, Acc (Relation.TransGen r) c → ¬Relation.TransGen r c c := by
      intro c hc
      induction hc with
      | intro c _ ih => exact fun hself => ih c hself hself
    exact hirrefl b hb.transGen hcycle
  · intro hcycle
    by_contra hacc
    obtain ⟨f, rfl, hf⟩ := not_acc_iff_exists_descending_chain.1 hacc
    have hdown : ∀ {i j}, i < j → Relation.TransGen r (f j) (f i) := fun hij =>
      Nat.rel_of_forall_rel_succ_of_lt (Function.swap (Relation.TransGen r))
        (fun n => .single (hf n)) hij
    -- a descent that does not end comes to one of finitely many things twice
    have hbelow : ∀ n, f n ∈ {a | ∃ b, r b a} := fun n => ⟨f (n + 1), hf n⟩
    obtain ⟨i, j, hij, heq⟩ := Set.Finite.exists_lt_map_eq_of_forall_mem hbelow hfinite
    have hloop := hdown hij
    rw [← heq] at hloop
    refine hcycle ⟨f i, ?_, hloop⟩
    rcases Nat.eq_zero_or_pos i with rfl | hi
    · exact .refl
    · exact (hdown hi).to_reflTransGen

namespace Store

open Printer

variable {store : Store}

/-- A frame that does not exist binds nothing. -/
theorem lt_size_of_within {inner outer : Style × FrameId} (h : store.Within inner outer) :
    outer.2 < store.size := by
  by_contra hge
  have hnone : store.frame? outer.2 = none := Array.getElem?_eq_none (Nat.not_lt.1 hge)
  have hvalues : store.boundValues outer.2 = [] := by rw [boundValues, hnone]; rfl
  have hchain : store.chain outer.2 = [] := by rw [chain, chainWithin, hnone]
  obtain ⟨style, id⟩ := outer
  unfold Within scopesWithin at h
  cases style <;> simp_all

/-- There are three styles. -/
instance : Finite Style :=
  Set.finite_univ_iff.1 (Set.Finite.subset (Set.toFinite {.source, .inspect, .display})
    fun style _ => by cases style <;> simp)

theorem acc_within_iff (store : Store) (p : Style × FrameId) :
    Acc store.Within p ↔
      ¬∃ q, Relation.ReflTransGen store.Within q p ∧ Relation.TransGen store.Within q q := by
  have hfinite : (Set.univ ×ˢ {id | id < store.size} : Set (Style × FrameId)).Finite :=
    Set.finite_univ.prod (Set.finite_lt_nat store.size)
  refine acc_iff_no_cycle (hfinite.subset ?_) p
  rintro outer ⟨inner, h⟩
  exact ⟨trivial, lt_size_of_within h⟩

/-- The printing of a scope does not stop at the bound if the scopes within scopes come to an
end. -/
theorem environmentText_ends {p : Style × FrameId} (h : Acc store.Within p) :
    environmentText store (store.size + 1) p.1 p.2 ≠ .error .circular := by
  induction h with
  | intro p _ ih => exact (consults_scope store p).ends ih

/-- If a scope has a text, under whatever bound, then the scopes within scopes come to an end. -/
theorem acc_of_environmentText {bound : Nat} {p : Style × FrameId} {text : String}
    (h : environmentText store bound p.1 p.2 = .ok text) : Acc store.Within p := by
  induction bound generalizing p text with
  | zero => cases h
  | succ bound ih =>
    refine .intro p fun inner hinner => ?_
    obtain ⟨text', htext'⟩ :=
      (consults_environmentText store bound p.1 p.2).texts text h inner hinner
    exact ih htext'

theorem not_loops_iff (style : Style) (value : Value) :
    ¬store.Loops style value ↔ ∀ shown ∈ value.shownScopes style, Acc store.Within shown := by
  simp only [Loops, not_exists, not_and, acc_within_iff]

/-- Printing the value comes to an end: with a text, or with a whole number that has too many
digits. -/
def Prints (store : Store) (style : Style) (value : Value) : Prop :=
  (∃ text, store.print style value = .ok text) ∨ store.print style value = .error .longNumeral

theorem prints_of_ne {style : Style} {value : Value}
    (h : store.print style value ≠ .error .circular) : store.Prints style value := by
  cases hprint : store.print style value with
  | ok text => exact .inl ⟨text, hprint⟩
  | error reason =>
    cases reason with
    | longNumeral => exact .inr hprint
    | circular => exact absurd hprint h

/-- **Printing ends exactly if no scope is printed within itself.** Let any value be printed in any
store.

* No scope that is reached is printed within itself exactly if the scopes that the value shows have
  scopes within scopes only down to some end.
* If that is so, then the printing of the value ends.
* If it is not so, then the value has no text, under whatever bound on how deeply scopes are printed
  within scopes. -/
theorem print_ends_iff (store : Store) (style : Style) (value : Value) :
    (¬store.Loops style value ↔ ∀ shown ∈ value.shownScopes style, Acc store.Within shown) ∧
    (¬store.Loops style value → store.Prints style value) ∧
    (store.Loops style value → ∀ (bound : Nat) (text : String),
      valueText (environmentText store bound) style value ≠ .ok text) := by
  refine ⟨not_loops_iff style value, fun h => ?_, ?_⟩
  · rw [not_loops_iff] at h
    exact prints_of_ne ((consults_valueText value style).ends fun shown hshown =>
      environmentText_ends (h shown hshown))
  · intro h bound text htext
    refine (not_loops_iff style value).2 (fun shown hshown => ?_) h
    obtain ⟨text', htext'⟩ := (consults_valueText value style).texts text htext shown hshown
    exact acc_of_environmentText htext'

/-- A value that holds no scope prints. -/
theorem prints_of_every (store : Store) {value : Value}
    (h : value.Every fun c => ∀ id, c ≠ .environment id) (style : Style) :
    store.Prints style value := by
  have hprint : store.print style value = valueText (fun _ _ => .ok "") style value :=
    valueText_eq_of_every h style
  apply prints_of_ne
  rw [hprint]
  exact (consults_valueText value style).ends fun _ _ => nofun

end Store

/-- A discreet value holds no scope. -/
theorem Value.Discreet.prints {names : List String} {value : Value} (h : value.Discreet names)
    (store : Store) (style : Style) : store.Prints style value := by
  refine store.prints_of_every (h.sealed.mono ?_) style
  rintro c hc id rfl
  exact hc

/-! ## Programs that get hold of no scope -/

namespace Value

variable {names : List String}

theorem avoids_map {entries : Entries} (h : (Value.map entries).Avoids names) :
    ∀ entry ∈ entries, entry.1.Avoids names ∧ entry.2.Avoids names := by
  induction entries with
  | nil => exact fun _ => nofun
  | cons entry entries ih =>
    obtain ⟨key, value⟩ := entry
    simp only [Avoids, symbols, symbolsEntries, List.mem_append] at h ih ⊢
    rw [List.forall_mem_cons]
    exact ⟨⟨fun name hname => h name (.inl hname), fun name hname => h name (.inr (.inl hname))⟩,
      ih fun name hname => h name (.inr (.inr hname))⟩

mutual

/-- A form that is read tells no more than its symbols do. -/
theorem oblivious_of_avoids : ∀ value : Value, (value.Every fun _ => False) →
    value.Avoids names → value.oblivious names = true
  | .symbol name, _, h => by simpa [oblivious] using avoids_symbol.1 h
  | .list items, hevery, h => by
    rw [oblivious]
    exact obliviousAll_of_avoids items ((every_list _).1 hevery) (avoids_list.1 h)
  | .vector items, hevery, h => by
    rw [oblivious]
    exact obliviousAll_of_avoids items ((every_vector _).1 hevery) (avoids_vector.1 h)
  | .map entries, hevery, h => by
    rw [oblivious]
    exact obliviousEntries_of_avoids entries ((every_map _).1 hevery) (avoids_map h)
  | .function .., hevery, _ => (every_function.1 hevery).1.elim
  | .host .., hevery, _ => (every_host.1 hevery).elim
  | .transformer .., hevery, _ => (every_transformer.1 hevery).1.elim
  | .environment _, hevery, _ => (every_environment.1 hevery).elim
  | .nil, _, _ | .bool _, _, _ | .number _, _, _ | .str _, _, _ | .keyword _, _, _ => rfl

theorem obliviousAll_of_avoids : ∀ values : List Value,
    (∀ value ∈ values, value.Every fun _ => False) → (∀ value ∈ values, value.Avoids names) →
    obliviousAll names values = true
  | [], _, _ => rfl
  | value :: values, hevery, h => by
    rw [List.forall_mem_cons] at hevery h
    rw [obliviousAll, oblivious_of_avoids value hevery.1 h.1,
      obliviousAll_of_avoids values hevery.2 h.2]
    rfl

theorem obliviousEntries_of_avoids : ∀ entries : Entries,
    (∀ entry ∈ entries, (entry.1.Every fun _ => False) ∧ entry.2.Every fun _ => False) →
    (∀ entry ∈ entries, entry.1.Avoids names ∧ entry.2.Avoids names) →
    obliviousEntries names entries = true
  | [], _, _ => rfl
  | (key, value) :: entries, hevery, h => by
    rw [List.forall_mem_cons] at hevery h
    rw [obliviousEntries, oblivious_of_avoids key hevery.1.1 h.1.1,
      oblivious_of_avoids value hevery.1.2 h.1.2, obliviousEntries_of_avoids entries hevery.2 h.2]
    rfl

end

end Value

namespace Session

/-- The names through which a program can get hold of a scope. -/
def scopeNames : List String := ["macro", "&env"]

/-- The machine beside itself: other names are bound to values that hold no scope. -/
abbrev Scopeless (m : Machine) : Prop :=
  Oblivion.Twins scopeNames "&env" 0 m m

variable {m : Machine}

theorem scopeless_fresh (verbose : Bool) : Scopeless (fresh verbose) := by
  have hbound : 0 < (fresh verbose).store.size ∧
      ∀ frame ∈ (fresh verbose).store.frames.toList, ∀ var ∈ frame.vars, var.1 ∉ scopeNames →
        var.2.Discreet scopeNames := by
    cases verbose <;> decide
  exact ⟨⟨⟨rfl, hbound.1, fun _ _ => rfl, rfl⟩, rfl, rfl, rfl, rfl⟩, .of_frames hbound.2⟩

/-- A program that does not mention the names gets hold of no scope. -/
theorem scopeless_evalText (hm : Scopeless m) (depth : Nat) {source : String}
    (havoids : Reader.Avoids scopeNames source) :
    let run := evalText (.ofDepth depth) 0 source
    Scopeless (run.after m) ∧ ∀ value, run.outcome m = .ok value → value.Discreet scopeNames := by
  intro run
  have hforms : ∀ forms, Reader.readForms source = .ok forms →
      forms.Forall₂ (Oblivion.Same scopeNames) forms := by
    intro forms hread
    unfold Reader.Avoids at havoids
    rw [hread] at havoids
    refine Oblivion.forall₂_same fun form hform =>
      ⟨?_, Reader.every_of_mem_readForms _ hread form hform⟩
    exact form.oblivious_of_avoids (Reader.every_of_mem_readForms _ hread form hform)
      (havoids form hform)
  -- the run is followed beside itself, so that both machines are the same throughout
  have hcoupled : (Oblivion.coupling scopeNames "&env" 0 (by decide)).Coupled (.ofDepth depth) :=
    Oblivion.coupled _ (by decide) depth
  have hcouples := Coupling.couples_evalText (w := ()) hcoupled hm (rfl : (0 : FrameId) = 0) source
    hforms
  obtain ⟨_, -, htwins, hends⟩ := hcouples.exists_twins
  refine ⟨htwins, fun value hvalue => ?_⟩
  rcases hends with ⟨a, b, ha, -, hsame⟩ | ⟨stop, stop', hstop, -, -⟩
  · rw [hvalue] at ha
    cases ha
    exact hsame.2
  · rw [hvalue] at hstop
    cases hstop

theorem scopeless_evalAll (hm : Scopeless m) (depth : Nat) {sources : List String}
    (havoids : ∀ source ∈ sources, Reader.Avoids scopeNames source) :
    Scopeless (evalAll (.ofDepth depth) sources m) :=
  evalAll_preserves (p := Scopeless) hm fun source hmem _ hm =>
    (scopeless_evalText hm depth (havoids source hmem)).1

/-- **When printing comes to an end.**

* In any store, the printing of a value ends exactly if no scope that is reached in doing so is
  printed within itself.
* In a session whose programs mention neither `macro` nor `&env`, that is so for all values that
  they come to, and for all that are bound to other names. -/
theorem print_ends (style : Style) :
    (∀ (store : Store) (value : Value),
      (¬store.Loops style value ↔ ∀ shown ∈ value.shownScopes style, Acc store.Within shown) ∧
      (¬store.Loops style value → store.Prints style value) ∧
      (store.Loops style value → ∀ (bound : Nat) (text : String),
        Printer.valueText (Printer.environmentText store bound) style value ≠ .ok text)) ∧
    ∀ (verbose : Bool) (depth : Nat) (earlier : List String) (source : String),
      (∀ text ∈ earlier ++ [source], Reader.Avoids scopeNames text) →
      let m := evalAll (.ofDepth depth) earlier (fresh verbose)
      let run := evalText (.ofDepth depth) 0 source
      let store := (run.after m).store
      (∀ value, run.outcome m = .ok value → store.Prints style value) ∧
      ∀ id name value, store.local? id name = some value → name ∉ scopeNames →
        store.Prints style value := by
  refine ⟨fun store value => store.print_ends_iff style value, ?_⟩
  intro verbose depth earlier source havoids m run store
  rw [List.forall_mem_append] at havoids
  have hm : Scopeless m := scopeless_evalAll (scopeless_fresh verbose) depth havoids.1
  obtain ⟨hafter, hvalue⟩ := scopeless_evalText hm depth (havoids.2 source (by simp))
  exact ⟨fun value hrun => (hvalue value hrun).prints store style,
    fun id name value hlocal hname => (hafter.grants id name value hlocal hname).prints store style⟩

/-- A program that defines a transformer without mentioning its scope, and another one that calls
it. -/
theorem print_ends_unless :
    let earlier := ["(defmacro unless [a b c] (list (quote if) a c b))"]
    let source := "(def x (unless false [1 :a] 2))"
    let m := evalAll (.ofDepth 12) earlier (fresh false)
    let run := evalText (.ofDepth 12) 0 source
    (∀ text ∈ earlier ++ [source], Reader.Avoids scopeNames text) ∧
      (∃ value, run.outcome m = .ok value ∧ (run.after m).store.Prints .source value) := by
  intro earlier source
  dsimp only
  generalize hm : evalAll (.ofDepth 12) earlier (fresh false) = m
  obtain ⟨havoids, hok⟩ : (∀ text ∈ earlier ++ [source], Reader.Avoids scopeNames text) ∧
      ((evalText (.ofDepth 12) 0 source).outcome m).toOption.any (fun _ => true) = true := by
    subst hm
    decide +kernel
  have hprints := ((print_ends .source).2 false 12 earlier source havoids).1
  rw [hm] at hprints
  obtain ⟨value, m', hrun, -⟩ := Run.exists_ok_of_any hok
  have hvalue := Run.outcome_of_ok hrun
  exact ⟨havoids, value, hvalue, hprints value hvalue⟩

/-- A transformer that gives back its scope lets a program bind the root to a name. Then the root is
printed within itself: it has no text, and a program that asks for one comes to no end. -/
theorem print_loops :
    let earlier := ["(defmacro where [] &env)", "(def me (where))"]
    let m := evalAll (.ofDepth 12) earlier (fresh false)
    m.store.Loops .source (.environment 0) ∧
      m.store.print .source (.environment 0) = .error .circular ∧
      (∀ bound text, Printer.valueText (Printer.environmentText m.store bound) .source
        (.environment 0) ≠ .ok text) ∧
      (match (evalText (.ofDepth 12) 0 "me").outcome m,
          (evalText (.ofDepth 12) 0 "(if (str me) 1 2)").outcome m with
        | .ok (.environment 0), .error .exhausted => true
        | _, _ => false) = true := by
  intro earlier
  dsimp only
  generalize hm : evalAll (.ofDepth 12) earlier (fresh false) = m
  obtain ⟨hcut, hwhole, hprint, hruns⟩ : m.store.Within (.inspect, 0) (.source, 0) ∧
      m.store.Within (.inspect, 0) (.inspect, 0) ∧
      m.store.print .source (.environment 0) = .error .circular ∧
      (match (evalText (.ofDepth 12) 0 "me").outcome m,
          (evalText (.ofDepth 12) 0 "(if (str me) 1 2)").outcome m with
        | .ok (.environment 0), .error .exhausted => true
        | _, _ => false) = true := by
    subst hm
    decide +kernel
  have hloops : m.store.Loops .source (.environment 0) :=
    ⟨(.source, 0), List.mem_singleton.2 rfl, (.inspect, 0), .single hcut, .single hwhole⟩
  exact ⟨hloops, hprint, (m.store.print_ends_iff .source (.environment 0)).2.2 hloops, hruns⟩

end Session

end SmallLisp
