import Mathlib.Data.Finset.Card
import SmallLisp.Proofs.Frames
import SmallLisp.Printer

/-!
# How deeply scopes are printed within scopes

Printing takes a bound on how deeply scopes are printed within scopes. A greater bound changes
nothing but a text that the smaller one has cut off (`Printer.settles_environmentText`). The frames
whose text is not cut off grow with the bound until they grow no more, and from there on the bound
does not matter. Since there are no more frames than the store has, that is the case at a bound of
one more than their number:

* **`Printer.environmentText_eq_of_lt`**: every greater bound gives the same texts.
* `Printer.valueText_eq_of_every`: a value that holds no scope has the same text in every store.
-/

namespace SmallLisp.Printer

/-- The second computation has the result of the first, unless the first is cut off. -/
def Settles {α : Type} (x x' : Except PrintError α) : Prop :=
  x ≠ .error .circular → x' = x

theorem Settles.bind {α β : Type} {x x' : Except PrintError α} {f f' : α → Except PrintError β}
    (hx : Settles x x') (hf : ∀ a, Settles (f a) (f' a)) : Settles (x >>= f) (x' >>= f') := by
  intro h
  have hne : x ≠ .error .circular := by
    rintro rfl
    exact h rfl
  rw [hx hne]
  cases x with
  | error reason => rfl
  | ok a => exact hf a h

theorem settles_rfl {α : Type} {x : Except PrintError α} : Settles x x := fun _ => rfl

section texts

variable {scope scope' : Style → FrameId → Printed}

/-- If the capability is a scope, then its text is settled. -/
def ScopeSettles (scope scope' : Style → FrameId → Printed) : Value → Prop
  | .environment id => ∀ style, Settles (scope style id) (scope' style id)
  | _ => True

mutual

/-- The text of a value is settled where those of the scopes in it are. -/
theorem settles_valueText : ∀ (value : Value) (style : Style),
    value.Every (ScopeSettles scope scope') →
    Settles (valueText scope style value) (valueText scope' style value)
  | .list items, style, h => by
    rw [valueText, valueText]
    exact (settles_itemTexts items ((Value.every_list _).1 h)).bind fun _ => settles_rfl
  | .vector items, style, h => by
    rw [valueText, valueText]
    exact (settles_itemTexts items ((Value.every_vector _).1 h)).bind fun _ => settles_rfl
  | .map entries, style, h => by
    rw [valueText, valueText]
    exact (settles_entryTexts entries ((Value.every_map _).1 h)).bind fun _ => settles_rfl
  | .function _ params _ _, style, h => by
    rw [valueText, valueText]
    obtain ⟨-, hparams, -⟩ := Value.every_function.1 h
    exact (settles_valueText params .source hparams).bind fun _ => settles_rfl
  | .transformer _ target, style, h => by
    rw [valueText, valueText]
    exact (settles_valueText target .inspect (Value.every_transformer.1 h).2).bind
      fun _ => settles_rfl
  | .environment frame, style, h => by
    rw [valueText, valueText]
    exact Value.every_environment.1 h style
  | .nil, style, _ | .bool _, style, _ | .number _, style, _ | .str _, style, _
  | .symbol _, style, _ | .keyword _, style, _ | .host .., style, _ => by
    rw [valueText, valueText] <;> first | exact settles_rfl | nofun

theorem settles_itemTexts : ∀ items : List Value,
    (∀ item ∈ items, item.Every (ScopeSettles scope scope')) →
    Settles (itemTexts scope items) (itemTexts scope' items)
  | [], _ => by
    rw [itemTexts, itemTexts]
    exact settles_rfl
  | item :: items, h => by
    rw [List.forall_mem_cons] at h
    rw [itemTexts, itemTexts]
    refine (settles_valueText item .source h.1).bind fun text => ?_
    exact (settles_itemTexts items h.2).bind fun _ => settles_rfl

theorem settles_entryTexts : ∀ entries : Entries,
    (∀ entry ∈ entries, entry.1.Every (ScopeSettles scope scope') ∧
      entry.2.Every (ScopeSettles scope scope')) →
    Settles (entryTexts scope entries) (entryTexts scope' entries)
  | [], _ => by
    rw [entryTexts, entryTexts]
    exact settles_rfl
  | (key, value) :: entries, h => by
    obtain ⟨⟨hkey, hvalue⟩, hentries⟩ := List.forall_mem_cons.1 h
    rw [entryTexts, entryTexts]
    refine (settles_valueText key .source hkey).bind fun keyText => ?_
    refine (settles_valueText value .source hvalue).bind fun text => ?_
    exact (settles_entryTexts entries hentries).bind fun _ => settles_rfl

end

/-- A value that holds no scope has the same text in every store. -/
theorem valueText_eq_of_every {value : Value}
    (h : value.Every fun c => ∀ id, c ≠ .environment id) (style : Style) :
    valueText scope style value = valueText scope' style value := by
  have hsettles : ∀ scope scope' : Style → FrameId → Printed,
      Settles (valueText scope style value) (valueText scope' style value) := fun scope scope' =>
    settles_valueText value style (h.mono fun c hc => by
      cases c with
      | environment id => exact absurd rfl (hc id)
      | _ => trivial)
  by_cases hcut : valueText scope style value = .error .circular
  · by_cases hcut' : valueText scope' style value = .error .circular
    · rw [hcut, hcut']
    · exact hsettles scope' scope hcut'
  · exact (hsettles scope scope' hcut).symm

/-- Rows whose members have the same texts have the same texts. -/
theorem mapM_eq_of_forall₂ {α β : Type} {f : α → Printed} {g : β → Printed} {as : List α}
    {bs : List β} (h : as.Forall₂ (fun a b => f a = g b) bs) : as.mapM f = bs.mapM g := by
  induction h with
  | nil => rfl
  | cons hab _ ih => rw [List.mapM_cons, List.mapM_cons, ih, hab]

/-- Frames that bind the same names to values with the same texts have the same text. -/
theorem varsText_eq {vars vars' : List (String × Value)}
    (h : vars.Forall₂ (fun var var' => var.1 = var'.1 ∧
      valueText scope .inspect var.2 = valueText scope' .inspect var'.2) vars') :
    varsText scope vars = varsText scope' vars' := by
  unfold varsText
  rw [mapM_eq_of_forall₂ (h.imp ?_)]
  rintro ⟨name, value⟩ ⟨_, value'⟩ ⟨rfl, htext⟩
  dsimp only at htext ⊢
  rw [htext]

theorem settles_mapM {α : Type} {f f' : α → Printed} (h : ∀ a, Settles (f a) (f' a))
    (items : List α) : Settles (items.mapM f) (items.mapM f') := by
  induction items with
  | nil => exact settles_rfl
  | cons item items ih =>
    rw [List.mapM_cons, List.mapM_cons]
    exact (h item).bind fun _ => ih.bind fun _ => settles_rfl

theorem settles_varsText (h : ∀ style id, Settles (scope style id) (scope' style id))
    (vars : List (String × Value)) : Settles (varsText scope vars) (varsText scope' vars) := by
  unfold varsText
  refine (settles_mapM ?_ vars).bind fun _ => settles_rfl
  intro var
  refine (settles_valueText var.2 .inspect fun c _ => ?_).bind fun _ => settles_rfl
  cases c with
  | environment id => exact fun style => h style id
  | _ => trivial

end texts

/-! ## Texts of frames -/

variable (store : Store)

/-- What a frame binds, with at most so many scopes printed within one another. -/
def frameText (depth : Nat) (id : FrameId) : Printed :=
  varsText (environmentText store depth) ((store.frame? id).map (·.vars) |>.getD [])

/-- The text of a scope is made out of the texts of its frames. -/
theorem environmentText_succ (depth : Nat) (style : Style) (id : FrameId) :
    environmentText store (depth + 1) style id =
      match style with
      | .inspect => do
        let texts ← (store.chain id).mapM (frameText store depth)
        return "<Environment chain: " ++ " -> ".intercalate texts ++ ">"
      | _ => do
        let text ← frameText store depth id
        return if store.isRoot id then text else text ++ " -> ..." := by
  cases style <;> rfl

theorem settles_of_frameText {depth depth' : Nat}
    (h : ∀ id, Settles (frameText store depth id) (frameText store depth' id)) (style : Style)
    (id : FrameId) :
    Settles (environmentText store (depth + 1) style id)
      (environmentText store (depth' + 1) style id) := by
  rw [environmentText_succ, environmentText_succ]
  cases style with
  | inspect => exact (settles_mapM h _).bind fun _ => settles_rfl
  | source | display => exact (h id).bind fun _ => settles_rfl

/-- A greater bound changes only what is cut off. -/
theorem settles_environmentText (depth : Nat) (style : Style) (id : FrameId) :
    Settles (environmentText store depth style id)
      (environmentText store (depth + 1) style id) := by
  induction depth generalizing style id with
  | zero => exact fun h => absurd rfl h
  | succ depth ih => exact settles_of_frameText store (fun id => settles_varsText ih _) style id

theorem settles_frameText (depth : Nat) (id : FrameId) :
    Settles (frameText store depth id) (frameText store (depth + 1) id) :=
  settles_varsText (settles_environmentText store depth) _

/-! ## The bound does not matter from some point on -/

/-- A greater bound changes the text of no frame. -/
def Stable (depth : Nat) : Prop :=
  ∀ id, frameText store (depth + 1) id = frameText store depth id

theorem environmentText_eq_of_stable {depth : Nat} (h : Stable store depth) :
    environmentText store (depth + 2) = environmentText store (depth + 1) := by
  funext style id
  rw [environmentText_succ, environmentText_succ, funext h]

theorem Stable.succ {depth : Nat} (h : Stable store depth) : Stable store (depth + 1) := by
  intro id
  unfold frameText
  rw [environmentText_eq_of_stable store h]

open Classical in
/-- The frames whose text is not cut off. -/
noncomputable def settled (depth : Nat) : Finset FrameId :=
  (Finset.range store.size).filter fun id => frameText store depth id ≠ .error .circular

theorem mem_settled {depth : Nat} {id : FrameId} :
    id ∈ settled store depth ↔ id < store.size ∧ frameText store depth id ≠ .error .circular := by
  simp [settled]

theorem settled_subset (depth : Nat) : settled store depth ⊆ settled store (depth + 1) := by
  intro id hid
  obtain ⟨hlt, hne⟩ := (mem_settled store).1 hid
  refine (mem_settled store).2 ⟨hlt, ?_⟩
  rw [settles_frameText store depth id hne]
  exact hne

/-- As long as the bound matters, it lets the text of one more frame through. -/
theorem card_settled_lt {depth : Nat} (h : ¬Stable store depth) :
    (settled store depth).card < (settled store (depth + 1)).card := by
  obtain ⟨id, hid⟩ := not_forall.1 h
  have hcut : frameText store depth id = .error .circular := by
    by_contra hne
    exact hid (settles_frameText store depth id hne)
  have hlt : id < store.size := by
    by_contra hge
    -- a frame that does not exist binds nothing
    have hnone : store.frame? id = none := Array.getElem?_eq_none (Nat.not_lt.1 hge)
    exact hid (by unfold frameText; rw [hnone]; rfl)
  refine Finset.card_lt_card ((Finset.ssubset_iff_of_subset (settled_subset store depth)).2 ?_)
  refine ⟨id, (mem_settled store).2 ⟨hlt, ?_⟩, fun hmem => ((mem_settled store).1 hmem).2 hcut⟩
  rw [← hcut]
  exact hid

theorem stable_size : Stable store store.size := by
  by_contra hsize
  have hnot : ∀ depth ≤ store.size, ¬Stable store depth := by
    intro depth hle hstable
    obtain ⟨k, hk⟩ := Nat.exists_eq_add_of_le hle
    apply hsize
    rw [hk]
    clear hk
    induction k with
    | zero => exact hstable
    | succ k ih => exact ih.succ
  have hcard : ∀ depth ≤ store.size + 1, depth ≤ (settled store depth).card := by
    intro depth
    induction depth with
    | zero => exact fun _ => Nat.zero_le _
    | succ depth ih =>
      intro hle
      have := card_settled_lt store (hnot depth (Nat.le_of_succ_le_succ hle))
      have := ih (Nat.le_of_succ_le hle)
      omega
  have hmax : (settled store (store.size + 1)).card ≤ store.size := by
    calc (settled store (store.size + 1)).card ≤ (Finset.range store.size).card :=
          Finset.card_le_card fun id hid => Finset.mem_range.2 ((mem_settled store).1 hid).1
      _ = store.size := Finset.card_range _
  have := hcard (store.size + 1) le_rfl
  omega

/-- **The bound on nested scopes stops only what would never end**: every bound that is greater than
the number of frames gives the same texts. -/
theorem environmentText_eq_of_lt {depth : Nat} (h : store.size < depth) :
    environmentText store depth = environmentText store (store.size + 1) := by
  obtain ⟨k, rfl⟩ := Nat.exists_eq_add_of_lt h
  have hstable : ∀ k, Stable store (store.size + k) := by
    intro k
    induction k with
    | zero => exact stable_size store
    | succ k ih => exact ih.succ
  induction k with
  | zero => rfl
  | succ k ih =>
    rw [← ih (by omega)]
    exact environmentText_eq_of_stable store (hstable k)

end SmallLisp.Printer
