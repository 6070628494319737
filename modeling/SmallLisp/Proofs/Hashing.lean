import SmallLisp.Proofs.Equality
import SmallLisp.Value.Hash

/-!
# Equal values have equal hashes

Whatever hasher the host uses, equal values have one digest, provided that the hasher gives equal
numbers one digest and does not look at the order in which the members of a set are listed
(`Hasher.Sound`).

* `Value.digest_eq_of_equal`: the digests of equal values, by induction on the first one.
* `Value.keyDigest_eq_of_equal`: the same for the digests under which a map files its keys.
* `Hasher.sound_standard`: the standard hasher is sound.
-/

namespace SmallLisp

/-- What a map relies on: equal numbers have one digest, and so do the orders of a set. -/
structure Hasher.Sound (hasher : Hasher) : Prop where
  number : ∀ {m n : Number}, m.equal n = true → hasher.number m = hasher.number n
  set : ∀ {words words' : List UInt64}, words.Perm words' → hasher.set words = hasher.set words'

/-- The standard hasher is sound. -/
theorem Hasher.sound_standard : Hasher.standard.Sound where
  number {m n} h := by
    show m.hash = n.hash
    unfold Number.equal at h
    unfold Number.hash
    split at h
    · rename_i x y hx hy
      rw [hx, hy, beq_iff_eq.1 h]
    · cases h
  set {words words'} h := by
    have hsum : words.foldr (· + ·) 0 = words'.foldr (· + ·) 0 := by
      induction h with
      | nil => rfl
      | cons word _ ih => simp [ih]
      | swap word word' rest => simp only [List.foldr_cons, ← UInt64.add_assoc, UInt64.add_comm]
      | trans _ _ ih ih' => exact ih.trans ih'
    show mixWord 37 _ = mixWord 37 _
    rw [hsum]

namespace Value

variable {hasher : Hasher}

theorem digestAll_eq_of_forall₂ {as bs : List Value}
    (h : List.Forall₂ (fun a b => a.digest hasher = b.digest hasher) as bs) :
    digestAll hasher as = digestAll hasher bs := by
  induction h with
  | nil => rfl
  | cons hab _ ih => rw [digestAll, digestAll, hab, ih]

theorem digestEntries_eq_map (entries : Entries) :
    digestEntries hasher entries = entries.map fun entry =>
      hasher.row [entry.1.keyDigest hasher, entry.2.digest hasher] := by
  induction entries with
  | nil => rfl
  | cons entry entries ih =>
    obtain ⟨key, value⟩ := entry
    rw [digestEntries, ih, List.map_cons]
    rfl

/-- Leaves of which equality sees the same have one digest. -/
theorem digest_eq_of_leaf (hsound : hasher.Sound) {a b : Value} {leaf : Leaf}
    (ha : a.leaf? = some leaf) (hb : b.leaf? = some leaf) (h : a.equal b = true) :
    a.digest hasher = b.digest hasher := by
  cases a with
  | number m =>
    cases b with
    | number n => exact hsound.number h
    | _ => cases h
  | list | vector | map => cases ha
  | nil | bool | str | symbol | keyword | function | host | transformer | environment =>
    cases ha
    cases b <;> cases hb
    rfl

/-- Equal keys are filed alike if they have one digest. -/
theorem keyDigest_eq {a b : Value} (h : a.equal b = true)
    (hdigest : a.digest hasher = b.digest hasher) : a.keyDigest hasher = b.keyDigest hasher := by
  unfold keyDigest
  cases a with
  | bool x =>
    cases b with
    | bool y => rw [beq_iff_eq.1 h]
    | _ => cases h
  | _ =>
    cases b with
    | bool y => cases h
    | _ => exact hdigest

/-- **Equal values have one digest.** -/
theorem digest_eq_of_equal (hsound : hasher.Sound) {a b : Value} (ha : Comparable a)
    (hb : Comparable b) (h : a.equal b = true) : a.digest hasher = b.digest hasher := by
  induction ha generalizing b with
  | leaf hleaf hplace => exact digest_eq_of_leaf hsound hleaf ((equal_leaf hleaf hplace).1 h) h
  | @sequence a as hitems _ ih =>
    obtain ⟨bs, hitems', hforall⟩ := (equal_sequence hitems).1 h
    have hrow := forall₂_of_mem (p := fun a => ∀ {b}, Comparable b → a.equal b = true →
      a.digest hasher = b.digest hasher) ih (hb.items hitems') hforall
    have hdigests := digestAll_eq_of_forall₂ (hrow.imp fun x y hxy => hxy.1 hxy.2.1 hxy.2.2)
    have hdigest : ∀ {value : Value} {items : List Value}, value.sequence? = some items →
        value.digest hasher = hasher.row (digestAll hasher items) := by
      intro value items hvalue
      cases value <;> cases hvalue <;> rfl
    rw [hdigest hitems, hdigest hitems', hdigests]
  | @map as hd hkeys hvalues ihkeys ihvalues =>
    obtain ⟨bs, rfl, -⟩ := equal_map.1 h
    obtain ⟨bs', hperm, hmatches⟩ := (equal_perm (.map hd hkeys hvalues) hb).1 h
    have hentries : digestEntries hasher as = digestEntries hasher bs' := by
      clear hperm h hb
      induction hmatches with
      | nil => rfl
      | @cons x y as bs' hxy _ ih =>
        rw [List.forall_mem_cons] at hkeys hvalues ihkeys ihvalues
        obtain ⟨-, hd⟩ := List.pairwise_cons.1 hd
        have hkey := keyDigest_eq hxy.keys (ihkeys.1 hxy.right.1 hxy.keys)
        have hvalue := ihvalues.1 hxy.right.2 hxy.values
        have hrest := ih hd hkeys.2 hvalues.2 ihkeys.2 ihvalues.2
        rw [digestEntries_eq_map] at hrest ⊢
        rw [digestEntries_eq_map] at hrest ⊢
        rw [List.map_cons, List.map_cons, hkey, hvalue, hrest]
    show hasher.set (digestEntries hasher as) = hasher.set (digestEntries hasher bs)
    rw [hentries, digestEntries_eq_map, digestEntries_eq_map]
    exact hsound.set (hperm.map _)

/-- Equal keys are filed alike. -/
theorem keyDigest_eq_of_equal (hsound : hasher.Sound) {a b : Value} (ha : Comparable a)
    (hb : Comparable b) (h : a.equal b = true) : a.keyDigest hasher = b.keyDigest hasher :=
  keyDigest_eq h (digest_eq_of_equal hsound ha hb h)

end Value

end SmallLisp
