import Mathlib.Data.List.Perm.Basic
import SmallLisp.Proofs.Rounding
import SmallLisp.Value.Entries
import SmallLisp.Value.Sequence

/-!
# Equality of values is symmetric and transitive

Equality is symmetric and transitive on all values that hold no `nan`. (That it is reflexive on them
too is shown in `SmallLisp.Proofs.Equivalence`; nothing here needs it.)

* `Value.leaf?`: what equality sees of a value that is no collection. Three statements, one for each
  of leaves, sequences and maps, say what a value equals (`equal_leaf`, `equal_sequence`,
  `equal_map`), and nothing behind them unfolds the definition.
* `Entries.Distinct`: no key of a map equals an earlier one. Every map that is made by adding
  pairs is such a map.
* `Value.Comparable`: the value holds no `nan`, and the keys of its maps are distinct.
* **`Value.equivOn_comparable`**: on comparable values equality is symmetric and transitive.
* `Value.equal_perm`: two maps are equal exactly if the entries of the one can be put into an order
  in which they match those of the other, one by one.

The test for maps looks in one direction only and compares the numbers of entries. That it is
symmetric needs the distinct keys: two keys of the first map cannot be matched by the same key of
the second one, for they would then equal each other, and that takes symmetry and transitivity on
the keys. The induction is therefore on a common bound of the sizes of all values compared, and it
shows both laws at once.
-/

namespace SmallLisp

namespace Value

/-! ## What a value equals -/

/-- What equality sees of a value that is no collection. -/
inductive Leaf
  | nil
  | bool (b : Bool)
  | place (level : Option Binary64.Level)
  | str (text : String)
  | symbol (name : String)
  | keyword (name : String)
  | function (serial : Nat)
  | host (serial : Nat)
  | transformer (serial : Nat)
  | environment (frame : FrameId)
deriving DecidableEq

/-- What equality sees of the value, unless it is a collection. -/
def leaf? : Value → Option Leaf
  | .nil => some .nil
  | .bool b => some (.bool b)
  | .number n => some (.place n.level?)
  | .str text => some (.str text)
  | .symbol name => some (.symbol name)
  | .keyword name => some (.keyword name)
  | .function serial _ _ _ => some (.function serial)
  | .host serial _ => some (.host serial)
  | .transformer serial _ => some (.transformer serial)
  | .environment frame => some (.environment frame)
  | .list _ | .vector _ | .map _ => none

theorem number_equal_iff {m n : Number} (h : m.level? ≠ none) :
    m.equal n = true ↔ m.level? = n.level? := by
  unfold Number.equal
  cases hm : m.level? with
  | none => exact absurd hm h
  | some x => cases n.level? <;> simp

/-- A leaf other than `nan` equals the leaves of which equality sees the same. -/
theorem equal_leaf {a b : Value} {leaf : Leaf} (ha : a.leaf? = some leaf)
    (hplace : leaf ≠ .place none) : a.equal b = true ↔ b.leaf? = some leaf := by
  rw [@eq_comm _ b.leaf?]
  cases a with
  | number m =>
    cases ha
    have hm : m.level? ≠ none := fun h => hplace (by rw [h])
    cases b with
    | number n => simpa [equal, leaf?] using number_equal_iff hm
    | _ => simp [equal, leaf?]
  | list | vector | map => cases ha
  | nil | bool | str | symbol | keyword | function | host | transformer | environment =>
    cases ha
    cases b <;> simp [equal, leaf?]

theorem equalItems_iff {as bs : List Value} :
    equalItems as bs = true ↔ List.Forall₂ (fun a b => a.equal b = true) as bs := by
  induction as generalizing bs with
  | nil => cases bs <;> simp [equalItems]
  | cons a as ih => cases bs <;> simp [equalItems, ih]

/-- A sequence equals the sequences with equal items. -/
theorem equal_sequence {a b : Value} {as : List Value} (ha : a.sequence? = some as) :
    a.equal b = true ↔
      ∃ bs, b.sequence? = some bs ∧ List.Forall₂ (fun a b => a.equal b = true) as bs := by
  cases a with
  | list items | vector items =>
    cases ha
    cases b <;> simp [equal, sequence?, equalItems_iff]
  | _ => cases ha

theorem entriesWithin_iff {as bs : Entries} :
    entriesWithin as bs = true ↔
      ∀ a ∈ as, ∃ b, bs.find? (fun entry => a.1.equal entry.1) = some b ∧ a.2.equal b.2 = true := by
  induction as with
  | nil => simp [entriesWithin]
  | cons a as ih =>
    obtain ⟨key, value⟩ := a
    rw [entriesWithin, Bool.and_eq_true, ih, List.forall_mem_cons]
    refine and_congr_left fun _ => ?_
    cases bs.find? fun entry => key.equal entry.1 <;> simp

end Value

/-! ## Maps with distinct keys -/

namespace Entries

/-- No key equals an earlier one. -/
def Distinct (entries : Entries) : Prop :=
  entries.Pairwise fun earlier later => later.1.equal earlier.1 = false

theorem insert_of_forall_not_equal {entries : Entries} {key : Value} (value : Value)
    (h : ∀ entry ∈ entries, key.equal entry.1 = false) :
    insert entries key value = entries ++ [(key, value)] := by
  induction entries with
  | nil => rfl
  | cons entry entries ih =>
    rw [List.forall_mem_cons] at h
    rw [insert, h.1, if_neg (by simp), ih h.2, List.cons_append]

theorem mem_insert {entries : Entries} {key value : Value} {entry : Value × Value}
    (h : entry ∈ insert entries key value) :
    (∃ old ∈ entries, entry.1 = old.1) ∨ entry = (key, value) := by
  induction entries with
  | nil => exact .inr (List.mem_singleton.1 h)
  | cons first entries ih =>
    unfold insert at h
    split at h
    · rcases List.mem_cons.1 h with rfl | h
      · exact .inl ⟨first, List.mem_cons_self, rfl⟩
      · exact .inl ⟨entry, List.mem_cons_of_mem _ h, rfl⟩
    · rcases List.mem_cons.1 h with rfl | h
      · exact .inl ⟨entry, List.mem_cons_self, rfl⟩
      · apply (ih h).imp_left
        rintro ⟨old, hold, heq⟩
        exact ⟨old, List.mem_cons_of_mem _ hold, heq⟩

theorem Distinct.insert {entries : Entries} (h : Distinct entries) (key value : Value) :
    Distinct (entries.insert key value) := by
  induction entries with
  | nil => exact List.pairwise_singleton _ _
  | cons first entries ih =>
    obtain ⟨hfirst, hentries⟩ := List.pairwise_cons.1 h
    unfold Entries.insert
    split
    · exact List.pairwise_cons.2 ⟨hfirst, hentries⟩
    · rename_i hne
      refine List.pairwise_cons.2 ⟨?_, ih hentries⟩
      intro entry hentry
      rcases mem_insert hentry with ⟨old, hold, heq⟩ | rfl
      · rw [heq]
        exact hfirst old hold
      · simpa using hne

/-- A map that is made out of pairs has distinct keys. -/
theorem distinct_ofPairs (pairs : List (Value × Value)) : Distinct (ofPairs pairs) := by
  suffices hfold : ∀ entries : Entries, Distinct entries →
      Distinct (pairs.foldl (fun entries pair => entries.insert pair.1 pair.2) entries) from
    hfold [] List.Pairwise.nil
  induction pairs with
  | nil => exact fun _ h => h
  | cons pair pairs ih => exact fun entries h => ih _ (h.insert pair.1 pair.2)

/-- Pairs with distinct keys make the map that they are. -/
theorem ofPairs_of_distinct {pairs : List (Value × Value)} (h : Distinct pairs) :
    ofPairs pairs = pairs := by
  suffices hfold : ∀ entries : Entries, Distinct (entries ++ pairs) →
      pairs.foldl (fun entries pair => entries.insert pair.1 pair.2) entries = entries ++ pairs from
    hfold [] h
  clear h
  induction pairs with
  | nil => exact fun entries _ => (List.append_nil entries).symm
  | cons pair pairs ih =>
    intro entries hdistinct
    have hnew : ∀ entry ∈ entries, pair.1.equal entry.1 = false := fun entry hentry =>
      (List.pairwise_append.1 hdistinct).2.2 entry hentry pair List.mem_cons_self
    have hsplit : entries ++ pair :: pairs = entries ++ [(pair.1, pair.2)] ++ pairs := by simp
    rw [List.foldl_cons, insert_of_forall_not_equal pair.2 hnew, hsplit]
    exact ih _ (hsplit ▸ hdistinct)

end Entries

/-- A member of a row has a partner in every row that the row is related to. -/
theorem exists_of_forall₂ {α : Type} {r : α → α → Prop} {as bs : List α}
    (h : List.Forall₂ r as bs) {a : α} (ha : a ∈ as) : ∃ b ∈ bs, r a b := by
  induction h with
  | nil => cases ha
  | @cons x y as bs hxy _ ih =>
    rcases List.mem_cons.1 ha with rfl | ha
    · exact ⟨y, List.mem_cons_self, hxy⟩
    · obtain ⟨b, hb, hab⟩ := ih ha
      exact ⟨b, List.mem_cons_of_mem _ hb, hab⟩

/-! ## Maps over keys on which equality is an equivalence -/

/-- Equality is symmetric and transitive on the values with `p`. -/
structure Value.EquivOn (p : Value → Prop) : Prop where
  symm : ∀ {a b}, p a → p b → a.equal b = true → b.equal a = true
  trans : ∀ {a b c}, p a → p b → p c → a.equal b = true → b.equal c = true → a.equal c = true

namespace Entries

variable {p : Value → Prop}

/-- Both entries have `p`, and their keys and their values are equal. -/
structure Matches (p : Value → Prop) (a b : Value × Value) : Prop where
  left : p a.1 ∧ p a.2
  right : p b.1 ∧ p b.2
  keys : a.1.equal b.1 = true
  values : a.2.equal b.2 = true

theorem Matches.symm (hp : Value.EquivOn p) {a b : Value × Value} (h : Matches p a b) :
    Matches p b a where
  left := h.right
  right := h.left
  keys := hp.symm h.left.1 h.right.1 h.keys
  values := hp.symm h.left.2 h.right.2 h.values

theorem Matches.trans (hp : Value.EquivOn p) {a b c : Value × Value} (h : Matches p a b)
    (h' : Matches p b c) : Matches p a c where
  left := h.left
  right := h'.right
  keys := hp.trans h.left.1 h.right.1 h'.right.1 h.keys h'.keys
  values := hp.trans h.left.2 h.right.2 h'.right.2 h.values h'.values

/-- Of two entries of a map with distinct keys that match the same key, both are the same. -/
theorem Distinct.eq_of_equal (hp : Value.EquivOn p) {entries : Entries} (hd : Distinct entries)
    (hentries : Within p entries) {key : Value} (hkey : p key) {a b : Value × Value}
    (ha : a ∈ entries) (hb : b ∈ entries) (hakey : key.equal a.1 = true)
    (hbkey : key.equal b.1 = true) : a = b := by
  have hpa := (hentries a ha).1
  have hpb := (hentries b hb).1
  have hab := hp.trans hpa hkey hpb (hp.symm hkey hpa hakey) hbkey
  have hba := hp.trans hpb hkey hpa (hp.symm hkey hpb hbkey) hakey
  by_contra hne
  have hapart : ∀ x ∈ entries, ∀ y ∈ entries, x ≠ y →
      x.1.equal y.1 = false ∨ y.1.equal x.1 = false := by
    refine List.Pairwise.forall_of_forall_of_flip (fun x _ h => absurd rfl h) ?_ ?_
    · exact hd.imp fun h _ => .inr h
    · exact hd.imp fun h _ => .inl h
  rcases hapart a ha b hb hne with h | h
  · rw [hab] at h
    cases h
  · rw [hba] at h
    cases h

/-- If all entries of a map are found in one of the same size, then its entries can be put into an
order in which the two match one by one. -/
theorem exists_perm_of_entriesWithin (hp : Value.EquivOn p) {as bs : Entries}
    (hd : Distinct as) (has : Within p as) (hbs : Within p bs) (hlength : as.length = bs.length)
    (h : entriesWithin as bs = true) :
    ∃ bs', bs'.Perm bs ∧ List.Forall₂ (Matches p) as bs' := by
  induction as generalizing bs with
  | nil =>
    have hnil : bs = [] := List.eq_nil_of_length_eq_zero hlength.symm
    exact ⟨[], by rw [hnil], .nil⟩
  | cons a as ih =>
    obtain ⟨hafter, hd⟩ := List.pairwise_cons.1 hd
    obtain ⟨ha, has⟩ := List.forall_mem_cons.1 has
    rw [Value.entriesWithin_iff, List.forall_mem_cons] at h
    obtain ⟨⟨b, hfind, hvalue⟩, hrest⟩ := h
    obtain ⟨hkey, before, after, rfl, -⟩ := List.find?_eq_some_iff_append.1 hfind
    have hb := hbs b (by simp)
    have hothers : Within p (before ++ after) := fun entry hentry =>
      hbs entry (by
        rcases List.mem_append.1 hentry with hentry | hentry
        · exact List.mem_append_left _ hentry
        · exact List.mem_append_right _ (List.mem_cons_of_mem _ hentry))
    -- no other entry is matched by `b`, since its key would equal that of `a`
    have hwithin : entriesWithin as (before ++ after) = true := by
      rw [Value.entriesWithin_iff]
      intro a' ha'
      obtain ⟨b', hfind', hvalue'⟩ := hrest a' ha'
      have hne : a'.1.equal b.1 = false := by
        by_contra heq
        rw [Bool.not_eq_false] at heq
        have hsame := hp.trans (has a' ha').1 hb.1 ha.1 heq (hp.symm ha.1 hb.1 hkey)
        rw [hafter a' ha'] at hsame
        cases hsame
      refine ⟨b', ?_, hvalue'⟩
      rw [List.find?_append, List.find?_cons, hne] at hfind'
      rw [List.find?_append]
      exact hfind'
    have hlength' : as.length = (before ++ after).length := by
      simp only [List.length_cons, List.length_append] at hlength ⊢
      omega
    obtain ⟨bs', hperm, hmatches⟩ := ih hd has hothers hlength' hwithin
    exact ⟨b :: bs', (hperm.cons b).trans List.perm_middle.symm,
      .cons ⟨ha, hb, hkey, hvalue⟩ hmatches⟩

/-- If two maps match one by one in some order, the entries of the first are found in the
second. -/
theorem entriesWithin_of_perm (hp : Value.EquivOn p) {as bs bs' : Entries} (hd : Distinct bs)
    (hbs : Within p bs) (hperm : bs'.Perm bs) (h : List.Forall₂ (Matches p) as bs') :
    entriesWithin as bs = true := by
  rw [Value.entriesWithin_iff]
  intro a ha
  obtain ⟨b, hb, hmatches⟩ := exists_of_forall₂ h ha
  have hb := hperm.mem_iff.1 hb
  cases hfind : bs.find? fun entry => a.1.equal entry.1 with
  | none =>
    have hnone := List.find?_eq_none.1 hfind b hb
    exact absurd hmatches.keys hnone
  | some b' =>
    have hb' := List.mem_of_find?_eq_some hfind
    have hkey' := List.find?_some hfind
    have hsame := hd.eq_of_equal hp hbs hmatches.left.1 hb hb' hmatches.keys hkey'
    exact ⟨b', rfl, hsame ▸ hmatches.values⟩

end Entries

namespace Value

/-! ## Comparable values -/

/-- The value holds no `nan`, and the keys of its maps are distinct. -/
inductive Comparable : Value → Prop
  /-- A leaf other than `nan`. -/
  | leaf {value : Value} {leaf : Leaf} : value.leaf? = some leaf → leaf ≠ .place none →
      Comparable value
  /-- A sequence of comparable items. -/
  | sequence {value : Value} {items : List Value} : value.sequence? = some items →
      (∀ item ∈ items, Comparable item) → Comparable value
  /-- A map with distinct and comparable keys and comparable values. -/
  | map {entries : Entries} : Entries.Distinct entries →
      (∀ entry ∈ entries, Comparable entry.1) → (∀ entry ∈ entries, Comparable entry.2) →
      Comparable (.map entries)

theorem Comparable.int (n : Int) : Comparable (.int n) :=
  .leaf rfl fun h => Option.some_ne_none _ (Leaf.place.inj h)

/-- Every binary64 number but `nan` has a place. -/
theorem Comparable.float {x : Binary64} (h : x ≠ .nan) : Comparable (.float x) := by
  refine .leaf rfl fun hleaf => ?_
  have hplace : x.level? = none := Leaf.place.inj hleaf
  cases x with
  | nan => exact h rfl
  | infinite | finite => cases hplace

theorem Comparable.ofInt (n : Int) : Comparable (.float (.ofInt n)) :=
  .float (Binary64.ofRatio_ne_nan _ _ _)

theorem Comparable.items {value : Value} {items : List Value} (h : Comparable value)
    (hitems : value.sequence? = some items) : ∀ item ∈ items, Comparable item := by
  cases h with
  | leaf hleaf _ => cases value <;> cases hleaf <;> cases hitems
  | sequence hitems' h =>
    rw [hitems] at hitems'
    cases hitems'
    exact h
  | map => cases hitems

theorem Comparable.entries {entries : Entries} (h : Comparable (.map entries)) :
    entries.Distinct ∧ Entries.Within Comparable entries := by
  cases h with
  | leaf hleaf _ => cases hleaf
  | sequence hitems _ => cases hitems
  | map hd hkeys hvalues =>
    exact ⟨hd, fun entry hentry => ⟨hkeys entry hentry, hvalues entry hentry⟩⟩

theorem sizeOf_lt_of_sequence? {value item : Value} {items : List Value}
    (h : value.sequence? = some items) (hitem : item ∈ items) : sizeOf item < sizeOf value := by
  have hlt := List.sizeOf_lt_of_mem hitem
  cases value with
  | list | vector =>
    cases h
    first
    | rw [Value.list.sizeOf_spec]
    | rw [Value.vector.sizeOf_spec]
    omega
  | _ => cases h

theorem sizeOf_lt_of_entry {entries : Entries} {entry : Value × Value} (h : entry ∈ entries) :
    sizeOf entry.1 < sizeOf (Value.map entries) ∧ sizeOf entry.2 < sizeOf (Value.map entries) := by
  have hlt := List.sizeOf_lt_of_mem h
  obtain ⟨key, value⟩ := entry
  rw [Prod.mk.sizeOf_spec] at hlt
  rw [Value.map.sizeOf_spec]
  constructor
  · dsimp only
    omega
  · dsimp only
    omega

/-- Comparable values of a size below the bound. -/
def Below (bound : Nat) (value : Value) : Prop :=
  Comparable value ∧ sizeOf value < bound

theorem Below.items {bound : Nat} {value : Value} {items : List Value}
    (h : Below (bound + 1) value) (hitems : value.sequence? = some items) :
    ∀ item ∈ items, Below bound item := by
  intro item hitem
  have hlt := sizeOf_lt_of_sequence? hitems hitem
  exact ⟨h.1.items hitems item hitem, by have := h.2; omega⟩

theorem Below.entries {bound : Nat} {entries : Entries} (h : Below (bound + 1) (.map entries)) :
    Entries.Within (Below bound) entries := by
  intro entry hentry
  have hlt := sizeOf_lt_of_entry hentry
  have hcomparable := h.1.entries.2 entry hentry
  have hbound := h.2
  exact ⟨⟨hcomparable.1, by omega⟩, ⟨hcomparable.2, by omega⟩⟩

/-- What holds of the members of two rows may be used where they are related. -/
theorem forall₂_of_mem {p q : Value → Prop} {as bs : List Value} (has : ∀ a ∈ as, p a)
    (hbs : ∀ b ∈ bs, q b) (h : List.Forall₂ (fun a b => a.equal b = true) as bs) :
    List.Forall₂ (fun a b => p a ∧ q b ∧ a.equal b = true) as bs := by
  induction h with
  | nil => exact .nil
  | cons hab _ ih =>
    rw [List.forall_mem_cons] at has hbs
    exact .cons ⟨has.1, hbs.1, hab⟩ (ih has.2 hbs.2)

theorem forall₂_trans {α : Type} {r : α → α → Prop} (hr : ∀ {a b c}, r a b → r b c → r a c)
    {as bs cs : List α} (h : List.Forall₂ r as bs) (h' : List.Forall₂ r bs cs) :
    List.Forall₂ r as cs := by
  induction h generalizing cs with
  | nil =>
    cases h'
    exact .nil
  | cons hab _ ih =>
    cases h' with
    | cons hbc hrest => exact .cons (hr hab hbc) (ih hrest)

/-- The maps are equal exactly if they match one by one in some order. -/
theorem map_equal_iff {p : Value → Prop} (hp : EquivOn p) {as bs : Entries}
    (has : as.Distinct ∧ as.Within p) (hbs : bs.Distinct ∧ bs.Within p) :
    (Value.map as).equal (.map bs) = true ↔
      ∃ bs', bs'.Perm bs ∧ List.Forall₂ (Entries.Matches p) as bs' := by
  rw [equal_map]
  constructor
  · rintro ⟨bs, heq, hlength, hwithin⟩
    cases heq
    exact Entries.exists_perm_of_entriesWithin hp has.1 has.2 hbs.2 hlength hwithin
  · rintro ⟨bs', hperm, hmatches⟩
    exact ⟨bs, rfl, hmatches.length_eq.trans hperm.length_eq,
      Entries.entriesWithin_of_perm hp hbs.1 hbs.2 hperm hmatches⟩

theorem map_equal_symm {p : Value → Prop} (hp : EquivOn p) {as bs : Entries}
    (has : as.Distinct ∧ as.Within p) (hbs : bs.Distinct ∧ bs.Within p)
    (h : (Value.map as).equal (.map bs) = true) : (Value.map bs).equal (.map as) = true := by
  obtain ⟨bs', hperm, hmatches⟩ := (map_equal_iff hp has hbs).1 h
  have hflip : List.Forall₂ (Entries.Matches p) bs' as :=
    List.Forall₂.flip (hmatches.imp fun _ _ hab => hab.symm hp)
  obtain ⟨as', hmatches', hperm'⟩ := List.perm_comp_forall₂ hperm.symm hflip
  exact (map_equal_iff hp hbs has).2 ⟨as', hperm', hmatches'⟩

theorem map_equal_trans {p : Value → Prop} (hp : EquivOn p) {as bs cs : Entries}
    (has : as.Distinct ∧ as.Within p) (hbs : bs.Distinct ∧ bs.Within p)
    (hcs : cs.Distinct ∧ cs.Within p) (h : (Value.map as).equal (.map bs) = true)
    (h' : (Value.map bs).equal (.map cs) = true) : (Value.map as).equal (.map cs) = true := by
  obtain ⟨bs', hperm, hmatches⟩ := (map_equal_iff hp has hbs).1 h
  obtain ⟨cs', hperm', hmatches'⟩ := (map_equal_iff hp hbs hcs).1 h'
  obtain ⟨cs'', hmatches'', hperm''⟩ := List.perm_comp_forall₂ hperm hmatches'
  exact (map_equal_iff hp has hcs).2 ⟨cs'', hperm''.trans hperm',
    forall₂_trans (fun hab hbc => hab.trans hp hbc) hmatches hmatches''⟩

/-- Below every bound equality is symmetric and transitive. -/
theorem equivOn_below (bound : Nat) : EquivOn (Below bound) := by
  induction bound with
  | zero =>
    exact ⟨fun ha => absurd ha.2 (Nat.not_lt_zero _), fun ha => absurd ha.2 (Nat.not_lt_zero _)⟩
  | succ bound ih =>
    constructor
    · intro a b ha hb hab
      cases ha.1 with
      | leaf hleaf hplace =>
        have hb' := (equal_leaf hleaf hplace).1 hab
        exact (equal_leaf hb' hplace).2 hleaf
      | sequence hitems _ =>
        obtain ⟨bs, hitems', hforall⟩ := (equal_sequence hitems).1 hab
        have hrow := forall₂_of_mem (ha.items hitems) (hb.items hitems') hforall
        refine (equal_sequence hitems').2 ⟨_, hitems, List.Forall₂.flip (hrow.imp ?_)⟩
        exact fun x y h => ih.symm h.1 h.2.1 h.2.2
      | map hd _ _ =>
        obtain ⟨bs, rfl, -⟩ := equal_map.1 hab
        exact map_equal_symm ih ⟨hd, ha.entries⟩ ⟨hb.1.entries.1, hb.entries⟩ hab
    · intro a b c ha hb hc hab hbc
      cases ha.1 with
      | leaf hleaf hplace =>
        have hb' := (equal_leaf hleaf hplace).1 hab
        exact (equal_leaf hleaf hplace).2 ((equal_leaf hb' hplace).1 hbc)
      | sequence hitems _ =>
        obtain ⟨bs, hitems', hforall⟩ := (equal_sequence hitems).1 hab
        obtain ⟨cs, hitems'', hforall'⟩ := (equal_sequence hitems').1 hbc
        have hrow := forall₂_of_mem (ha.items hitems) (hb.items hitems') hforall
        have hrow' := forall₂_of_mem (hb.items hitems') (hc.items hitems'') hforall'
        refine (equal_sequence hitems).2 ⟨cs, hitems'', ?_⟩
        refine (forall₂_trans ?_ hrow hrow').imp fun x y h => h.2.2
        exact fun h h' => ⟨h.1, h'.2.1, ih.trans h.1 h.2.1 h'.2.1 h.2.2 h'.2.2⟩
      | map hd _ _ =>
        obtain ⟨bs, rfl, -⟩ := equal_map.1 hab
        obtain ⟨cs, rfl, -⟩ := equal_map.1 hbc
        exact map_equal_trans ih ⟨hd, ha.entries⟩ ⟨hb.1.entries.1, hb.entries⟩
          ⟨hc.1.entries.1, hc.entries⟩ hab hbc

/-- **Equality is symmetric and transitive** on comparable values. -/
theorem equivOn_comparable : EquivOn Comparable where
  symm {a b} ha hb := by
    have hbound : sizeOf a < sizeOf a + sizeOf b + 1 ∧ sizeOf b < sizeOf a + sizeOf b + 1 := by
      omega
    exact (equivOn_below _).symm ⟨ha, hbound.1⟩ ⟨hb, hbound.2⟩
  trans {a b c} ha hb hc := by
    have hbound : sizeOf a < sizeOf a + sizeOf b + sizeOf c + 1 ∧
        sizeOf b < sizeOf a + sizeOf b + sizeOf c + 1 ∧
        sizeOf c < sizeOf a + sizeOf b + sizeOf c + 1 := by omega
    exact (equivOn_below _).trans ⟨ha, hbound.1⟩ ⟨hb, hbound.2.1⟩ ⟨hc, hbound.2.2⟩

/-- Two maps are equal exactly if the entries of the second, in some order, match those of the first
one by one. -/
theorem equal_perm {as bs : Entries} (has : Comparable (.map as)) (hbs : Comparable (.map bs)) :
    (Value.map as).equal (.map bs) = true ↔
      ∃ bs', bs'.Perm bs ∧ List.Forall₂ (Entries.Matches Comparable) as bs' :=
  map_equal_iff equivOn_comparable has.entries hbs.entries

end Value

end SmallLisp
