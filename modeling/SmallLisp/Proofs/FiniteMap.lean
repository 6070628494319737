import Mathlib.Data.Set.Card
import SmallLisp.Builtin.Collection
import SmallLisp.Proofs.Equivalence
import SmallLisp.Proofs.Hashing

/-!
# A map is a finite map up to equality

Keys fall into classes of equal ones. A map that is made out of pairs holds one entry for each class
of their keys: its key is the first of the class, its value the last that came with a key of the
class.

* `Entries.get?_insert`, `Entries.get?_ofPairs`: looking up a key after one pair and after all.
* `Entries.map_fst_insert`, `Entries.first_of_mem_ofPairs`: which keys are kept.
* `Entries.length_eq_ncard`: the entries are as many as the classes of their keys.
* `Entries.IsMapOf`: all of this together.
* `Entries.equal_iff_get?`: two maps are equal exactly if they bind the same keys to equal values.
* **`Entries.ofFlat_finiteMap`**: the maps that programs make.

The key that is looked up may be any value, also one that holds a `nan`: such a value equals no key
of these maps (`Value.Keyed.comparable`).
-/

namespace SmallLisp

namespace Value

/-! ## Values of which the maps have distinct keys -/

/-- The keys of the maps in the value are distinct. Every value that a program can hold is such a
value. -/
inductive Keyed : Value → Prop
  /-- A value that is no collection. -/
  | leaf {value : Value} {leaf : Leaf} : value.leaf? = some leaf → Keyed value
  /-- A sequence of such items. -/
  | sequence {value : Value} {items : List Value} : value.sequence? = some items →
      (∀ item ∈ items, Keyed item) → Keyed value
  /-- A map with distinct keys. -/
  | map {entries : Entries} : Entries.Distinct entries →
      (∀ entry ∈ entries, Keyed entry.1) → (∀ entry ∈ entries, Keyed entry.2) →
      Keyed (.map entries)

theorem Keyed.items {value : Value} {items : List Value} (h : Keyed value)
    (hitems : value.sequence? = some items) : ∀ item ∈ items, Keyed item := by
  cases h with
  | leaf hleaf => cases value <;> cases hleaf <;> cases hitems
  | sequence hitems' h =>
    rw [hitems] at hitems'
    cases hitems'
    exact h
  | map => cases hitems

theorem Keyed.entries {entries : Entries} (h : Keyed (.map entries)) :
    entries.Distinct ∧ Entries.Within Keyed entries := by
  cases h with
  | leaf hleaf => cases hleaf
  | sequence hitems _ => cases hitems
  | map hd hkeys hvalues =>
    exact ⟨hd, fun entry hentry => ⟨hkeys entry hentry, hvalues entry hentry⟩⟩

theorem Comparable.keyed {value : Value} (h : Comparable value) : Keyed value := by
  induction h with
  | leaf hleaf _ => exact .leaf hleaf
  | sequence hitems _ ih => exact .sequence hitems ih
  | map hd _ _ ihkeys ihvalues => exact .map hd ihkeys ihvalues

/-- A number without a place equals nothing. -/
theorem equal_of_place_none {a b : Value} (ha : a.leaf? = some (.place none)) :
    a.equal b = false := by
  cases a with
  | number m =>
    have hlevel : m.level? = none := Leaf.place.inj (Option.some.inj ha)
    cases b with
    | number n => simp [equal, Number.equal, hlevel]
    | _ => rfl
  | _ => cases ha

/-- A value that equals some value is comparable: a `nan` in it would equal nothing. -/
theorem Keyed.comparable {a b : Value} (ha : Keyed a) (h : a.equal b = true) : Comparable a := by
  induction ha generalizing b with
  | @leaf a leaf hleaf =>
    refine .leaf hleaf ?_
    rintro rfl
    rw [equal_of_place_none hleaf] at h
    cases h
  | sequence hitems _ ih =>
    obtain ⟨bs, -, hforall⟩ := (equal_sequence hitems).1 h
    refine .sequence hitems fun item hitem => ?_
    obtain ⟨other, -, hequal⟩ := exists_of_forall₂ hforall hitem
    exact ih item hitem hequal
  | @map as hd _ _ ihkeys ihvalues =>
    obtain ⟨bs, rfl, -, hwithin⟩ := equal_map.1 h
    have hfound : ∀ entry ∈ as, ∃ other : Value × Value,
        entry.1.equal other.1 = true ∧ entry.2.equal other.2 = true := by
      intro entry hentry
      obtain ⟨other, hfind, hvalue⟩ := entriesWithin_iff.1 hwithin entry hentry
      have hkey := List.find?_some hfind
      exact ⟨other, hkey, hvalue⟩
    refine .map hd ?_ ?_
    · intro entry hentry
      obtain ⟨other, hkey, -⟩ := hfound entry hentry
      exact ihkeys entry hentry hkey
    · intro entry hentry
      obtain ⟨other, -, hvalue⟩ := hfound entry hentry
      exact ihvalues entry hentry hvalue

end Value

namespace Entries

open Value (Keyed Comparable equivOn_comparable)

/-! ## Looking up a key -/

theorem get?_cons (entry : Value × Value) (entries : Entries) (key : Value) :
    get? (entry :: entries) key = if key.equal entry.1 then some entry.2 else get? entries key := by
  unfold get?
  rw [List.find?_cons]
  cases key.equal entry.1 <;> rfl

theorem contains_eq_isSome (entries : Entries) (key : Value) :
    contains entries key = (get? entries key).isSome := by
  rw [Bool.eq_iff_iff, contains, get?, List.any_eq_true, Option.isSome_map, List.find?_isSome]

/-- A key that is not comparable is found nowhere. -/
theorem find?_of_not_comparable (row : List (Value × Value)) {key : Value} (hkey : Keyed key)
    (hnot : ¬Comparable key) : (row.find? fun pair => key.equal pair.1) = none := by
  rw [List.find?_eq_none]
  exact fun pair _ hequal => hnot (hkey.comparable hequal)

/-- After a pair has been added, a key that equals that of the pair has its value, and every other
key the one it had. -/
theorem get?_insert {entries : Entries} (hentries : Within Comparable entries)
    {key value other : Value} (hkey : Comparable key) (hother : Comparable other) :
    get? (insert entries key value) other =
      if other.equal key then some value else get? entries other := by
  induction entries with
  | nil => exact get?_cons (key, value) [] other
  | cons first entries ih =>
    obtain ⟨⟨hfirst, -⟩, hentries⟩ := List.forall_mem_cons.1 hentries
    by_cases hequal : key.equal first.1 = true
    · have hsame : other.equal first.1 = other.equal key := by
        rw [Bool.eq_iff_iff]
        constructor
        · exact fun h => equivOn_comparable.trans hother hfirst hkey h
            (equivOn_comparable.symm hkey hfirst hequal)
        · exact fun h => equivOn_comparable.trans hother hkey hfirst h hequal
      rw [insert, if_pos hequal, get?_cons, get?_cons, hsame]
      cases other.equal key <;> rfl
    · rw [insert, if_neg hequal, get?_cons, get?_cons, ih hentries]
      by_cases hbefore : other.equal first.1 = true
      · have hnot : other.equal key = false := by
          by_contra hcontra
          rw [Bool.not_eq_false] at hcontra
          exact hequal (equivOn_comparable.trans hkey hother hfirst
            (equivOn_comparable.symm hother hkey hcontra) hbefore)
        rw [if_pos hbefore, if_pos hbefore, hnot]
        rfl
      · rw [if_neg hbefore, if_neg hbefore]

theorem ofPairs_append_singleton (pairs : List (Value × Value)) (pair : Value × Value) :
    ofPairs (pairs ++ [pair]) = insert (ofPairs pairs) pair.1 pair.2 := by
  unfold ofPairs
  rw [List.foldl_append]
  rfl

/-- The value under a key is the one that came last with an equal key. -/
theorem get?_ofPairs {pairs : List (Value × Value)} (hpairs : Within Comparable pairs)
    {key : Value} (hkey : Keyed key) :
    get? (ofPairs pairs) key = (pairs.reverse.find? fun pair => key.equal pair.1).map (·.2) := by
  by_cases hcomparable : Comparable key
  · induction pairs using List.reverseRecOn with
    | nil => rfl
    | append_singleton pairs pair ih =>
      have hbefore : Within Comparable pairs := fun entry hentry =>
        hpairs entry (List.mem_append_left _ hentry)
      have hpair := (hpairs pair (by simp)).1
      rw [ofPairs_append_singleton, get?_insert (within_ofPairs hbefore) hpair hcomparable,
        ih hbefore, List.reverse_append, List.reverse_singleton, List.singleton_append,
        List.find?_cons]
      cases key.equal pair.1 <;> rfl
  · rw [get?, find?_of_not_comparable _ hkey hcomparable,
      find?_of_not_comparable _ hkey hcomparable]

/-! ## Which keys are kept -/

/-- A pair adds its key at the end, unless an equal key is there. -/
theorem map_fst_insert (entries : Entries) (key value : Value) :
    (insert entries key value).map (·.1) =
      entries.map (·.1) ++ if contains entries key then [] else [key] := by
  induction entries with
  | nil => rfl
  | cons first entries ih =>
    rw [insert]
    by_cases hequal : key.equal first.1 = true
    · have hcontains : contains (first :: entries) key = true := by simp [contains, hequal]
      rw [if_pos hequal, hcontains]
      simp
    · have hcontains : contains (first :: entries) key = contains entries key := by
        simp [contains, hequal]
      rw [if_neg hequal, hcontains, List.map_cons, ih]
      rfl

/-- The key of an entry is the first of its class. -/
theorem first_of_mem_ofPairs {pairs : List (Value × Value)} (hpairs : Within Comparable pairs)
    {entry : Value × Value} (hentry : entry ∈ ofPairs pairs) :
    ∃ before value after, pairs = before ++ (entry.1, value) :: after ∧
      ∀ pair ∈ before, entry.1.equal pair.1 = false := by
  induction pairs using List.reverseRecOn generalizing entry with
  | nil => cases hentry
  | append_singleton pairs pair ih =>
    have hbefore : Within Comparable pairs := fun entry hentry =>
      hpairs entry (List.mem_append_left _ hentry)
    have hpair := (hpairs pair (by simp)).1
    rw [ofPairs_append_singleton] at hentry
    have hkey : entry.1 ∈ (insert (ofPairs pairs) pair.1 pair.2).map (·.1) :=
      List.mem_map_of_mem hentry
    rw [map_fst_insert, List.mem_append] at hkey
    rcases hkey with hkey | hkey
    · obtain ⟨old, hold, heq⟩ := List.mem_map.1 hkey
      obtain ⟨before, value, after, hsplit, hfirst⟩ := ih hbefore hold
      rw [heq] at hsplit hfirst
      exact ⟨before, value, after ++ [pair], by simp [hsplit], hfirst⟩
    · -- the pair is the first with its key: the map before it does not contain that key
      split at hkey
      · cases hkey
      · rename_i hcontains
        rw [List.mem_singleton.1 hkey]
        refine ⟨pairs, pair.2, [], rfl, fun earlier hearlier => ?_⟩
        by_contra hequal
        rw [Bool.not_eq_false] at hequal
        apply hcontains
        rw [contains_eq_isSome, get?_ofPairs hbefore hpair.keyed, Option.isSome_map,
          List.find?_isSome]
        exact ⟨earlier, List.mem_reverse.2 hearlier, hequal⟩

/-! ## Classes of keys -/

/-- The comparable values that equal a key. -/
def keyClass (key : Value) : Set Value :=
  {other | Comparable other ∧ key.equal other = true}

theorem keyClass_eq_iff {a b : Value} (ha : Comparable a) (hb : Comparable b) :
    keyClass a = keyClass b ↔ a.equal b = true := by
  constructor
  · intro h
    have hmem : b ∈ keyClass a := h ▸ ⟨hb, hb.equal_self⟩
    exact hmem.2
  · intro h
    ext other
    refine and_congr_right fun hother => ⟨fun hequal => ?_, fun hequal => ?_⟩
    · exact equivOn_comparable.trans hb ha hother (equivOn_comparable.symm ha hb h) hequal
    · exact equivOn_comparable.trans ha hb hother h hequal

/-- The classes of the keys of pairs. -/
def keyClasses (pairs : List (Value × Value)) : Set (Set Value) :=
  {c | ∃ pair ∈ pairs, c = keyClass pair.1}

theorem keyClasses_finite (pairs : List (Value × Value)) : (keyClasses pairs).Finite := by
  refine (List.finite_toSet (pairs.map fun pair => keyClass pair.1)).subset ?_
  rintro c ⟨pair, hpair, rfl⟩
  exact List.mem_map.2 ⟨pair, hpair, rfl⟩

/-- A map with distinct keys has as many entries as its keys have classes. -/
theorem length_eq_ncard {entries : Entries} (hd : Distinct entries)
    (hentries : Within Comparable entries) : entries.length = (keyClasses entries).ncard := by
  classical
  have hnodup : (entries.map fun entry => keyClass entry.1).Nodup := by
    rw [List.Nodup, List.pairwise_map]
    refine hd.imp_of_mem fun {earlier later} hearlier hlater hne heq => ?_
    have hequal := (keyClass_eq_iff (hentries later hlater).1 (hentries earlier hearlier).1).1
      heq.symm
    rw [hne] at hequal
    cases hequal
  have hset : keyClasses entries = ((entries.map fun entry => keyClass entry.1).toFinset :
      Set (Set Value)) := by
    ext c
    simp [keyClasses, eq_comm]
  rw [hset, Set.ncard_coe_finset, List.toFinset_card_of_nodup hnodup, List.length_map]

/-- A map keeps the classes of the keys that it is made out of. -/
theorem keyClasses_ofPairs {pairs : List (Value × Value)} (hpairs : Within Comparable pairs) :
    keyClasses (ofPairs pairs) = keyClasses pairs := by
  have hentries := within_ofPairs hpairs
  ext c
  constructor
  · rintro ⟨entry, hentry, rfl⟩
    obtain ⟨before, value, after, hsplit, -⟩ := first_of_mem_ofPairs hpairs hentry
    exact ⟨(entry.1, value), by simp [hsplit], rfl⟩
  · rintro ⟨pair, hpair, rfl⟩
    have hkey := (hpairs pair hpair).1
    have hcontains : contains (ofPairs pairs) pair.1 = true := by
      rw [contains_eq_isSome, get?_ofPairs hpairs hkey.keyed, Option.isSome_map, List.find?_isSome]
      exact ⟨pair, List.mem_reverse.2 hpair, hkey.equal_self⟩
    obtain ⟨entry, hentry, hequal⟩ := List.any_eq_true.1 hcontains
    exact ⟨entry, hentry, (keyClass_eq_iff hkey (hentries entry hentry).1).2 hequal⟩

/-- The entries of a map under a key are one at most. -/
theorem filter_eq_of_contains {entries : Entries} (hd : Distinct entries)
    (hentries : Within Comparable entries) {key : Value} (hkey : Comparable key)
    (hcontains : contains entries key = true) :
    ∃ entry, entries.filter (fun entry => key.equal entry.1) = [entry] := by
  obtain ⟨entry, hentry, hequal⟩ := List.any_eq_true.1 hcontains
  refine ⟨entry, ?_⟩
  have hmem : entry ∈ entries.filter fun entry => key.equal entry.1 :=
    List.mem_filter.2 ⟨hentry, hequal⟩
  have hall : ∀ other ∈ entries.filter (fun entry => key.equal entry.1), other = entry := by
    intro other hother
    obtain ⟨hother, hequal'⟩ := List.mem_filter.1 hother
    exact hd.eq_of_equal equivOn_comparable hentries hkey hother hentry hequal' hequal
  have hdistinct : Distinct (entries.filter fun entry => key.equal entry.1) := hd.filter _
  cases hfilter : entries.filter fun entry => key.equal entry.1 with
  | nil =>
    rw [hfilter] at hmem
    cases hmem
  | cons first rest =>
    rw [hfilter] at hall hdistinct
    rw [List.forall_mem_cons] at hall
    cases rest with
    | nil => rw [hall.1]
    | cons second rest =>
      -- a second entry would be the first one over again
      have hne := (List.pairwise_cons.1 hdistinct).1 second List.mem_cons_self
      rw [hall.1, hall.2 second List.mem_cons_self, (hentries entry hentry).1.equal_self] at hne
      cases hne

/-- The entries are the finite map that the pairs stand for. -/
structure IsMapOf (entries : Entries) (pairs : List (Value × Value)) : Prop where
  /-- A key is there if it equals one of the pairs. -/
  contains : ∀ key, Keyed key →
    (entries.contains key = true ↔ ∃ pair ∈ pairs, key.equal pair.1 = true)
  /-- Its value is that of the last such pair. -/
  get : ∀ key, Keyed key → ∀ otherwise, (entries.get? key).getD otherwise =
    ((pairs.reverse.find? fun pair => key.equal pair.1).map (·.2)).getD otherwise
  /-- Each pair has exactly one entry with an equal key. -/
  once : ∀ pair ∈ pairs, ∃ entry, entries.filter (fun entry => pair.1.equal entry.1) = [entry]
  /-- The key of an entry is that of a pair, and no earlier pair has an equal one. -/
  first : ∀ entry ∈ entries, ∃ before value after, pairs = before ++ (entry.1, value) :: after ∧
    ∀ pair ∈ before, entry.1.equal pair.1 = false
  /-- There are as many entries as the keys of the pairs have classes. -/
  length : entries.length = (keyClasses pairs).ncard

/-- Pairs of comparable keys and values make a comparable map. -/
theorem comparable_ofPairs {pairs : List (Value × Value)} (hpairs : Within Comparable pairs) :
    Comparable (.map (ofPairs pairs)) := by
  have hentries := within_ofPairs hpairs
  exact .map (distinct_ofPairs pairs) (fun entry hentry => (hentries entry hentry).1)
    fun entry hentry => (hentries entry hentry).2

/-- Pairs of comparable keys and values make the finite map that they stand for. -/
theorem isMapOf_ofPairs {pairs : List (Value × Value)} (hpairs : Within Comparable pairs) :
    IsMapOf (ofPairs pairs) pairs := by
  have hentries := within_ofPairs hpairs
  have hd := distinct_ofPairs pairs
  have hcontains : ∀ key, Keyed key →
      ((ofPairs pairs).contains key = true ↔ ∃ pair ∈ pairs, key.equal pair.1 = true) := by
    intro key hkey
    rw [contains_eq_isSome, get?_ofPairs hpairs hkey, Option.isSome_map, List.find?_isSome]
    simp only [List.mem_reverse]
  refine ⟨hcontains, ?_, ?_, fun _ => first_of_mem_ofPairs hpairs, ?_⟩
  · intro key hkey otherwise
    rw [get?_ofPairs hpairs hkey]
  · intro pair hpair
    have hkey := (hpairs pair hpair).1
    refine filter_eq_of_contains hd hentries hkey ((hcontains pair.1 hkey.keyed).2 ?_)
    exact ⟨pair, hpair, hkey.equal_self⟩
  · rw [length_eq_ncard hd hentries, keyClasses_ofPairs hpairs]

/-! ## Equality of maps -/

/-- The values under a key are equal, or neither map has the key. -/
def AgreeAt (as bs : Entries) (key : Value) : Prop :=
  Option.Rel (fun a b => a.equal b = true) (get? as key) (get? bs key)

theorem isSome_eq_of_rel {r : Value → Value → Prop} {a b : Option Value} (h : Option.Rel r a b) :
    a.isSome = b.isSome := by
  cases h <;> rfl

/-- What a map has under a key, an equal map has under it, up to equality. -/
theorem exists_get?_of_equal {as bs : Entries} (has : Comparable (.map as))
    (hbs : Comparable (.map bs)) (h : (Value.map as).equal (.map bs) = true) {key value : Value}
    (hkey : Comparable key) (hget : get? as key = some value) :
    ∃ value', get? bs key = some value' ∧ value.equal value' = true := by
  obtain ⟨a, hfind, rfl⟩ := Option.map_eq_some_iff.1 hget
  have ha := List.mem_of_find?_eq_some hfind
  have hakey := List.find?_some hfind
  obtain ⟨bs', heq, -, hwithin⟩ := Value.equal_map.1 h
  cases heq
  obtain ⟨b, hfind', hvalue⟩ := Value.entriesWithin_iff.1 hwithin a ha
  have hb := List.mem_of_find?_eq_some hfind'
  have hbkey := List.find?_some hfind'
  have hkeyb : key.equal b.1 = true :=
    equivOn_comparable.trans hkey (has.entries.2 a ha).1 (hbs.entries.2 b hb).1 hakey hbkey
  cases hfind'' : bs.find? fun entry => key.equal entry.1 with
  | none => exact absurd hkeyb (List.find?_eq_none.1 hfind'' b hb)
  | some b' =>
    have hkeyb' := List.find?_some hfind''
    have hsame : b' = b := hbs.entries.1.eq_of_equal equivOn_comparable hbs.entries.2 hkey
      (List.mem_of_find?_eq_some hfind'') hb hkeyb' hkeyb
    refine ⟨b.2, ?_, hvalue⟩
    rw [get?, hfind'', hsame]
    rfl

/-- If a map has all keys of another one, it has all classes of them. -/
theorem keyClasses_subset {as bs : Entries} (has : Within Comparable as)
    (hbs : Within Comparable bs) (h : ∀ a ∈ as, contains bs a.1 = true) :
    keyClasses as ⊆ keyClasses bs := by
  rintro c ⟨a, ha, rfl⟩
  obtain ⟨b, hb, hequal⟩ := List.any_eq_true.1 (h a ha)
  exact ⟨b, hb, (keyClass_eq_iff (has a ha).1 (hbs b hb).1).2 hequal⟩

/-- Maps that have the same keys have equally many entries. -/
theorem length_eq_of_contains {as bs : Entries} (has : Comparable (.map as))
    (hbs : Comparable (.map bs)) (h : ∀ key, Comparable key → contains as key = contains bs key) :
    as.length = bs.length := by
  have hself : ∀ {entries : Entries}, Comparable (.map entries) →
      ∀ entry ∈ entries, contains entries entry.1 = true := by
    intro entries hentries entry hentry
    exact List.any_eq_true.2 ⟨entry, hentry, (hentries.entries.2 entry hentry).1.equal_self⟩
  have hclasses : keyClasses as = keyClasses bs := by
    apply Set.Subset.antisymm
    · refine keyClasses_subset has.entries.2 hbs.entries.2 fun a ha => ?_
      rw [← h a.1 (has.entries.2 a ha).1]
      exact hself has a ha
    · refine keyClasses_subset hbs.entries.2 has.entries.2 fun b hb => ?_
      rw [h b.1 (hbs.entries.2 b hb).1]
      exact hself hbs b hb
  rw [length_eq_ncard has.entries.1 has.entries.2, hclasses,
    ← length_eq_ncard hbs.entries.1 hbs.entries.2]

/-- Two maps are equal exactly if they have the same keys with equal values. -/
theorem equal_iff_agreeAt {as bs : Entries} (has : Comparable (.map as))
    (hbs : Comparable (.map bs)) :
    (Value.map as).equal (.map bs) = true ↔ ∀ key, Keyed key → AgreeAt as bs key := by
  constructor
  · intro h key hkey
    have hsymm := equivOn_comparable.symm has hbs h
    unfold AgreeAt
    by_cases hcomparable : Comparable key
    · cases hget : get? as key with
      | some value =>
        obtain ⟨value', hget', hequal⟩ := exists_get?_of_equal has hbs h hcomparable hget
        rw [hget']
        exact .some hequal
      | none =>
        cases hget' : get? bs key with
        | none => exact .none
        | some value' =>
          obtain ⟨value, hsome, -⟩ := exists_get?_of_equal hbs has hsymm hcomparable hget'
          rw [hget] at hsome
          cases hsome
    · rw [get?, get?, find?_of_not_comparable as hkey hcomparable,
        find?_of_not_comparable bs hkey hcomparable]
      exact .none
  · intro h
    have hcontains : ∀ key, Comparable key → contains as key = contains bs key := by
      intro key hkey
      rw [contains_eq_isSome, contains_eq_isSome]
      exact isSome_eq_of_rel (h key hkey.keyed)
    refine Value.equal_map.2 ⟨bs, rfl, length_eq_of_contains has hbs hcontains, ?_⟩
    rw [Value.entriesWithin_iff]
    intro a ha
    have hkey := (has.entries.2 a ha).1
    have hget : get? as a.1 = some a.2 := by
      rw [get?, Value.find?_key has ha hkey.equal_self]
      rfl
    have hagree := h a.1 hkey.keyed
    rw [AgreeAt, hget] at hagree
    cases hget' : get? bs a.1 with
    | none =>
      rw [hget'] at hagree
      cases hagree
    | some value' =>
      rw [hget'] at hagree
      obtain ⟨b, hfind, rfl⟩ := Option.map_eq_some_iff.1 hget'
      cases hagree with
      | some hequal => exact ⟨b, hfind, hequal⟩

/-- Keys are distinct in any order. -/
theorem Distinct.perm {pairs pairs' : List (Value × Value)} (hd : Distinct pairs)
    (hpairs : Within Comparable pairs) (hperm : pairs'.Perm pairs) : Distinct pairs' := by
  let Apart (x y : Value × Value) : Prop :=
    Comparable x.1 ∧ Comparable y.1 ∧ y.1.equal x.1 = false
  have hapart : pairs.Pairwise Apart := hd.imp_of_mem fun hx hy hne =>
    ⟨(hpairs _ hx).1, (hpairs _ hy).1, hne⟩
  have hsymm : ∀ {x y}, Apart x y → Apart y x := by
    rintro x y ⟨hx, hy, hne⟩
    refine ⟨hy, hx, ?_⟩
    by_contra hequal
    rw [Bool.not_eq_false] at hequal
    rw [equivOn_comparable.symm hx hy hequal] at hne
    cases hne
  exact ((hperm.pairwise_iff hsymm).2 hapart).imp fun h => h.2.2

/-- The order of pairs with distinct keys does not matter. -/
theorem equal_of_perm {pairs pairs' : List (Value × Value)} (hpairs : Within Comparable pairs)
    (hd : Distinct pairs) (hperm : pairs'.Perm pairs) :
    (Value.map (ofPairs pairs)).equal (.map (ofPairs pairs')) = true := by
  have hpairs' : Within Comparable pairs' := fun pair hpair => hpairs pair (hperm.mem_iff.1 hpair)
  have hd' : Distinct pairs' := hd.perm hpairs hperm
  rw [Value.equal_perm (comparable_ofPairs hpairs) (comparable_ofPairs hpairs'),
    ofPairs_of_distinct hd, ofPairs_of_distinct hd']
  refine ⟨pairs, hperm.symm, List.forall₂_same.2 fun pair hpair => ?_⟩
  have hpair' := hpairs pair hpair
  exact ⟨hpair', hpair', hpair'.1.equal_self, hpair'.2.equal_self⟩

end Entries

/-! ## Hashes -/

namespace Value

open Entries (keyClasses keyClasses_finite keyClasses_subset length_eq_ncard)

/-- Of a map that equals another one, the other one has no key or value that is not comparable:
there is no room for it. -/
theorem comparable_of_entriesWithin {as bs : Entries} (has : Comparable (.map as))
    (hd : Entries.Distinct bs) (hlength : as.length = bs.length)
    (hfound : ∀ a ∈ as, ∃ b, bs.find? (fun entry => a.1.equal entry.1) = some b ∧
      Comparable b.1 ∧ Comparable b.2) : Entries.Within Comparable bs := by
  classical
  let fit : Value × Value → Bool := fun entry => decide (Comparable entry.1 ∧ Comparable entry.2)
  have hfit : Entries.Within Comparable (bs.filter fit) := fun entry hentry =>
    of_decide_eq_true (List.mem_filter.1 hentry).2
  have hsubset : keyClasses as ⊆ keyClasses (bs.filter fit) := by
    refine keyClasses_subset has.entries.2 hfit fun a ha => ?_
    obtain ⟨b, hfind, hb⟩ := hfound a ha
    have hkey := List.find?_some hfind
    refine List.any_eq_true.2 ⟨b, List.mem_filter.2 ⟨List.mem_of_find?_eq_some hfind, ?_⟩, hkey⟩
    exact decide_eq_true hb
  have hle : bs.length ≤ (bs.filter fit).length := by
    calc bs.length = as.length := hlength.symm
      _ = (keyClasses as).ncard := length_eq_ncard has.entries.1 has.entries.2
      _ ≤ (keyClasses (bs.filter fit)).ncard := Set.ncard_le_ncard hsubset (keyClasses_finite _)
      _ = (bs.filter fit).length := (length_eq_ncard (hd.filter _) hfit).symm
  have hall : bs.filter fit = bs := List.filter_sublist.eq_of_length_le hle
  rw [← hall]
  exact hfit

/-- A value that some value equals is comparable as well. -/
theorem Keyed.comparable_right {a b : Value} (ha : Keyed a) (hb : Keyed b)
    (h : a.equal b = true) : Comparable b := by
  have hcomparable := ha.comparable h
  clear ha
  induction hcomparable generalizing b with
  | leaf hleaf hplace => exact .leaf ((equal_leaf hleaf hplace).1 h) hplace
  | sequence hitems _ ih =>
    obtain ⟨bs, hitems', hforall⟩ := (equal_sequence hitems).1 h
    refine .sequence hitems' fun item hitem => ?_
    obtain ⟨other, hother, hequal⟩ := exists_of_forall₂ hforall.flip hitem
    exact ih other hother (hb.items hitems' item hitem) hequal
  | @map as hd hkeys hvalues ihkeys ihvalues =>
    obtain ⟨bs, rfl, hlength, hwithin⟩ := equal_map.1 h
    obtain ⟨hd', hkeyed⟩ := hb.entries
    have hbs : Entries.Within Comparable bs := by
      refine comparable_of_entriesWithin (.map hd hkeys hvalues) hd' hlength fun a ha => ?_
      obtain ⟨b, hfind, hvalue⟩ := entriesWithin_iff.1 hwithin a ha
      have hkey := List.find?_some hfind
      have hb := hkeyed b (List.mem_of_find?_eq_some hfind)
      exact ⟨b, hfind, ihkeys a ha hb.1 hkey, ihvalues a ha hb.2 hvalue⟩
    exact .map hd' (fun entry hentry => (hbs entry hentry).1) fun entry hentry =>
      (hbs entry hentry).2

end Value

open Value (Keyed Comparable)

/-- Looking only among the entries that are filed like a key finds the same entry as looking among
all. -/
theorem Entries.find?_keyDigest {hasher : Hasher} (hsound : hasher.Sound) {entries : Entries}
    (hentries : Within Comparable entries) {key : Value} (hkey : Keyed key) :
    entries.find? (fun entry =>
        key.keyDigest hasher == entry.1.keyDigest hasher && key.equal entry.1) =
      entries.find? fun entry => key.equal entry.1 := by
  induction entries with
  | nil => rfl
  | cons entry entries ih =>
    obtain ⟨hentry, hentries⟩ := List.forall_mem_cons.1 hentries
    rw [List.find?_cons, List.find?_cons, ih hentries]
    cases hequal : key.equal entry.1 with
    | false => rw [Bool.and_false]
    | true =>
      have hdigest := Value.keyDigest_eq_of_equal hsound (hkey.comparable hequal) hentry.1 hequal
      rw [hdigest, beq_self_eq_true, Bool.and_true]

/-- **A map is a finite map up to equality.** Let two rows of keys and values in alternation hold no
`nan`. Each makes a map, and that map is the finite map of its pairs: it has one entry for each
class of equal keys, under the first key of the class and with the last value. The two maps are
equal exactly if they have the same keys with equal values, so the order of pairs with distinct keys
does not matter. And for every sound hasher equal values have one digest, so that a key can be
looked up among the entries that are filed like it. -/
theorem Entries.ofFlat_finiteMap (flat flat' : List Value)
    (heven : flat.length % 2 = 0) (heven' : flat'.length % 2 = 0)
    (hflat : ∀ value ∈ flat, Comparable value) (hflat' : ∀ value ∈ flat', Comparable value) :
    ∃ pairs, ∃ entries : Entries, ∃ pairs', ∃ entries' : Entries,
      pairUp? flat = some pairs ∧ pairUp? flat' = some pairs' ∧
      Collection.hashMap flat = .ok (.map entries) ∧
      Collection.hashMap flat' = .ok (.map entries') ∧
      IsMapOf entries pairs ∧ IsMapOf entries' pairs' ∧
      ((Value.map entries).equal (.map entries') = true ↔
        ∀ key, Keyed key → AgreeAt entries entries' key) ∧
      (Distinct pairs → pairs'.Perm pairs →
        (Value.map entries).equal (.map entries') = true) ∧
      ∀ hasher : Hasher, hasher.Sound →
        (∀ a b, Keyed a → Keyed b → a.equal b = true → a.digest hasher = b.digest hasher) ∧
        ∀ key, Keyed key →
          entries.find? (fun entry =>
              key.keyDigest hasher == entry.1.keyDigest hasher && key.equal entry.1) =
            entries.find? fun entry => key.equal entry.1 := by
  have hpaired : ∀ {flat : List Value}, flat.length % 2 = 0 → ∃ pairs, pairUp? flat = some pairs :=
    fun heven => Option.isSome_iff_exists.1 ((pairUp?_isSome_iff _).2 heven)
  obtain ⟨pairs, hpairs⟩ := hpaired heven
  obtain ⟨pairs', hpairs'⟩ := hpaired heven'
  have hwithin := within_pairUp? hpairs hflat
  have hwithin' := within_pairUp? hpairs' hflat'
  have hmade : ∀ {flat : List Value} {pairs : List (Value × Value)}, pairUp? flat = some pairs →
      Collection.hashMap flat = .ok (.map (ofPairs pairs)) := by
    intro flat pairs h
    simp [Collection.hashMap, ofFlat?, h]
  refine ⟨pairs, ofPairs pairs, pairs', ofPairs pairs', hpairs, hpairs', hmade hpairs,
    hmade hpairs', isMapOf_ofPairs hwithin, isMapOf_ofPairs hwithin', ?_, ?_, ?_⟩
  · exact equal_iff_agreeAt (comparable_ofPairs hwithin) (comparable_ofPairs hwithin')
  · exact fun hd hperm => equal_of_perm hwithin hd hperm
  · intro hasher hsound
    refine ⟨fun a b ha hb hequal => ?_, fun key hkey => ?_⟩
    · exact Value.digest_eq_of_equal hsound (ha.comparable hequal) (ha.comparable_right hb hequal)
        hequal
    · exact find?_keyDigest hsound (within_ofPairs hwithin) hkey

/-- A list and a vector, and a whole number and a binary64 number, are one key; `true` is another.
Of the first key the later value is kept, and the order of the two keys does not matter. -/
theorem Entries.ofFlat_finiteMap_mixed :
    let one : Value := .list [.int 1]
    let one' : Value := .vector [.float (.ofInt 1)]
    let flat : List Value := [one, .nil, .bool true, .int 2, one', .int 3]
    let flat' : List Value := [.bool true, .int 2, one', .int 3]
    (∀ value ∈ flat, Comparable value) ∧ (∀ value ∈ flat', Comparable value) ∧
      ∃ entries entries' : Entries,
        Collection.hashMap flat = .ok (.map entries) ∧
        Collection.hashMap flat' = .ok (.map entries') ∧
        (entries.get? one').getD .nil = .int 3 ∧
        ∀ key, Keyed key → AgreeAt entries entries' key := by
  intro one one' flat flat'
  have hnil : Comparable .nil := .leaf rfl Value.Leaf.noConfusion
  have htrue : Comparable (.bool true) := .leaf rfl Value.Leaf.noConfusion
  have hone : Comparable one := .sequence rfl (by simpa using Comparable.int 1)
  have hone' : Comparable one' := .sequence rfl (by simpa using Comparable.ofInt 1)
  have hflat : ∀ value ∈ flat, Comparable value := by
    simpa [flat] using ⟨hone, hnil, htrue, .int 2, hone', .int 3⟩
  have hflat' : ∀ value ∈ flat', Comparable value := by
    simpa [flat'] using ⟨htrue, .int 2, hone', .int 3⟩
  refine ⟨hflat, hflat', ?_⟩
  obtain ⟨pairs, entries, pairs', entries', hpairs, -, hmade, hmade', hmap, -, hequal, -, -⟩ :=
    Entries.ofFlat_finiteMap flat flat' (by decide) (by decide) hflat hflat'
  refine ⟨entries, entries', hmade, hmade', ?_, ?_⟩
  · rw [hmap.get one' hone'.keyed]
    cases hpairs
    simp [hone'.equal_self]
  · have hcomputed : (match Collection.hashMap flat, Collection.hashMap flat' with
        | .ok map, .ok map' => map.equal map'
        | _, _ => false) = true := by
      decide +kernel
    rw [hmade, hmade'] at hcomputed
    exact hequal.1 hcomputed

end SmallLisp
