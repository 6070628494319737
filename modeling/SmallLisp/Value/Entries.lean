import SmallLisp.Value.Equality

/-!
# Contents of a map

A map is its entries in the order in which their keys first arrived. Keys are compared by
`Value.equal`; when a key arrives again, the entry keeps the key it has and takes the new value.

* `Entries.get?`: the value under a key.
* `Entries.insert`: one more pair.
* `Entries.ofFlat?`: the map written as keys and values in alternation, which must be even in
  number.
-/

namespace SmallLisp.Entries

/-- The value under a key. -/
def get? (entries : Entries) (key : Value) : Option Value :=
  (entries.find? fun entry => key.equal entry.1).map (·.2)

/-- Some key of the map equals the given one. -/
def contains (entries : Entries) (key : Value) : Bool :=
  entries.any fun entry => key.equal entry.1

/-- Adds a pair; a key that is there keeps its place and takes the new value. -/
def insert : Entries → Value → Value → Entries
  | [], key, value => [(key, value)]
  | entry :: entries, key, value =>
    if key.equal entry.1 then (entry.1, value) :: entries else entry :: insert entries key value

/-- The map that the pairs make, taken from left to right. -/
def ofPairs (pairs : List (Value × Value)) : Entries :=
  pairs.foldl (fun entries pair => entries.insert pair.1 pair.2) []

/-- Neighbours taken together, if the number of values is even. -/
def pairUp? : List Value → Option (List (Value × Value))
  | [] => some []
  | [_] => none
  | key :: value :: rest => (pairUp? rest).map ((key, value) :: ·)

/-- The map of keys and values in alternation, if their number is even. -/
def ofFlat? (flat : List Value) : Option Entries :=
  (pairUp? flat).map ofPairs

/-- Pairing up fails exactly on an odd number of values. -/
theorem pairUp?_isSome_iff (flat : List Value) : (pairUp? flat).isSome ↔ flat.length % 2 = 0 := by
  induction flat using pairUp?.induct with
  | case1 => simp [pairUp?]
  | case2 => simp [pairUp?]
  | case3 key value rest ih =>
    simp only [pairUp?, Option.isSome_map, List.length_cons, ih]
    omega

/-! ## What the keys and values of a map have in common -/

/-- All keys and values have `p`. -/
def Within (p : Value → Prop) (entries : Entries) : Prop :=
  ∀ entry ∈ entries, p entry.1 ∧ p entry.2

section within

variable {p : Value → Prop}

theorem Within.insert {entries : Entries} {key value : Value} (h : Within p entries)
    (hkey : p key) (hvalue : p value) : Within p (entries.insert key value) := by
  induction entries with
  | nil => exact List.forall_mem_singleton.2 ⟨hkey, hvalue⟩
  | cons first entries ih =>
    obtain ⟨hfirst, hentries⟩ := List.forall_mem_cons.1 h
    unfold Entries.insert
    split
    · exact List.forall_mem_cons.2 ⟨⟨hfirst.1, hvalue⟩, hentries⟩
    · exact List.forall_mem_cons.2 ⟨hfirst, ih hentries⟩

/-- A map has no keys and values but those of the pairs it is made out of. -/
theorem within_ofPairs {pairs : List (Value × Value)} (h : Within p pairs) :
    Within p (ofPairs pairs) := by
  suffices hfold : ∀ entries : Entries, Within p entries →
      Within p (pairs.foldl (fun entries pair => entries.insert pair.1 pair.2) entries) from
    hfold [] (List.forall_mem_nil _)
  induction pairs with
  | nil => exact fun _ hentries => hentries
  | cons pair pairs ih =>
    obtain ⟨hpair, hpairs⟩ := List.forall_mem_cons.1 h
    exact fun entries hentries => ih hpairs _ (hentries.insert hpair.1 hpair.2)

theorem within_pairUp? {flat : List Value} {pairs : List (Value × Value)}
    (h : pairUp? flat = some pairs) (hflat : ∀ value ∈ flat, p value) : Within p pairs := by
  induction flat using pairUp?.induct generalizing pairs with
  | case1 =>
    cases h
    exact List.forall_mem_nil _
  | case2 => cases h
  | case3 key value rest ih =>
    obtain ⟨more, hmore, rfl⟩ := Option.map_eq_some_iff.1 h
    obtain ⟨hkey, hflat⟩ := List.forall_mem_cons.1 hflat
    obtain ⟨hvalue, hrest⟩ := List.forall_mem_cons.1 hflat
    exact List.forall_mem_cons.2 ⟨⟨hkey, hvalue⟩, ih hmore hrest⟩

theorem within_ofFlat? {flat : List Value} {entries : Entries} (h : ofFlat? flat = some entries)
    (hflat : ∀ value ∈ flat, p value) : Within p entries := by
  obtain ⟨pairs, hpairs, rfl⟩ := Option.map_eq_some_iff.1 h
  exact within_ofPairs (within_pairUp? hpairs hflat)

end within

end SmallLisp.Entries
