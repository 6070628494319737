import SmallLisp.Proofs.Equality
import SmallLisp.Proofs.NumberText

/-!
# Forms that a text can denote

* `Value.Readable`: what the forms of texts are made of. A leaf is what some atom denotes, or a
  string, and a map has distinct keys.
* `Value.numbers`: the numbers in a form, in keys as well as in values.
* `Value.reread`: what a form becomes on its way through a text. Everything stays as it is, but a
  number that is written with an exponent, or that is infinite, becomes a symbol, and the keys of a
  map may then fall together.
* `Value.Same`: two values are the same but for the order of the entries in their maps.

A form whose numbers are all plain stays as it is (`Readable.reread_eq`). Of a form with another
number, something is lost that equality sees: equal values have equally many numbers
(`length_numbers_of_equal`), and rereading leaves at most the plain ones
(`length_numbers_reread_le`). That keys may fall together only takes more numbers away.
-/

namespace SmallLisp

/-- The number is whole, or finite and written without an exponent. -/
def Number.Plain : Number → Prop
  | .int _ => True
  | .float x => x.Plain

instance : DecidablePred Number.Plain
  | .int _ => inferInstanceAs (Decidable True)
  | .float x => inferInstanceAs (Decidable x.Plain)

namespace Value

/-- The value is one that a text can denote. -/
inductive Readable : Value → Prop
  /-- What an atom denotes. -/
  | atom {text : String} {value : Value} : text.toList ≠ [] →
      (∀ c ∈ text.toList, Lexer.isAtomChar c = true) → Atom.read text = .ok value → Readable value
  /-- A string. -/
  | str (text : String) : Readable (.str text)
  /-- A list of such values. -/
  | list {items : List Value} : (∀ item ∈ items, Readable item) → Readable (.list items)
  /-- A vector of such values. -/
  | vector {items : List Value} : (∀ item ∈ items, Readable item) → Readable (.vector items)
  /-- A map with distinct keys. -/
  | map {entries : Entries} : entries.Distinct → (∀ entry ∈ entries, Readable entry.1) →
      (∀ entry ∈ entries, Readable entry.2) → Readable (.map entries)

mutual

/-- The numbers in a form, from left to right. -/
def numbers : Value → List Number
  | .number n => [n]
  | .list items => numbersAll items
  | .vector items => numbersAll items
  | .map entries => numbersEntries entries
  | _ => []

/-- The numbers in several forms. -/
def numbersAll : List Value → List Number
  | [] => []
  | item :: items => item.numbers ++ numbersAll items

/-- The numbers in the keys and values of a map. -/
def numbersEntries : Entries → List Number
  | [] => []
  | (key, value) :: entries => key.numbers ++ value.numbers ++ numbersEntries entries

end

mutual

/-- The form that is read when the form has been printed. -/
def reread : Value → Value
  | .number (.float x) => if x.Plain then .number (.float x) else .symbol x.text
  | .list items => .list (rereadAll items)
  | .vector items => .vector (rereadAll items)
  | .map entries => .map (Entries.ofPairs (rereadEntries entries))
  | value => value

/-- The forms that are read when the forms have been printed. -/
def rereadAll : List Value → List Value
  | [] => []
  | item :: items => item.reread :: rereadAll items

/-- The pairs that are read when the entries of a map have been printed. -/
def rereadEntries : Entries → List (Value × Value)
  | [] => []
  | (key, value) :: entries => (key.reread, value.reread) :: rereadEntries entries

end

/-- The values are the same but for the order of the entries in their maps. -/
inductive Same : Value → Value → Prop
  /-- A value that is no collection is the same as itself only. -/
  | leaf {value : Value} : value.leaf?.isSome → Same value value
  /-- Two lists with the same items in the same order. -/
  | list {as bs : List Value} : as.length = bs.length →
      (∀ pair ∈ as.zip bs, Same pair.1 pair.2) → Same (.list as) (.list bs)
  /-- Two vectors with the same items in the same order. -/
  | vector {as bs : List Value} : as.length = bs.length →
      (∀ pair ∈ as.zip bs, Same pair.1 pair.2) → Same (.vector as) (.vector bs)
  /-- Two maps of which the second, in some order, has the same keys and values as the first. -/
  | map {as bs order : Entries} : order.Perm bs → as.length = order.length →
      (∀ pair ∈ as.zip order, Same pair.1.1 pair.2.1) →
      (∀ pair ∈ as.zip order, Same pair.1.2 pair.2.2) → Same (.map as) (.map bs)

theorem numbersAll_eq (items : List Value) : numbersAll items = items.flatMap numbers := by
  induction items with
  | nil => rfl
  | cons item items ih => rw [numbersAll, ih, List.flatMap_cons]

theorem numbersEntries_eq (entries : Entries) :
    numbersEntries entries = entries.flatMap fun entry => entry.1.numbers ++ entry.2.numbers := by
  induction entries with
  | nil => rfl
  | cons entry entries ih =>
    obtain ⟨key, value⟩ := entry
    rw [numbersEntries, ih, List.flatMap_cons]

theorem mem_numbersAll {items : List Value} {item : Value} {n : Number} (hitem : item ∈ items)
    (hn : n ∈ item.numbers) : n ∈ numbersAll items := by
  rw [numbersAll_eq]
  exact List.mem_flatMap.2 ⟨item, hitem, hn⟩

theorem mem_numbersEntries {entries : Entries} {entry : Value × Value} {n : Number}
    (hentry : entry ∈ entries) (hn : n ∈ entry.1.numbers ∨ n ∈ entry.2.numbers) :
    n ∈ numbersEntries entries := by
  rw [numbersEntries_eq]
  exact List.mem_flatMap.2 ⟨entry, hentry, List.mem_append.2 hn⟩

/-! ## Readable values -/

/-- A leaf that an atom denotes is not `nan`. -/
theorem comparable_of_read {text : String} {value : Value} (h : Atom.read text = .ok value) :
    Comparable value := by
  rcases Atom.read_cases h with ⟨n, rfl, hnumber⟩ | ⟨rfl, -⟩ | ⟨b, rfl, -⟩ | ⟨name, rfl, -⟩ | rfl
  · rcases Atom.readNumber?_spec hnumber with ⟨i, rfl, -⟩ | ⟨x, rfl, hnan⟩
    · exact .int i
    · exact .float hnan
  all_goals exact .leaf rfl Leaf.noConfusion

theorem Readable.comparable {value : Value} (h : Readable value) : Comparable value := by
  induction h with
  | atom _ _ hread => exact comparable_of_read hread
  | str text => exact .leaf rfl Leaf.noConfusion
  | list _ ih | vector _ ih => exact .sequence rfl ih
  | map hd _ _ ihkeys ihvalues => exact .map hd ihkeys ihvalues

theorem rereadAll_eq_self {items : List Value} (h : ∀ item ∈ items, item.reread = item) :
    rereadAll items = items := by
  induction items with
  | nil => rfl
  | cons item items ih =>
    rw [List.forall_mem_cons] at h
    rw [rereadAll, h.1, ih h.2]

theorem rereadEntries_eq_self {entries : Entries}
    (h : ∀ entry ∈ entries, entry.1.reread = entry.1 ∧ entry.2.reread = entry.2) :
    rereadEntries entries = entries := by
  induction entries with
  | nil => rfl
  | cons entry entries ih =>
    obtain ⟨key, value⟩ := entry
    rw [List.forall_mem_cons] at h
    rw [rereadEntries, h.1.1, h.1.2, ih h.2]

/-- A form whose numbers are all plain is read as it was printed. -/
theorem Readable.reread_eq {value : Value} (h : Readable value)
    (hplain : ∀ n ∈ value.numbers, n.Plain) : value.reread = value := by
  induction h with
  | atom _ _ hread =>
    rcases Atom.read_cases hread with ⟨n, rfl, -⟩ | ⟨rfl, -⟩ | ⟨b, rfl, -⟩ | ⟨name, rfl, -⟩ | rfl
    · cases n with
      | int n => rfl
      | float x => exact if_pos (hplain (.float x) List.mem_cons_self)
    all_goals rfl
  | str text => rfl
  | list _ ih =>
    have hitems := rereadAll_eq_self fun item hitem =>
      ih item hitem fun n hn => hplain n (mem_numbersAll hitem hn)
    rw [reread, hitems]
  | vector _ ih =>
    have hitems := rereadAll_eq_self fun item hitem =>
      ih item hitem fun n hn => hplain n (mem_numbersAll hitem hn)
    rw [reread, hitems]
  | map hd _ _ ihkeys ihvalues =>
    have hentries := rereadEntries_eq_self fun entry hentry =>
      ⟨ihkeys entry hentry fun n hn => hplain n (mem_numbersEntries hentry (.inl hn)),
        ihvalues entry hentry fun n hn => hplain n (mem_numbersEntries hentry (.inr hn))⟩
    rw [reread, hentries, Entries.ofPairs_of_distinct hd]

/-! ## Counting numbers -/

/-- A pair that is added brings at most its own numbers. -/
theorem length_numbersEntries_insert_le (entries : Entries) (key value : Value) :
    (numbersEntries (entries.insert key value)).length ≤
      (numbersEntries entries).length + (key.numbers ++ value.numbers).length := by
  induction entries with
  | nil => simp [Entries.insert, numbersEntries]
  | cons entry entries ih =>
    obtain ⟨key', value'⟩ := entry
    unfold Entries.insert
    split
    · simp only [numbersEntries, List.length_append]
      omega
    · simp only [numbersEntries, List.length_append] at ih ⊢
      omega

/-- A map has at most the numbers of the pairs that it is made out of. -/
theorem length_numbersEntries_ofPairs_le (pairs : List (Value × Value)) :
    (numbersEntries (Entries.ofPairs pairs)).length ≤ (numbersEntries pairs).length := by
  suffices hfold : ∀ entries : Entries,
      (numbersEntries (pairs.foldl (fun entries pair => entries.insert pair.1 pair.2)
        entries)).length ≤ (numbersEntries entries).length + (numbersEntries pairs).length by
    have hempty := hfold []
    rw [numbersEntries, List.length_nil, Nat.zero_add] at hempty
    exact hempty
  induction pairs with
  | nil => exact fun entries => Nat.le_refl _
  | cons pair pairs ih =>
    intro entries
    obtain ⟨key, value⟩ := pair
    have hinsert := length_numbersEntries_insert_le entries key value
    have hrest := ih (entries.insert key value)
    rw [List.foldl_cons]
    simp only [numbersEntries, List.length_append] at hinsert hrest ⊢
    omega

mutual

/-- Rereading leaves at most the plain numbers. -/
theorem length_numbers_reread_le : ∀ value : Value,
    value.reread.numbers.length ≤ value.numbers.countP (·.Plain)
  | .number (.int n) => by
    show 1 ≤ 1
    exact Nat.le_refl 1
  | .number (.float x) => by
    by_cases hplain : x.Plain
    · have hcount : numbers (.number (.float x)) = [.float x] := rfl
      rw [reread, if_pos hplain, hcount, List.countP_singleton]
      simp [Number.Plain, hplain]
    · rw [reread, if_neg hplain]
      exact Nat.zero_le _
  | .list items => by
    rw [reread, numbers, numbers]
    exact length_numbersAll_reread_le items
  | .vector items => by
    rw [reread, numbers, numbers]
    exact length_numbersAll_reread_le items
  | .map entries => by
    rw [reread, numbers, numbers]
    exact Nat.le_trans (length_numbersEntries_ofPairs_le _)
      (length_numbersEntries_reread_le entries)
  | .nil | .bool _ | .str _ | .symbol _ | .keyword _ | .function .. | .host .. | .transformer ..
  | .environment _ => Nat.zero_le _

theorem length_numbersAll_reread_le : ∀ items : List Value,
    (numbersAll (rereadAll items)).length ≤ (numbersAll items).countP (·.Plain)
  | [] => Nat.zero_le _
  | item :: items => by
    rw [rereadAll, numbersAll, numbersAll, List.length_append, List.countP_append]
    exact Nat.add_le_add (length_numbers_reread_le item) (length_numbersAll_reread_le items)

theorem length_numbersEntries_reread_le : ∀ entries : Entries,
    (numbersEntries (rereadEntries entries)).length ≤ (numbersEntries entries).countP (·.Plain)
  | [] => Nat.zero_le _
  | (key, value) :: entries => by
    rw [rereadEntries, numbersEntries, numbersEntries, List.length_append, List.length_append,
      List.countP_append, List.countP_append]
    exact Nat.add_le_add (Nat.add_le_add (length_numbers_reread_le key)
      (length_numbers_reread_le value)) (length_numbersEntries_reread_le entries)

end

/-- A number that is not plain is lost. -/
theorem length_numbers_reread_lt {value : Value} (h : ∃ n ∈ value.numbers, ¬ n.Plain) :
    value.reread.numbers.length < value.numbers.length := by
  have hle := length_numbers_reread_le value
  have hcount : value.numbers.countP (·.Plain) < value.numbers.length := by
    obtain ⟨n, hn, hplain⟩ := h
    apply Nat.lt_of_le_of_ne List.countP_le_length
    intro heq
    exact hplain (of_decide_eq_true (List.countP_eq_length.1 heq n hn))
  omega

/-! ## Equal values have equally many numbers -/

theorem length_flatMap_of_forall₂ {α : Type} {f : α → List Number} {as bs : List α}
    (h : List.Forall₂ (fun a b => (f a).length = (f b).length) as bs) :
    (as.flatMap f).length = (bs.flatMap f).length := by
  induction h with
  | nil => rfl
  | cons hab _ ih => rw [List.flatMap_cons, List.flatMap_cons, List.length_append,
      List.length_append, hab, ih]

/-- How many numbers equality sees in a leaf. -/
def Leaf.size : Leaf → Nat
  | .place _ => 1
  | _ => 0

theorem length_numbers_leaf {value : Value} {leaf : Leaf} (h : value.leaf? = some leaf) :
    value.numbers.length = leaf.size := by
  cases value <;> cases h <;> rfl

theorem numbers_sequence {value : Value} {items : List Value} (h : value.sequence? = some items) :
    value.numbers = numbersAll items := by
  cases value <;> cases h <;> rfl

/-- **Equal values have equally many numbers.** -/
theorem length_numbers_of_equal {a b : Value} (ha : Comparable a) (hb : Comparable b)
    (h : a.equal b = true) : a.numbers.length = b.numbers.length := by
  induction ha generalizing b with
  | leaf hleaf hplace =>
    have hleaf' := (equal_leaf hleaf hplace).1 h
    rw [length_numbers_leaf hleaf, length_numbers_leaf hleaf']
  | sequence hitems _ ih =>
    obtain ⟨bs, hitems', hequal⟩ := (equal_sequence hitems).1 h
    have hrow := forall₂_of_mem ih (hb.items hitems') hequal
    rw [numbers_sequence hitems, numbers_sequence hitems', numbersAll_eq, numbersAll_eq]
    refine length_flatMap_of_forall₂ (hrow.imp ?_)
    exact fun x y hxy => hxy.1 hxy.2.1 hxy.2.2
  | @map as hd hkeys hvalues ihkeys ihvalues =>
    obtain ⟨bs, rfl, -⟩ := equal_map.1 h
    obtain ⟨order, hperm, hmatches⟩ := (equal_perm (.map hd hkeys hvalues) hb).1 h
    have horder : (order.flatMap fun entry => entry.1.numbers ++ entry.2.numbers).length =
        (bs.flatMap fun entry => entry.1.numbers ++ entry.2.numbers).length :=
      (hperm.flatMap_right _).length_eq
    rw [numbers, numbers, numbersEntries_eq, numbersEntries_eq, ← horder]
    have hrow := (List.forall₂_and_left as order).2
      ⟨fun entry hentry => And.intro (@ihkeys entry hentry) (@ihvalues entry hentry), hmatches⟩
    refine length_flatMap_of_forall₂ (hrow.imp ?_)
    rintro x y ⟨⟨hkey, hvalue⟩, hxy⟩
    rw [List.length_append, List.length_append, hkey hxy.right.1 hxy.keys,
      hvalue hxy.right.2 hxy.values]

/-- A form with a number that is not plain does not equal what it is read as. -/
theorem equal_reread_eq_false {value : Value} (hvalue : Comparable value)
    (hagain : Comparable value.reread) (h : ∃ n ∈ value.numbers, ¬ n.Plain) :
    value.reread.equal value = false ∧ value.equal value.reread = false := by
  have hlt := length_numbers_reread_lt h
  constructor
  · rw [Bool.eq_false_iff]
    intro hequal
    have hlength := length_numbers_of_equal hagain hvalue hequal
    omega
  · rw [Bool.eq_false_iff]
    intro hequal
    have hlength := length_numbers_of_equal hvalue hagain hequal
    omega

/-! ## Sameness -/

mutual

theorem Same.refl : ∀ value : Value, Same value value
  | .list items => .list rfl (sameAll_refl items)
  | .vector items => .vector rfl (sameAll_refl items)
  | .map entries => .map (.refl entries) rfl (fun pair h => (sameEntries_refl entries pair h).1)
      fun pair h => (sameEntries_refl entries pair h).2
  | .nil | .bool _ | .number _ | .str _ | .symbol _ | .keyword _ | .function .. | .host ..
  | .transformer .. | .environment _ => .leaf rfl

theorem sameAll_refl : ∀ items : List Value, ∀ pair ∈ items.zip items, Same pair.1 pair.2
  | [], pair, h => by cases h
  | item :: items, pair, h => by
    rcases List.mem_cons.1 h with rfl | h
    · exact Same.refl item
    · exact sameAll_refl items pair h

theorem sameEntries_refl : ∀ entries : Entries, ∀ pair ∈ entries.zip entries,
    Same pair.1.1 pair.2.1 ∧ Same pair.1.2 pair.2.2
  | [], pair, h => by cases h
  | (key, value) :: entries, pair, h => by
    rcases List.mem_cons.1 h with rfl | h
    · exact ⟨Same.refl key, Same.refl value⟩
    · exact sameEntries_refl entries pair h

end

/-- Values that are the same are equal. -/
theorem Same.equal {a b : Value} (h : Same a b) (ha : Comparable a) (hb : Comparable b) :
    a.equal b = true := by
  induction h with
  | @leaf value hleaf =>
    cases ha with
    | leaf hleaf hplace => exact (equal_leaf hleaf hplace).2 hleaf
    | sequence hitems _ => cases value <;> cases hitems <;> cases hleaf
    | map => cases hleaf
  | list hlength _ ih =>
    refine (equal_sequence rfl).2 ⟨_, rfl, List.forall₂_iff_zip.2 ⟨hlength, ?_⟩⟩
    intro x y hxy
    have hmem := List.of_mem_zip hxy
    exact ih (x, y) hxy (ha.items rfl x hmem.1) (hb.items rfl y hmem.2)
  | vector hlength _ ih =>
    refine (equal_sequence rfl).2 ⟨_, rfl, List.forall₂_iff_zip.2 ⟨hlength, ?_⟩⟩
    intro x y hxy
    have hmem := List.of_mem_zip hxy
    exact ih (x, y) hxy (ha.items rfl x hmem.1) (hb.items rfl y hmem.2)
  | map hperm hlength _ _ ihkeys ihvalues =>
    refine (equal_perm ha hb).2 ⟨_, hperm, List.forall₂_iff_zip.2 ⟨hlength, ?_⟩⟩
    intro x y hxy
    have hmem := List.of_mem_zip hxy
    have hx := ha.entries.2 x hmem.1
    have hy := hb.entries.2 y (hperm.mem_iff.1 hmem.2)
    exact ⟨hx, hy, ihkeys (x, y) hxy hx.1 hy.1, ihvalues (x, y) hxy hx.2 hy.2⟩

end Value

end SmallLisp
