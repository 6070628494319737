import SmallLisp.Proofs.CoupledEvaluation
import SmallLisp.Proofs.Equality
import SmallLisp.Proofs.Printing
import SmallLisp.Proofs.Region

/-!
# Runs that differ in the numbers they hand out

A machine numbers its frames and its callables. A program cannot see these numbers: it can only ask
whether two callables, or two scopes, are the same one. So two runs in which the numbers are
different ones, but are matched one to one, are the same run to the program. What else the two
stores hold, in frames that the program cannot get at, does not matter at all.

* `Matching`: numbers of the one run matched with numbers of the other. New numbers are matched in
  the order in which they are handed out.
* `Value.Alike`: values that are the same up to matched numbers.
* `Correspondence.Twins`: machines whose matched frames hold such values.
* `Correspondence.coupling`: this is a coupling, so evaluation keeps it.
-/

namespace SmallLisp

/-! ## Matchings -/

/-- A relation that matches numbers one to one. From the given sizes on, numbers can only be matched
in order: the first of the one side with the first of the other, and so on. -/
structure Matching where
  /-- From here on the numbers of the one side are new. -/
  size : Nat
  /-- From here on the numbers of the other side are new. -/
  size' : Nat
  /-- The numbers are matched. -/
  Rel : Nat → Nat → Prop
  functional : ∀ {a b b'}, Rel a b → Rel a b' → b = b'
  injective : ∀ {a a' b}, Rel a b → Rel a' b → a = a'
  ahead : ∀ {a b}, Rel a b → size ≤ a ∨ size' ≤ b → a + size' = b + size

namespace Matching

/-- Matches the first new numbers. -/
def grow (μ : Matching) : Matching where
  size := μ.size + 1
  size' := μ.size' + 1
  Rel a b := μ.Rel a b ∨ a = μ.size ∧ b = μ.size'
  functional := by
    rintro a b b' (h | ⟨rfl, rfl⟩) (h' | ⟨h', rfl⟩)
    · exact μ.functional h h'
    · have := μ.ahead h (.inl h'.ge)
      omega
    · have := μ.ahead h' (.inl le_rfl)
      omega
    · rfl
  injective := by
    rintro a a' b (h | ⟨rfl, rfl⟩) (h' | ⟨rfl, h'⟩)
    · exact μ.injective h h'
    · have := μ.ahead h (.inr h'.ge)
      omega
    · have := μ.ahead h' (.inr le_rfl)
      omega
    · rfl
  ahead := by
    rintro a b (h | ⟨rfl, rfl⟩) hnew
    · have := μ.ahead h (by omega)
      omega
    · omega

variable {μ μ₂ μ₃ : Matching}

theorem rel_iff {a a' b b' : Nat} (h : μ.Rel a a') (h' : μ.Rel b b') : a = b ↔ a' = b' := by
  constructor
  · rintro rfl
    exact μ.functional h h'
  · rintro rfl
    exact μ.injective h h'

theorem lt_iff {a b : Nat} (h : μ.Rel a b) : a < μ.size ↔ b < μ.size' := by
  constructor
  · intro ha
    by_contra hb
    have := μ.ahead h (.inr (Nat.not_lt.1 hb))
    omega
  · intro hb
    by_contra ha
    have := μ.ahead h (.inl (Nat.not_lt.1 ha))
    omega

/-- The second matching matches in addition the numbers that were new and are no more, in order. -/
structure Extends (μ₂ μ : Matching) : Prop where
  rel : ∀ {a b}, μ.Rel a b → μ₂.Rel a b
  size_le : μ.size ≤ μ₂.size
  size_eq : μ₂.size + μ.size' = μ₂.size' + μ.size
  old_or_new : ∀ {a b}, μ₂.Rel a b →
    μ.Rel a b ∨ μ.size ≤ a ∧ a < μ₂.size ∧ a + μ.size' = b + μ.size
  new : ∀ {a b}, μ.size ≤ a → a < μ₂.size → a + μ.size' = b + μ.size → μ₂.Rel a b

theorem Extends.refl (μ : Matching) : μ.Extends μ :=
  ⟨id, le_rfl, Nat.add_comm _ _, .inl, fun h h' => absurd h (Nat.not_le.2 h')⟩

theorem Extends.trans (h : μ₃.Extends μ₂) (h' : μ₂.Extends μ) : μ₃.Extends μ := by
  have hsize := h.size_le
  have hsize' := h'.size_le
  have heq := h.size_eq
  have heq' := h'.size_eq
  refine ⟨fun hrel => h.rel (h'.rel hrel), by omega, by omega, ?_, ?_⟩
  · intro a b hrel
    rcases h.old_or_new hrel with hold | ⟨hle, hlt, hab⟩
    · rcases h'.old_or_new hold with hold | ⟨hle, hlt, hab⟩
      · exact .inl hold
      · exact .inr ⟨hle, by omega, hab⟩
    · exact .inr ⟨by omega, hlt, by omega⟩
  · intro a b hle hlt hab
    by_cases hmiddle : a < μ₂.size
    · exact h.rel (h'.new hle hmiddle hab)
    · exact h.new (by omega) hlt (by omega)

theorem extends_grow (μ : Matching) : μ.grow.Extends μ := by
  refine ⟨.inl, Nat.le_succ _, ?_, ?_, ?_⟩
  · show μ.size + 1 + μ.size' = μ.size' + 1 + μ.size
    omega
  · rintro a b (h | ⟨rfl, rfl⟩)
    · exact .inl h
    · exact .inr ⟨le_rfl, Nat.lt_succ_self _, Nat.add_comm _ _⟩
  · intro a b hle hlt hab
    have ha : a = μ.size := Nat.le_antisymm (Nat.le_of_lt_succ hlt) hle
    exact .inr ⟨ha, by omega⟩

/-- Numbers that were not new have been matched before. -/
theorem Extends.old (h : μ₂.Extends μ) {a b : Nat} (hrel : μ₂.Rel a b) (hlt : b < μ.size') :
    μ.Rel a b := by
  rcases h.old_or_new hrel with hold | ⟨hle, -, hab⟩
  · exact hold
  · omega

/-! ### Numbers that match themselves -/

/-- Matches the numbers of a set with themselves. -/
def identity (size : Nat) (S : Set Nat) : Matching where
  size := size
  size' := size
  Rel a b := a = b ∧ a ∈ S
  functional h h' := h.1.symm.trans h'.1
  injective h h' := h.1.trans h'.1.symm
  ahead h _ := congrArg (· + size) h.1

/-- Nothing is matched but a number with itself. -/
structure Diagonal (μ : Matching) : Prop where
  size : μ.size = μ.size'
  rel : ∀ {a b}, μ.Rel a b → a = b

theorem diagonal_identity (size : Nat) (S : Set Nat) : (identity size S).Diagonal :=
  ⟨rfl, fun h => h.1⟩

theorem Diagonal.extends (hμ : μ.Diagonal) (h : μ₂.Extends μ) : μ₂.Diagonal := by
  have hsize := hμ.size
  have hsize' := h.size_eq
  refine ⟨by omega, ?_⟩
  intro a b hrel
  rcases h.old_or_new hrel with hold | ⟨-, -, hab⟩
  · exact hμ.rel hold
  · omega

/-! ### Numbers in between -/

/-- No new numbers are matched. -/
def Bounded (μ : Matching) : Prop :=
  ∀ {a b}, μ.Rel a b → a < μ.size ∧ b < μ.size'

theorem Bounded.extends (hμ : μ.Bounded) (h : μ₂.Extends μ) : μ₂.Bounded := by
  intro a b hrel
  have hsize := h.size_le
  have hsize' := h.size_eq
  rcases h.old_or_new hrel with hold | ⟨-, hlt, hab⟩
  · have := hμ hold
    omega
  · omega

/-- The other side has handed out numbers in between. -/
def advance (μ : Matching) (hμ : μ.Bounded) (size' : Nat) (hle : μ.size' ≤ size') : Matching where
  size := μ.size
  size' := size'
  Rel := μ.Rel
  functional := μ.functional
  injective := μ.injective
  ahead h hnew := by
    have := hμ h
    omega

theorem Bounded.advance (hμ : μ.Bounded) {size' : Nat} (hle : μ.size' ≤ size') :
    (μ.advance hμ size' hle).Bounded :=
  fun h => ⟨(hμ h).1, (hμ h).2.trans_le hle⟩

end Matching

/-- How frames and callables of two runs are matched. -/
structure Correspondence where
  /-- The numbers of frames. -/
  frames : Matching
  /-- The serial numbers of callables. -/
  serials : Matching

namespace Correspondence

instance : Preorder Correspondence where
  le w w₂ := w₂.frames.Extends w.frames ∧ w₂.serials.Extends w.serials
  le_refl w := ⟨.refl _, .refl _⟩
  le_trans _ _ _ h h' := ⟨h'.1.trans h.1, h'.2.trans h.2⟩

/-- Frames and callables are matched with themselves. -/
def identity (size serial : Nat) (S N : Set Nat) : Correspondence where
  frames := .identity size S
  serials := .identity serial N

/-- Whatever the one matches the other matches too. -/
structure Within (w w₂ : Correspondence) : Prop where
  frames : ∀ {a b}, w.frames.Rel a b → w₂.frames.Rel a b
  serials : ∀ {a b}, w.serials.Rel a b → w₂.serials.Rel a b

theorem within_of_le {w w₂ : Correspondence} (h : w ≤ w₂) : w.Within w₂ :=
  ⟨h.1.rel, h.2.rel⟩

theorem Within.trans {w w₂ w₃ : Correspondence} (h : w.Within w₂) (h' : w₂.Within w₃) :
    w.Within w₃ :=
  ⟨fun hrel => h'.frames (h.frames hrel), fun hrel => h'.serials (h.serials hrel)⟩

/-- The other machine has made frames and callables in between. -/
def advance (w : Correspondence) (hframes : w.frames.Bounded) (hserials : w.serials.Bounded)
    {size' serial' : Nat} (hsize : w.frames.size' ≤ size') (hserial : w.serials.size' ≤ serial') :
    Correspondence where
  frames := w.frames.advance hframes size' hsize
  serials := w.serials.advance hserials serial' hserial

theorem within_advance (w : Correspondence) (hframes : w.frames.Bounded)
    (hserials : w.serials.Bounded) {size' serial' : Nat} (hsize : w.frames.size' ≤ size')
    (hserial : w.serials.size' ≤ serial') :
    w.Within (w.advance hframes hserials hsize hserial) :=
  ⟨fun h => h, fun h => h⟩

end Correspondence

/-! ## Values -/

section values

variable (probes : Nat → Nat → Prop)

/-- The values are the same up to matched numbers; the probes in them are those given. -/
inductive Value.Alike (w : Correspondence) : Value → Value → Prop
  | nil : Alike w .nil .nil
  | bool (b : Bool) : Alike w (.bool b) (.bool b)
  | number (n : Number) : Alike w (.number n) (.number n)
  | str (text : String) : Alike w (.str text) (.str text)
  | symbol (name : String) : Alike w (.symbol name) (.symbol name)
  | keyword (name : String) : Alike w (.keyword name) (.keyword name)
  | list {items items' : List Value} : items.length = items'.length →
      (∀ pair ∈ items.zip items', Alike w pair.1 pair.2) → Alike w (.list items) (.list items')
  | vector {items items' : List Value} : items.length = items'.length →
      (∀ pair ∈ items.zip items', Alike w pair.1 pair.2) →
      Alike w (.vector items) (.vector items')
  | map {entries entries' : Entries} : entries.length = entries'.length →
      (∀ pair ∈ entries.zip entries', Alike w pair.1.1 pair.2.1) →
      (∀ pair ∈ entries.zip entries', Alike w pair.1.2 pair.2.2) →
      Alike w (.map entries) (.map entries')
  | function {serial serial' : Nat} {params params' : Value} {body body' : List Value}
      {home home' : FrameId} : w.serials.Rel serial serial' → w.frames.Rel home home' →
      Alike w params params' → body.length = body'.length →
      (∀ pair ∈ body.zip body', Alike w pair.1 pair.2) →
      Alike w (.function serial params body home) (.function serial' params' body' home')
  | host {serial serial' : Nat} {operation : HostOperation} : w.serials.Rel serial serial' →
      (∀ name, operation = .probe name → probes serial serial') →
      Alike w (.host serial operation) (.host serial' operation)
  | transformer {serial serial' : Nat} {target target' : Value} : w.serials.Rel serial serial' →
      Alike w target target' → Alike w (.transformer serial target) (.transformer serial' target')
  | environment {frame frame' : FrameId} : w.frames.Rel frame frame' →
      Alike w (.environment frame) (.environment frame')

end values

namespace Value.Alike

variable {probes : Nat → Nat → Prop} {w w₂ : Correspondence}

theorem forall₂_iff {R : Value → Value → Prop} {items items' : List Value} :
    (items.length = items'.length ∧ ∀ pair ∈ items.zip items', R pair.1 pair.2) ↔
      items.Forall₂ R items' := by
  rw [List.forall₂_iff_zip]
  exact and_congr_right fun _ => Prod.forall

theorem forall₂_entries_iff {R : Value → Value → Prop} {entries entries' : Entries} :
    (entries.length = entries'.length ∧ (∀ pair ∈ entries.zip entries', R pair.1.1 pair.2.1) ∧
      ∀ pair ∈ entries.zip entries', R pair.1.2 pair.2.2) ↔
      entries.Forall₂ (fun entry entry' => R entry.1 entry'.1 ∧ R entry.2 entry'.2) entries' := by
  rw [List.forall₂_iff_zip, ← forall₂_and]
  exact and_congr_right fun _ => ⟨fun h a b => h (a, b), fun h pair => h⟩

/-- More matched numbers make more values alike. -/
theorem mono (hw : w.Within w₂) {a a' : Value} (h : Alike probes w a a') :
    Alike probes w₂ a a' := by
  induction h with
  | nil => exact .nil
  | bool b => exact .bool b
  | number n => exact .number n
  | str text => exact .str text
  | symbol name => exact .symbol name
  | keyword name => exact .keyword name
  | list hlength _ ih => exact .list hlength ih
  | vector hlength _ ih => exact .vector hlength ih
  | map hlength _ _ ihkeys ihvalues => exact .map hlength ihkeys ihvalues
  | function hserial hhome _ hlength _ ihparams ihbody =>
    exact .function (hw.serials hserial) (hw.frames hhome) ihparams hlength ihbody
  | host hserial hprobe => exact .host (hw.serials hserial) hprobe
  | transformer hserial _ ih => exact .transformer (hw.serials hserial) ih
  | environment hframe => exact .environment (hw.frames hframe)

/-! ## What programs see of a value -/

theorem pairs {a a' : Value} (h : Alike probes w a a') : Pairs (Alike probes w) a a' := by
  cases h with
  | nil => exact .nil
  | bool b => exact .bool b
  | number n => exact .number n
  | str text => exact .str text
  | symbol name => exact .symbol name
  | keyword name => exact .keyword name
  | list hlength hitems => exact .list (forall₂_iff.1 ⟨hlength, hitems⟩)
  | vector hlength hitems => exact .vector (forall₂_iff.1 ⟨hlength, hitems⟩)
  | map hlength hkeys hvalues => exact .map (forall₂_entries_iff.1 ⟨hlength, hkeys, hvalues⟩)
  | function => exact .function ..
  | host => exact .host ..
  | transformer => exact .transformer ..
  | environment => exact .environment ..

/-- To related values the two values are equal or not alike. -/
def Equates (R : Value → Value → Prop) (a a' : Value) : Prop :=
  ∀ b b', R b b' → a.equal b = a'.equal b'

theorem equalItems_eq {R : Value → Value → Prop} {as as' : List Value}
    (has : as.Forall₂ (Equates R) as') {bs bs' : List Value} (hbs : bs.Forall₂ R bs') :
    equalItems as bs = equalItems as' bs' := by
  induction has generalizing bs bs' with
  | nil => cases hbs <;> rfl
  | cons ha _ ih =>
    cases hbs with
    | nil => rfl
    | cons hb hbs => rw [equalItems, equalItems, ha _ _ hb, ih hbs]

theorem entriesWithin_eq {R : Value → Value → Prop} {as as' : Entries}
    (has : as.Forall₂ (fun a a' => Equates R a.1 a'.1 ∧ Equates R a.2 a'.2) as')
    {bs bs' : Entries} (hbs : bs.Forall₂ (fun b b' => R b.1 b'.1 ∧ R b.2 b'.2) bs') :
    entriesWithin as bs = entriesWithin as' bs' := by
  induction has with
  | nil => rfl
  | @cons a a' as as' ha _ ih =>
    have hfind : Option.Rel (fun b b' => R b.1 b'.1 ∧ R b.2 b'.2)
        (bs.find? fun entry => a.1.equal entry.1) (bs'.find? fun entry => a'.1.equal entry.1) := by
      clear ih
      induction hbs with
      | nil => exact .none
      | cons hb _ ih =>
        rw [List.find?_cons, List.find?_cons, ha.1 _ _ hb.1]
        split
        · exact .some hb
        · exact ih
    obtain ⟨key, value⟩ := a
    obtain ⟨key', value'⟩ := a'
    rw [entriesWithin, entriesWithin, ih]
    generalize bs.find? _ = found, bs'.find? _ = found' at hfind ⊢
    cases hfind with
    | none => rfl
    | some hfound =>
      have hvalue : value.equal _ = value'.equal _ := ha.2 _ _ hfound.2
      simp only [hvalue]

section equates

variable {R : Value → Value → Prop} (hpairs : ∀ {b b'}, R b b' → Pairs R b b')

include hpairs

theorem equates_list {as as' : List Value} (has : as.Forall₂ (Equates R) as') :
    Equates R (.list as) (.list as') := by
  intro b b' hb
  cases hpairs hb with
  | list hbs | vector hbs => exact equalItems_eq has hbs
  | _ => rfl

theorem equates_vector {as as' : List Value} (has : as.Forall₂ (Equates R) as') :
    Equates R (.vector as) (.vector as') := by
  intro b b' hb
  cases hpairs hb with
  | list hbs | vector hbs => exact equalItems_eq has hbs
  | _ => rfl

theorem equates_map {as as' : Entries}
    (has : as.Forall₂ (fun a a' => Equates R a.1 a'.1 ∧ Equates R a.2 a'.2) as') :
    Equates R (.map as) (.map as') := by
  intro b b' hb
  cases hpairs hb with
  | map hbs => simp only [equal, has.length_eq, hbs.length_eq, entriesWithin_eq has hbs]
  | _ => rfl

end equates

/-- Alike values are equal to alike values: matched numbers are the same if and only if their
counterparts are. -/
theorem equates {a a' : Value} (ha : Alike probes w a a') : Equates (Alike probes w) a a' := by
  induction ha with
  | list hlength _ ih => exact equates_list pairs (forall₂_iff.1 ⟨hlength, ih⟩)
  | vector hlength _ ih => exact equates_vector pairs (forall₂_iff.1 ⟨hlength, ih⟩)
  | map hlength _ _ ihkeys ihvalues =>
    exact equates_map pairs (forall₂_entries_iff.1 ⟨hlength, ihkeys, ihvalues⟩)
  | function hserial | host hserial | transformer hserial | environment hserial =>
    intro b b' hb
    cases hb with
    | function hserial' | host hserial' | transformer hserial' | environment hserial' =>
      first
      | rfl
      | exact decide_eq_decide.2 (Matching.rel_iff hserial hserial')
    | _ => rfl
  | _ =>
    intro b b' hb
    cases hb <;> rfl

theorem likeness (probes : Nat → Nat → Prop) (w : Correspondence) :
    Likeness (Alike probes w) where
  pairs h := h.pairs
  equal ha hb := ha.equates _ _ hb
  nil := .nil
  bool b := .bool b
  number n := .number n
  str text := .str text
  list h := .list (forall₂_iff.2 h).1 (forall₂_iff.2 h).2
  vector h := .vector (forall₂_iff.2 h).1 (forall₂_iff.2 h).2
  map h := .map (forall₂_entries_iff.2 h).1 (forall₂_entries_iff.2 h).2.1
    (forall₂_entries_iff.2 h).2.2

/-- A host finds alike elements in alike values. -/
theorem rel_elements? {a a' : Value} (h : Alike probes w a a') :
    Option.Rel (List.Forall₂ (Alike probes w)) a.elements? a'.elements? := by
  cases h.pairs with
  | list hitems => exact .some hitems
  | vector hitems => exact .some hitems
  | map hentries =>
    refine .some (List.forall₂_map_left_iff.2 (List.forall₂_map_right_iff.2 (hentries.imp ?_)))
    exact fun _ _ hentry => hentry.1
  | str text =>
    refine .some (List.forall₂_same.2 fun item hitem => ?_)
    obtain ⟨c, -, rfl⟩ := List.mem_map.1 hitem
    exact .str _
  | _ => exact .none

/-! ## Texts -/

/-- The texts of matched frames agree. -/
def Texts (w : Correspondence) (scope scope' : Style → FrameId → Printer.Printed) : Prop :=
  ∀ style {id id'}, w.frames.Rel id id' → scope style id = scope' style id'

/-- The values have the same text in every style. -/
def SameText (scope scope' : Style → FrameId → Printer.Printed) (a a' : Value) : Prop :=
  ∀ style, Printer.valueText scope style a = Printer.valueText scope' style a'

section texts

variable {scope scope' : Style → FrameId → Printer.Printed}

theorem itemTexts_eq {items items' : List Value}
    (h : items.Forall₂ (SameText scope scope') items') :
    Printer.itemTexts scope items = Printer.itemTexts scope' items' := by
  induction h with
  | nil => rfl
  | cons h _ ih => rw [Printer.itemTexts, Printer.itemTexts, h, ih]

theorem entryTexts_eq {entries entries' : Entries}
    (h : entries.Forall₂ (fun entry entry' =>
      SameText scope scope' entry.1 entry'.1 ∧ SameText scope scope' entry.2 entry'.2) entries') :
    Printer.entryTexts scope entries = Printer.entryTexts scope' entries' := by
  induction h with
  | nil => rfl
  | @cons entry entry' _ _ h _ ih =>
    obtain ⟨key, value⟩ := entry
    obtain ⟨key', value'⟩ := entry'
    rw [Printer.entryTexts, Printer.entryTexts, h.1, h.2, ih]

theorem sameText_list {items items' : List Value}
    (h : items.Forall₂ (SameText scope scope') items') :
    SameText scope scope' (.list items) (.list items') := by
  intro style
  rw [Printer.valueText, Printer.valueText, itemTexts_eq h]

theorem sameText_vector {items items' : List Value}
    (h : items.Forall₂ (SameText scope scope') items') :
    SameText scope scope' (.vector items) (.vector items') := by
  intro style
  rw [Printer.valueText, Printer.valueText, itemTexts_eq h]

theorem sameText_map {entries entries' : Entries}
    (h : entries.Forall₂ (fun entry entry' =>
      SameText scope scope' entry.1 entry'.1 ∧ SameText scope scope' entry.2 entry'.2) entries') :
    SameText scope scope' (.map entries) (.map entries') := by
  intro style
  rw [Printer.valueText, Printer.valueText, entryTexts_eq h]

/-- Alike values have the same text if matched frames have. -/
theorem sameText (hscope : Texts w scope scope') {a a' : Value} (h : Alike probes w a a') :
    SameText scope scope' a a' := by
  induction h with
  | list hlength _ ih => exact sameText_list (forall₂_iff.1 ⟨hlength, ih⟩)
  | vector hlength _ ih => exact sameText_vector (forall₂_iff.1 ⟨hlength, ih⟩)
  | map hlength _ _ ihkeys ihvalues =>
    exact sameText_map (forall₂_entries_iff.1 ⟨hlength, ihkeys, ihvalues⟩)
  | function _ _ _ _ _ ihparams =>
    intro style
    rw [Printer.valueText, Printer.valueText, ihparams]
  | transformer _ _ ih =>
    intro style
    rw [Printer.valueText, Printer.valueText, ih]
  | environment hframe =>
    intro style
    rw [Printer.valueText, Printer.valueText]
    exact hscope style hframe
  | host =>
    intro style
    cases style <;> rfl
  | _ =>
    intro style
    rfl

end texts

/-! ## Values that are alike to themselves -/

/-- The capability is matched with itself. -/
def SelfMatched (probes : Nat → Nat → Prop) (w : Correspondence) : Value → Prop
  | .function serial _ _ home => w.serials.Rel serial serial ∧ w.frames.Rel home home
  | .host serial operation =>
    w.serials.Rel serial serial ∧ ∀ name, operation = .probe name → probes serial serial
  | .transformer serial _ => w.serials.Rel serial serial
  | .environment frame => w.frames.Rel frame frame
  | _ => True

/-- A value is alike to itself if all its capabilities are matched with themselves. -/
theorem self {value : Value} (h : value.Every (SelfMatched probes w)) :
    Alike probes w value value := by
  induction hsize : sizeOf value using Nat.strongRecOn generalizing value with
  | _ size ih =>
    subst hsize
    have hitems : ∀ {items : List Value}, (∀ item ∈ items, item.Every (SelfMatched probes w)) →
        (∀ item ∈ items, sizeOf item < sizeOf value) →
        items.Forall₂ (Alike probes w) items := fun hevery hlt =>
      List.forall₂_same.2 fun item hitem => ih _ (hlt item hitem) (hevery item hitem) rfl
    cases value with
    | nil => exact .nil
    | bool b => exact .bool b
    | number n => exact .number n
    | str text => exact .str text
    | symbol name => exact .symbol name
    | keyword name => exact .keyword name
    | list items =>
      refine (likeness probes w).list (hitems ((every_list _).1 h) fun item hitem => ?_)
      exact sizeOf_lt_of_sequence? rfl hitem
    | vector items =>
      refine (likeness probes w).vector (hitems ((every_vector _).1 h) fun item hitem => ?_)
      exact sizeOf_lt_of_sequence? rfl hitem
    | map entries =>
      refine (likeness probes w).map (List.forall₂_same.2 fun entry hentry => ?_)
      obtain ⟨hkey, hvalue⟩ := (every_map _).1 h entry hentry
      obtain ⟨hltKey, hltValue⟩ := sizeOf_lt_of_entry hentry
      exact ⟨ih _ hltKey hkey rfl, ih _ hltValue hvalue rfl⟩
    | function serial params body home =>
      obtain ⟨⟨hserial, hhome⟩, hparams, hbody⟩ := every_function.1 h
      have hltParams : sizeOf params < sizeOf (Value.function serial params body home) := by
        rw [Value.function.sizeOf_spec]
        omega
      have hltBody : ∀ form ∈ body,
          sizeOf form < sizeOf (Value.function serial params body home) := by
        intro form hform
        have := List.sizeOf_lt_of_mem hform
        rw [Value.function.sizeOf_spec]
        omega
      obtain ⟨hlength, hforms⟩ := forall₂_iff.2 (hitems hbody hltBody)
      exact .function hserial hhome (ih _ hltParams hparams rfl) hlength hforms
    | host serial operation =>
      obtain ⟨hserial, hprobe⟩ := every_host.1 h
      exact .host hserial hprobe
    | transformer serial target =>
      obtain ⟨hserial, htarget⟩ := every_transformer.1 h
      have hlt : sizeOf target < sizeOf (Value.transformer serial target) := by
        rw [Value.transformer.sizeOf_spec]
        omega
      exact .transformer hserial (ih _ hlt htarget rfl)
    | environment frame => exact .environment (every_environment.1 h)

theorem eq_of_zip {items items' : List Value} (hlength : items.length = items'.length)
    (h : ∀ pair ∈ items.zip items', pair.1 = pair.2) : items = items' := by
  have hforall := forall₂_iff.1 ⟨hlength, h⟩
  rwa [List.forall₂_eq_eq_eq] at hforall

/-- Where nothing is matched but with itself, alike values are the same. -/
theorem eq_of_diagonal (hframes : w.frames.Diagonal) (hserials : w.serials.Diagonal)
    {a a' : Value} (h : Alike probes w a a') : a = a' := by
  induction h with
  | list hlength _ ih => rw [eq_of_zip hlength ih]
  | vector hlength _ ih => rw [eq_of_zip hlength ih]
  | map hlength _ _ ihkeys ihvalues =>
    have hentries := forall₂_entries_iff.1 ⟨hlength, ihkeys, ihvalues⟩
    have heq := hentries.imp fun _ _ hentry => Prod.ext hentry.1 hentry.2
    rw [List.forall₂_eq_eq_eq] at heq
    rw [heq]
  | function hserial hhome _ hlength _ ihparams ihbody =>
    rw [hserials.rel hserial, hframes.rel hhome, ihparams, eq_of_zip hlength ihbody]
  | host hserial => rw [hserials.rel hserial]
  | transformer hserial _ ih => rw [hserials.rel hserial, ih]
  | environment hframe => rw [hframes.rel hframe]
  | _ => rfl

/-- What holds of the right-hand sides of all pairs holds of all items on the right. -/
theorem forall_mem_right {p : Value → Prop} {items items' : List Value}
    (hlength : items.length = items'.length) (h : ∀ pair ∈ items.zip items', p pair.2) :
    ∀ item ∈ items', p item := by
  have hforall : items.Forall₂ (fun _ item => p item) items' := forall₂_iff.1 ⟨hlength, h⟩
  intro item hitem
  obtain ⟨-, -, hp⟩ := exists_of_forall₂ hforall.flip hitem
  exact hp

/-- The frames that an alike value refers to are matched ones. -/
theorem refersTo_right {a a' : Value} (h : Alike probes w a a') :
    a'.Every (RefersTo {id' | ∃ id, w.frames.Rel id id'}) := by
  induction h with
  | list hlength _ ih => exact (every_list _).2 (forall_mem_right hlength ih)
  | vector hlength _ ih => exact (every_vector _).2 (forall_mem_right hlength ih)
  | @map entries entries' hlength _ _ ihkeys ihvalues =>
    refine (every_map _).2 fun entry hentry => ?_
    have hforall : entries.Forall₂ (fun _ entry =>
        entry.1.Every (RefersTo {id' | ∃ id, w.frames.Rel id id'}) ∧
        entry.2.Every (RefersTo {id' | ∃ id, w.frames.Rel id id'})) entries' := by
      rw [List.forall₂_iff_zip]
      exact ⟨hlength, fun hpair => ⟨ihkeys _ hpair, ihvalues _ hpair⟩⟩
    obtain ⟨-, -, hboth⟩ := exists_of_forall₂ hforall.flip hentry
    exact hboth
  | function _ hhome _ hlength _ ihparams ihbody =>
    exact every_function.2 ⟨⟨_, hhome⟩, ihparams, forall_mem_right hlength ihbody⟩
  | host => exact every_host.2 trivial
  | transformer _ _ ih => exact every_transformer.2 ⟨trivial, ih⟩
  | environment hframe => exact every_environment.2 ⟨_, hframe⟩
  | _ => simp

end Value.Alike

end SmallLisp
