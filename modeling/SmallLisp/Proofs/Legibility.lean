import SmallLisp.Proofs.Numerals
import SmallLisp.Settings

/-!
# Which texts of settings can be read

A setting is a text from outside, and there is no text that it could not be. Without the blanks
around it, a numeral gives its value; the name of a level, in letters of either case, gives that
level; and every other text gives what a missing one gives.

This is so of every text but those that look like a number and are none that can be read
(`Settings.Illegible`): all their characters denote digits, but one of these has no place value, or
there are too many of them. Such a text is taken for a number by its characters, and then the
reading fails (**`Settings.given_unless_illegible`**; `Settings.illegible_superscript` for one text
of either kind). Both settings are read alike, so that a session is started exactly if both texts
are legible and the depth is one that the host can allow (`Settings.configure_ok_iff`).

* `Numeral.Denotes`: what a numeral denotes, by the places of its digits.
* `Settings.GivesLevel`, `Settings.GivesLimit`: what a text says, without a word on how it is read.
* `Settings.looksNumeric_of_name`: no name looks like a number. The two rules for the level never
  compete, so each text gives one level (`Settings.givesLevel_iff`).
-/

namespace SmallLisp

open SmallLisp.Text

/-! ## Numerals -/

namespace Numeral

/-- The characters are the decimal digits of that number, at least one, the highest place first. -/
inductive Denotes : List Char → Nat → Prop
  /-- A single digit. -/
  | digit {c : Char} {d : Nat} : digitValue? c = some d → Denotes [c] d
  /-- A digit in front of others counts as many tens as its place says. -/
  | place {c : Char} {d n : Nat} {cs : List Char} : digitValue? c = some d → Denotes cs n →
      Denotes (c :: cs) (d * Nat.pow 10 cs.length + n)

theorem digitsValue_cons {c : Char} {d : Nat} (hc : digitValue? c = some d) (cs : List Char) :
    digitsValue (c :: cs) = d * Nat.pow 10 cs.length + digitsValue cs := by
  have hsingle : digitsValue [c] = d := by simp [digitsValue, hc]
  rw [← List.singleton_append, digitsValue_append, hsingle]

/-- A row of decimal digits denotes one number. -/
theorem denotes_iff {cs : List Char} {n : Nat} :
    Denotes cs n ↔ Atom.isNumeral cs = true ∧ digitsValue cs = n := by
  constructor
  · intro h
    induction h with
    | digit hc => simp [Atom.isNumeral, isDecimal, digitsValue, hc]
    | place hc _ ih =>
      obtain ⟨hdigits, hvalue⟩ := ih
      rw [Atom.isNumeral_iff] at hdigits
      rw [Atom.isNumeral_iff, digitsValue_cons hc, hvalue]
      exact ⟨⟨by simp, by simpa [isDecimal, hc] using hdigits.2⟩, rfl⟩
  · rintro ⟨hdigits, rfl⟩
    rw [Atom.isNumeral_iff] at hdigits
    obtain ⟨hne, hall⟩ := hdigits
    induction cs with
    | nil => exact absurd rfl hne
    | cons c cs ih =>
      obtain ⟨hc, hcs⟩ := List.forall_mem_cons.1 hall
      obtain ⟨d, hd⟩ := Option.isSome_iff_exists.1 hc
      rw [digitsValue_cons hd]
      -- no digits at all denote nothing, so a single one is where the row ends
      cases cs with
      | nil => simpa [digitsValue] using Denotes.digit hd
      | cons c' cs => exact .place hd (ih (by simp) hcs)

theorem denotes_digitsValue {cs : List Char} (h : Atom.isNumeral cs = true) :
    Denotes cs (digitsValue cs) :=
  denotes_iff.2 ⟨h, rfl⟩

theorem not_denotes {cs : List Char} (h : ¬Atom.isNumeral cs = true) (n : Nat) :
    ¬Denotes cs n :=
  fun hdenotes => h (denotes_iff.1 hdenotes).1

end Numeral

namespace Settings

open SmallLisp.Numeral

/-! ## What a text says -/

/-- The text without the blanks around it; one that is missing has no characters. -/
def stripped (text : Option String) : List Char :=
  trim (text.getD "").toList

/-- The characters give this level of the log. -/
inductive GivesLevel (cs : List Char) : Nat → Prop
  /-- A numeral gives its value. -/
  | numeral {n : Nat} : Denotes cs n → GivesLevel cs n
  /-- A name, in letters of either case, gives its level. -/
  | name {entry : String × Nat} : entry ∈ levelNames → capitals cs = entry.1.toList →
      GivesLevel cs entry.2
  /-- Everything else gives the level that stands for it. -/
  | other : (∀ n, ¬Denotes cs n) → (∀ entry ∈ levelNames, capitals cs ≠ entry.1.toList) →
      GivesLevel cs defaultLevel

/-- The characters give this depth, or none. -/
inductive GivesLimit (cs : List Char) : Option Nat → Prop
  /-- A numeral gives its value. -/
  | numeral {n : Nat} : Denotes cs n → GivesLimit cs (some n)
  /-- Everything else gives none. -/
  | other : (∀ n, ¬Denotes cs n) → GivesLimit cs none

/-- The characters look like a number, but one of them has no place value, or they are more than
any number that is read has. -/
def Illegible (cs : List Char) : Prop :=
  looksNumeric cs = true ∧ ((∃ c ∈ cs, isDecimal c = false) ∨ maxDigits < cs.length)

instance (cs : List Char) : Decidable (Illegible cs) :=
  decidable_of_iff
    (looksNumeric cs = true ∧ (cs.any (!isDecimal ·) = true ∨ maxDigits < cs.length))
    (by simp [Illegible])

theorem looksNumeric_iff {cs : List Char} :
    looksNumeric cs = true ↔ cs ≠ [] ∧ ∀ c ∈ cs, isDigit c = true := by
  simp [looksNumeric]

/-- A numeral looks like a number. -/
theorem looksNumeric_of_isNumeral {cs : List Char} (h : Atom.isNumeral cs = true) :
    looksNumeric cs = true := by
  obtain ⟨hne, hall⟩ := Atom.isNumeral_iff.1 h
  exact looksNumeric_iff.2 ⟨hne, fun c hc => isDigit_of_isDecimal (hall c hc)⟩

/-! ## Names -/

/-- None of the letters `a` to `z` denotes a digit. -/
theorem toUpper_of_isDigit {c : Char} (hc : isDigit c = true) : c.toUpper = c := by
  have hletters : ∀ n ∈ List.range' 97 26, isDigit (Char.ofNat n) = false := by decide
  -- what is left to rule out is that the character is one of the letters
  refine dif_neg fun hletter => ?_
  have hrange : c.toNat ∈ List.range' 97 26 := by
    rw [List.mem_range'_1]
    exact ⟨hletter.1, Nat.lt_succ_of_le hletter.2⟩
  have hplain := hletters c.toNat hrange
  rw [Char.ofNat_toNat, hc] at hplain
  cases hplain

/-- A character that denotes a digit is its own capital form. -/
theorem capital_of_isDigit {c : Char} (hc : isDigit c = true) : capital c = [c] := by
  have hplain : ∀ entry ∈ joinedCapitals, isDigit entry.1 = false := by decide
  have hjoined : joinedCapitals.lookup c = none := by
    rw [List.lookup_eq_none_iff]
    intro entry hentry
    rw [bne_iff_ne]
    rintro rfl
    rw [hplain entry hentry] at hc
    cases hc
  rw [capital, hjoined, Option.getD_none, toUpper_of_isDigit hc]

/-- The name of a level, in letters of either case, does not look like a number. -/
theorem looksNumeric_of_name {cs : List Char} {entry : String × Nat} (hentry : entry ∈ levelNames)
    (hname : capitals cs = entry.1.toList) : looksNumeric cs = false := by
  have hletter : ∀ entry ∈ levelNames, entry.1.toList.head?.any isDigit = false := by decide
  rw [Bool.eq_false_iff]
  intro hdigits
  obtain ⟨hne, hall⟩ := looksNumeric_iff.1 hdigits
  obtain ⟨c, cs, rfl⟩ := List.exists_cons_of_ne_nil hne
  have hc : isDigit c = true := hall c List.mem_cons_self
  have hhead : entry.1.toList.head? = some c := by
    rw [← hname, capitals, List.flatMap_cons, capital_of_isDigit hc]
    rfl
  have hplain := hletter entry hentry
  rw [hhead, Option.any_some, hc] at hplain
  cases hplain

/-- A text has the level of its name. -/
theorem lookup_of_name {cs : List Char} {entry : String × Nat} (hentry : entry ∈ levelNames)
    (hname : capitals cs = entry.1.toList) :
    levelNames.lookup (String.ofList (capitals cs)) = some entry.2 := by
  have hnames : ∀ entry ∈ levelNames, levelNames.lookup entry.1 = some entry.2 := by decide
  rw [hname, String.ofList_toList, hnames entry hentry]

/-- A text that is no name has no level. -/
theorem lookup_of_no_name {cs : List Char}
    (hnames : ∀ entry ∈ levelNames, capitals cs ≠ entry.1.toList) :
    levelNames.lookup (String.ofList (capitals cs)) = none := by
  rw [List.lookup_eq_none_iff]
  intro entry hentry
  rw [bne_iff_ne]
  intro hname
  exact hnames entry hentry (by rw [← hname, String.toList_ofList])

/-! ## What a text says, as it is computed -/

/-- Each text gives one level. -/
theorem givesLevel_iff {cs : List Char} {n : Nat} :
    GivesLevel cs n ↔ n = if Atom.isNumeral cs then digitsValue cs
      else (levelNames.lookup (String.ofList (capitals cs))).getD defaultLevel := by
  constructor
  · intro h
    cases h with
    | numeral hnumeral =>
      obtain ⟨hdigits, rfl⟩ := denotes_iff.1 hnumeral
      rw [if_pos hdigits]
    | name hentry hname =>
      have hdigits : ¬Atom.isNumeral cs = true := fun hdigits => by
        have hlooks := looksNumeric_of_isNumeral hdigits
        rw [looksNumeric_of_name hentry hname] at hlooks
        cases hlooks
      rw [if_neg hdigits, lookup_of_name hentry hname, Option.getD_some]
    | other hnumeral hnames =>
      have hdigits : ¬Atom.isNumeral cs = true := fun hdigits =>
        hnumeral _ (denotes_digitsValue hdigits)
      rw [if_neg hdigits, lookup_of_no_name hnames, Option.getD_none]
  · rintro rfl
    by_cases hdigits : Atom.isNumeral cs = true
    · rw [if_pos hdigits]
      exact .numeral (denotes_digitsValue hdigits)
    · rw [if_neg hdigits]
      by_cases hname : ∃ entry ∈ levelNames, capitals cs = entry.1.toList
      · obtain ⟨entry, hentry, hname⟩ := hname
        rw [lookup_of_name hentry hname, Option.getD_some]
        exact .name hentry hname
      · have hnames : ∀ entry ∈ levelNames, capitals cs ≠ entry.1.toList :=
          fun entry hentry heq => hname ⟨entry, hentry, heq⟩
        rw [lookup_of_no_name hnames, Option.getD_none]
        exact .other (not_denotes hdigits) hnames

/-- Each text gives one depth, or none. -/
theorem givesLimit_iff {cs : List Char} {limit : Option Nat} :
    GivesLimit cs limit ↔
      limit = if Atom.isNumeral cs then some (digitsValue cs) else none := by
  constructor
  · intro h
    cases h with
    | numeral hnumeral =>
      obtain ⟨hdigits, rfl⟩ := denotes_iff.1 hnumeral
      rw [if_pos hdigits]
    | other hnumeral =>
      rw [if_neg fun hdigits => hnumeral _ (denotes_digitsValue hdigits)]
  · rintro rfl
    by_cases hdigits : Atom.isNumeral cs = true
    · rw [if_pos hdigits]
      exact .numeral (denotes_digitsValue hdigits)
    · rw [if_neg hdigits]
      exact .other (not_denotes hdigits)

/-! ## How a text is read -/

/-- A text that is missing or empty has no characters once it is stripped, and any other is
stripped as it is. -/
theorem present?_cases (text : Option String) :
    present? text = none ∧ stripped text = [] ∨
      ∃ cs, present? text = some cs ∧ stripped text = trim cs := by
  cases text with
  | none => exact .inl ⟨rfl, rfl⟩
  | some text =>
    by_cases hempty : text.isEmpty = true
    · rw [String.isEmpty_iff] at hempty
      subst hempty
      exact .inl ⟨rfl, rfl⟩
    · exact .inr ⟨text.toList, if_neg hempty, rfl⟩

/-- A missing text is read as one of blanks is. -/
theorem level_eq (text : Option String) :
    level text =
      if looksNumeric (stripped text) then readNumber (stripped text)
      else .ok ((levelNames.lookup (String.ofList (capitals (stripped text)))).getD
        defaultLevel) := by
  rcases present?_cases text with ⟨hnone, hstripped⟩ | ⟨cs, hsome, hstripped⟩
  · rw [level, hnone, hstripped]
    rfl
  · rw [level, hsome, hstripped]

theorem depthLimit_eq (text : Option String) :
    depthLimit text =
      if looksNumeric (stripped text) then (readNumber (stripped text)).map some
      else .ok none := by
  rcases present?_cases text with ⟨hnone, hstripped⟩ | ⟨cs, hsome, hstripped⟩
  · rw [depthLimit, hnone, hstripped]
    rfl
  · rw [depthLimit, hsome, hstripped]

theorem readNumber_of_illegible {cs : List Char} (h : Illegible cs) :
    readNumber cs = .error .badNumeral := by
  unfold readNumber
  split
  · rename_i hdecimal
    rw [List.all_eq_true] at hdecimal
    rcases h.2 with ⟨c, hc, hplain⟩ | hlong
    · rw [hdecimal c hc] at hplain
      cases hplain
    · rw [readDigits?, if_neg (Nat.not_le.2 hlong)]
  · rfl

/-- A legible text looks like a number only if it is a numeral, and then it is read. -/
theorem readNumber_of_legible {cs : List Char} (h : ¬Illegible cs) :
    looksNumeric cs = Atom.isNumeral cs ∧
      (Atom.isNumeral cs = true → readNumber cs = .ok (digitsValue cs)) := by
  by_cases hlooks : looksNumeric cs = true
  · have hdecimal : ∀ c ∈ cs, isDecimal c = true := by
      intro c hc
      rw [← Bool.not_eq_false]
      exact fun hplain => h ⟨hlooks, .inl ⟨c, hc, hplain⟩⟩
    have hshort : cs.length ≤ maxDigits := Nat.not_lt.1 fun hlong => h ⟨hlooks, .inr hlong⟩
    rw [hlooks, Atom.isNumeral_iff.2 ⟨(looksNumeric_iff.1 hlooks).1, hdecimal⟩]
    refine ⟨rfl, fun _ => ?_⟩
    rw [readNumber, if_pos (List.all_eq_true.2 hdecimal), readDigits?, if_pos hshort]
  · have hdigits : ¬Atom.isNumeral cs = true := fun hdigits =>
      hlooks (looksNumeric_of_isNumeral hdigits)
    rw [Bool.eq_false_iff.2 hlooks, Bool.eq_false_iff.2 hdigits]
    exact ⟨rfl, fun hdigits => absurd hdigits Bool.false_ne_true⟩

theorem level_of_illegible {text : Option String} (h : Illegible (stripped text)) :
    level text = .error .badNumeral := by
  rw [level_eq, if_pos h.1, readNumber_of_illegible h]

theorem depthLimit_of_illegible {text : Option String} (h : Illegible (stripped text)) :
    depthLimit text = .error .badNumeral := by
  rw [depthLimit_eq, if_pos h.1, readNumber_of_illegible h]
  rfl

/-- A legible text is read as the level that it gives. -/
theorem exists_level {text : Option String} (h : ¬Illegible (stripped text)) :
    ∃ n, level text = .ok n ∧ ∀ k, GivesLevel (stripped text) k ↔ k = n := by
  refine ⟨_, ?_, fun k => givesLevel_iff⟩
  obtain ⟨hlooks, hread⟩ := readNumber_of_legible h
  rw [level_eq, hlooks]
  split
  · rename_i hdigits
    exact hread hdigits
  · rfl

/-- A legible text is read as the depth that it gives, or as none. -/
theorem exists_depthLimit {text : Option String} (h : ¬Illegible (stripped text)) :
    ∃ limit, depthLimit text = .ok limit ∧
      ∀ other, GivesLimit (stripped text) other ↔ other = limit := by
  refine ⟨_, ?_, fun other => givesLimit_iff⟩
  obtain ⟨hlooks, hread⟩ := readNumber_of_legible h
  rw [depthLimit_eq, hlooks]
  split
  · rename_i hdigits
    rw [hread hdigits]
    rfl
  · rfl

/-! ## Rows of zeros -/

theorem stripped_zeros (n : Nat) :
    stripped (some (String.ofList (List.replicate n '0'))) = List.replicate n '0' := by
  have hplain : isBlank '0' = false := by decide
  simp [stripped, trim, hplain]

theorem isNumeral_zeros {n : Nat} (hn : n ≠ 0) :
    Atom.isNumeral (List.replicate n '0') = true := by
  have hzero : isDecimal '0' = true := by decide
  simp [Atom.isNumeral, hn, hzero]

/-! ## The statement -/

/-- **A text gives its setting unless it only looks like a number.** Whatever the text of a setting
is, missing or present: if it is legible, then as a level it is read as the one level that it gives,
and as a depth as the one depth that it gives or as none. If it is not, neither reading ends with a
result. -/
theorem given_unless_illegible (text : Option String) :
    (¬Illegible (stripped text) →
      (∃ n, level text = .ok n ∧ ∀ k, GivesLevel (stripped text) k ↔ k = n) ∧
      ∃ limit, depthLimit text = .ok limit ∧
        ∀ other, GivesLimit (stripped text) other ↔ other = limit) ∧
    (Illegible (stripped text) →
      level text = .error .badNumeral ∧ depthLimit text = .error .badNumeral) :=
  ⟨fun h => ⟨exists_level h, exists_depthLimit h⟩,
    fun h => ⟨level_of_illegible h, depthLimit_of_illegible h⟩⟩

/-- The digits of three scripts with blanks around them, and a name in letters of either case, one
of which has lost its dot. -/
theorem given_unless_illegible_scripts :
    let numeral := some "\u3000\u0661\uFF103\n"
    let name := some "\t\u0131nFo "
    (¬Illegible (stripped numeral) ∧ level numeral = .ok 103 ∧
      depthLimit numeral = .ok (some 103)) ∧
    ¬Illegible (stripped name) ∧ level name = .ok 20 ∧ depthLimit name = .ok none := by
  intro numeral name
  have hnumeral : ¬Illegible (stripped numeral) := by decide
  have hname : ¬Illegible (stripped name) := by decide
  obtain ⟨⟨n, hlevel, hgives⟩, limit, hlimit, hgives'⟩ :=
    (given_unless_illegible numeral).1 hnumeral
  obtain rfl := (hgives 103).1 (givesLevel_iff.2 (by decide))
  obtain rfl := (hgives' (some 103)).1 (givesLimit_iff.2 (by decide))
  obtain ⟨⟨n, hlevel', hgives⟩, limit, hlimit', hgives'⟩ := (given_unless_illegible name).1 hname
  obtain rfl := (hgives 20).1 (givesLevel_iff.2 (by decide))
  obtain rfl := (hgives' none).1 (givesLimit_iff.2 (by decide))
  exact ⟨⟨hnumeral, hlevel, hlimit⟩, hname, hlevel', hlimit'⟩

/-- A superscript two is no numeral and no name, so it should give what a missing text gives; a row
of 4301 zeros is a numeral and should give zero. Both look like a number, and neither is read. -/
theorem illegible_superscript :
    let superscript := some "\u00B2"
    let zeros := some (String.ofList (List.replicate 4301 '0'))
    (GivesLevel (stripped superscript) defaultLevel ∧ GivesLimit (stripped superscript) none ∧
      level superscript = .error .badNumeral ∧ depthLimit superscript = .error .badNumeral) ∧
    GivesLevel (stripped zeros) 0 ∧ GivesLimit (stripped zeros) (some 0) ∧
      level zeros = .error .badNumeral ∧ depthLimit zeros = .error .badNumeral := by
  intro superscript zeros
  have hsuperscript : Illegible (stripped superscript) := by decide
  have hstripped : stripped zeros = List.replicate 4301 '0' := stripped_zeros 4301
  have hdigits : Atom.isNumeral (stripped zeros) = true := by
    rw [hstripped]
    exact isNumeral_zeros (by decide)
  have hnumeral : Denotes (stripped zeros) 0 := by
    refine denotes_iff.2 ⟨hdigits, ?_⟩
    rw [hstripped, digitsValue_zeros]
  have hzeros : Illegible (stripped zeros) := by
    refine ⟨looksNumeric_of_isNumeral hdigits, .inr ?_⟩
    rw [hstripped, List.length_replicate]
    decide
  exact ⟨⟨givesLevel_iff.2 (by decide), givesLimit_iff.2 (by decide),
      level_of_illegible hsuperscript, depthLimit_of_illegible hsuperscript⟩,
    .numeral hnumeral, .numeral hnumeral, level_of_illegible hzeros, depthLimit_of_illegible hzeros⟩

/-! ## Applying both -/

/-- Once both texts are read, only the depth can still stand in the way. -/
theorem configure_of_read {levelText limitText : Option String} {n : Nat} {limit : Option Nat}
    (hlevel : level levelText = .ok n) (hlimit : depthLimit limitText = .ok limit) (host : Host) :
    configure levelText limitText host =
      if host.limit < limit.getD 0 then
        if greatestLimit < limit.getD 0 then .error .limitTooLarge ⟨n, host.limit⟩
        else .ok () ⟨n, limit.getD 0⟩
      else .ok () ⟨n, host.limit⟩ := by
  rw [configure, hlevel, hlimit]
  cases limit with
  | none => rfl
  | some limit =>
    show (if host.limit < limit then _ else _ : EStateM SettingError Host Unit) _ = _
    rw [Option.getD_some]
    split
    · show (if greatestLimit < limit then _ else _ : EStateM SettingError Host Unit) _ = _
      split <;> rfl
    · rfl

/-- Settings are applied exactly if both texts are legible and the depth, if there is one, is one
that the host allows already or can allow. Then the level is the one given, and the depth is never
lowered. -/
theorem configure_ok_iff (levelText limitText : Option String) (host host' : Host) :
    configure levelText limitText host = .ok () host' ↔
      ¬Illegible (stripped levelText) ∧ ¬Illegible (stripped limitText) ∧
        ∃ n limit, GivesLevel (stripped levelText) n ∧ GivesLimit (stripped limitText) limit ∧
          (limit.getD 0 ≤ host.limit ∨ limit.getD 0 ≤ greatestLimit) ∧
          host' = ⟨n, max host.limit (limit.getD 0)⟩ := by
  by_cases hlevelText : Illegible (stripped levelText)
  · rw [configure, level_of_illegible hlevelText]
    exact iff_of_false nofun fun h => h.1 hlevelText
  obtain ⟨n, hlevel, hgivesLevel⟩ := exists_level hlevelText
  by_cases hlimitText : Illegible (stripped limitText)
  · rw [configure, hlevel, depthLimit_of_illegible hlimitText]
    exact iff_of_false nofun fun h => h.2.1 hlimitText
  obtain ⟨limit, hlimit, hgivesLimit⟩ := exists_depthLimit hlimitText
  rw [configure_of_read hlevel hlimit]
  simp only [hlevelText, hlimitText, not_false_eq_true, true_and, hgivesLevel, hgivesLimit,
    exists_eq_left, exists_and_left]
  by_cases hraise : host.limit < limit.getD 0
  · rw [if_pos hraise, Nat.max_eq_right (Nat.le_of_lt hraise)]
    by_cases hlarge : greatestLimit < limit.getD 0
    · simp [hlarge, Nat.not_le.2 hraise, Nat.not_le.2 hlarge]
    · simp [hlarge, Nat.not_lt.1 hlarge, eq_comm]
  · have hle : limit.getD 0 ≤ host.limit := Nat.not_lt.1 hraise
    rw [if_neg hraise, Nat.max_eq_left hle]
    simp [hle, eq_comm]

end Settings

end SmallLisp
