import SmallLisp.Proofs.Reading
import SmallLisp.Proofs.Rounding

/-!
# Atoms that are numbers

Which atoms are read as numbers, and as which.

* `Numeral.digitsValue_append`, `Numeral.digitsValue_toDigits`: what digits denote.
* `Atom.readNumber?_numeral`, `Atom.readNumber?_decimal`: digits, and digits with a point between
  them, are numbers. `Atom.readNumber?_eq_none`: nothing with a letter in it is.
* `Atom.readNumber?_spec`: a number that is read is not too large and not `nan`.
* `Atom.read_cases`: what an atom can be, and how it is then written.
-/

namespace SmallLisp

/-! ## Digits -/

namespace Numeral

open SmallLisp.Text

theorem digitValue?_lt {c : Char} {value : Nat} (h : digitValue? c = some value) : value < 10 := by
  obtain ⟨base, -, hbase⟩ := List.exists_of_findSome?_eq_some h
  split at hbase
  · cases hbase
    omega
  · cases hbase

theorem tenPow_succ (n : Nat) : Nat.pow 10 (n + 1) = 10 * Nat.pow 10 n :=
  (Nat.pow_succ 10 n).trans (Nat.mul_comm _ _)

theorem tenPow_add (m n : Nat) : Nat.pow 10 (m + n) = Nat.pow 10 m * Nat.pow 10 n :=
  Nat.pow_add 10 m n

/-- Digits behind others move these up by as many places. -/
theorem digitsValue_append (digits digits' : List Char) :
    digitsValue (digits ++ digits') =
      digitsValue digits * Nat.pow 10 digits'.length + digitsValue digits' := by
  suffices hfold : ∀ start,
      digits'.foldl (fun value c => 10 * value + (digitValue? c).getD 0) start =
        start * Nat.pow 10 digits'.length + digitsValue digits' by
    unfold digitsValue at hfold ⊢
    rw [List.foldl_append, hfold]
  induction digits' with
  | nil => exact fun start => (Nat.mul_one start).symm
  | cons c cs ih =>
    intro start
    have htail : digitsValue (c :: cs) =
        (digitValue? c).getD 0 * Nat.pow 10 cs.length + digitsValue cs := by
      show cs.foldl _ (10 * 0 + (digitValue? c).getD 0) = _
      rw [ih, Nat.mul_zero, Nat.zero_add]
    rw [List.foldl_cons, ih, htail, List.length_cons, tenPow_succ, Nat.add_mul, Nat.add_assoc,
      Nat.mul_comm 10 start, Nat.mul_assoc]

theorem digitsValue_zeros (n : Nat) : digitsValue (List.replicate n '0') = 0 := by
  induction n with
  | zero => rfl
  | succ n ih => rw [List.replicate_succ', digitsValue_append_singleton, ih]; rfl

theorem digitsValue_append_zeros (digits : List Char) (n : Nat) :
    digitsValue (digits ++ List.replicate n '0') = digitsValue digits * Nat.pow 10 n := by
  rw [digitsValue_append, digitsValue_zeros, List.length_replicate, Nat.add_zero]

theorem digitsValue_zeros_append (n : Nat) (digits : List Char) :
    digitsValue (List.replicate n '0' ++ digits) = digitsValue digits := by
  rw [digitsValue_append, digitsValue_zeros, Nat.zero_mul, Nat.zero_add]

/-- The value of digits is less than ten to their number. -/
theorem digitsValue_lt (digits : List Char) : digitsValue digits < Nat.pow 10 digits.length := by
  induction digits with
  | nil => decide
  | cons c cs ih =>
    have hdigit : (digitValue? c).getD 0 < 10 := by
      cases h : digitValue? c with
      | none => decide
      | some value => exact digitValue?_lt h
    have hsplit : digitsValue (c :: cs) =
        (digitValue? c).getD 0 * Nat.pow 10 cs.length + digitsValue cs := by
      have := digitsValue_append [c] cs
      simpa [digitsValue] using this
    have hle : (digitValue? c).getD 0 * Nat.pow 10 cs.length ≤ 9 * Nat.pow 10 cs.length :=
      Nat.mul_le_mul_right _ (by omega)
    rw [hsplit, List.length_cons, tenPow_succ]
    omega

/-- A digit of the decimal text of a number is one of the ten common ones. -/
theorem mem_toDigits {n : Nat} {c : Char} (h : c ∈ Nat.toDigits 10 n) :
    ∃ k < 10, c = Nat.digitChar k := by
  induction n using Nat.strongRecOn with
  | _ n ih =>
    by_cases hn : n < 10
    · rw [Nat.toDigits_of_lt_base hn, List.mem_singleton] at h
      exact ⟨n, hn, h⟩
    · rw [Nat.toDigits_of_base_le (by decide) (Nat.not_lt.1 hn), List.mem_append,
        List.mem_singleton] at h
      rcases h with h | h
      · exact ih (n / 10) (Nat.div_lt_self (by omega) (by decide)) h
      · exact ⟨n % 10, Nat.mod_lt n (by decide), h⟩

/-- What holds of the ten common digits holds of every digit of a decimal text. -/
theorem forall_mem_toDigits {p : Char → Prop} (h : ∀ k < 10, p (Nat.digitChar k)) {n : Nat} :
    ∀ c ∈ Nat.toDigits 10 n, p c := by
  intro c hc
  obtain ⟨k, hk, rfl⟩ := mem_toDigits hc
  exact h k hk

theorem isDecimal_of_mem_toDigits {n : Nat} : ∀ c ∈ Nat.toDigits 10 n, isDecimal c = true :=
  forall_mem_toDigits (by decide)

/-- The digits of a number denote it. -/
theorem digitsValue_toDigits (n : Nat) : digitsValue (Nat.toDigits 10 n) = n := by
  have hdigit : ∀ k < 10, (digitValue? (Nat.digitChar k)).getD 0 = k := by decide
  induction n using Nat.strongRecOn with
  | _ n ih =>
    by_cases hn : n < 10
    · rw [Nat.toDigits_of_lt_base hn]
      simpa [digitsValue] using hdigit n hn
    · rw [Nat.toDigits_of_base_le (by decide) (Nat.not_lt.1 hn), digitsValue_append_singleton,
        ih (n / 10) (Nat.div_lt_self (by omega) (by decide)),
        hdigit (n % 10) (Nat.mod_lt n (by decide))]
      omega

end Numeral

/-! ## Atoms that are numbers -/

namespace Atom

open SmallLisp.Text SmallLisp.Numeral

/-- The characters with a minus sign in front, or without one. -/
def withSign (negative : Bool) (cs : List Char) : List Char :=
  if negative then '-' :: cs else cs

@[simp] theorem withSign_true (cs : List Char) : withSign true cs = '-' :: cs := rfl

@[simp] theorem withSign_false (cs : List Char) : withSign false cs = cs := rfl

theorem mem_withSign (negative : Bool) {cs : List Char} {c : Char} :
    c ∈ withSign negative cs ↔ (negative = true ∧ c = '-') ∨ c ∈ cs := by
  cases negative <;> simp

theorem withoutNewline_eq_self {cs : List Char} (h : '\n' ∉ cs) : withoutNewline cs = cs := by
  unfold withoutNewline
  rw [if_neg]
  intro hlast
  exact h (List.mem_of_getLast? hlast)

theorem splitSign_withSign (negative : Bool) {cs : List Char} (h : cs.head? ≠ some '-') :
    splitSign (withSign negative cs) = (negative, cs) := by
  cases negative with
  | true => rfl
  | false =>
    show splitSign cs = (false, cs)
    unfold splitSign
    split
    · exact absurd rfl h
    · rfl

theorem isNumeral_iff {cs : List Char} :
    isNumeral cs = true ↔ cs ≠ [] ∧ ∀ c ∈ cs, isDecimal c = true := by
  simp [isNumeral]

theorem head?_ne_minus {cs rest : List Char} (h : isNumeral cs = true) :
    (cs ++ rest).head? ≠ some '-' := by
  obtain ⟨hne, hall⟩ := isNumeral_iff.1 h
  obtain ⟨c, cs, rfl⟩ := List.exists_cons_of_ne_nil hne
  intro hhead
  cases hhead
  exact absurd (hall '-' List.mem_cons_self) (by decide)

theorem not_newline_mem_withSign (negative : Bool) {cs : List Char}
    (h : ∀ c ∈ cs, isDecimal c = true ∨ c = '.') : '\n' ∉ withSign negative cs := by
  rw [mem_withSign]
  rintro (⟨-, hminus⟩ | hmem)
  · exact absurd hminus (by decide)
  · exact absurd (h _ hmem) (by decide)

/-- Digits, signed or not, are a whole number unless there are too many of them. -/
theorem readNumber?_numeral (negative : Bool) {digits : List Char}
    (hdigits : isNumeral digits = true) (hshort : digits.length ≤ maxDigits) :
    readNumber? (withSign negative digits) =
      some (.ok (.int (if negative then -(digitsValue digits : Int) else digitsValue digits))) := by
  have hnewline := not_newline_mem_withSign negative
    fun c hc => .inl ((isNumeral_iff.1 hdigits).2 c hc)
  have hhead : (digits ++ []).head? ≠ some '-' := head?_ne_minus hdigits
  rw [List.append_nil] at hhead
  have hread : readDigits? digits = some (digitsValue digits) := if_pos hshort
  unfold readNumber?
  rw [withoutNewline_eq_self hnewline, splitSign_withSign negative hhead]
  simp only [hdigits, hread, if_true]

/-- Digits, a point and digits, signed or not, are a binary64 number. -/
theorem readNumber?_decimal (negative : Bool) {whole fraction : List Char}
    (hwhole : isNumeral whole = true) (hfraction : isNumeral fraction = true) :
    readNumber? (withSign negative (whole ++ '.' :: fraction)) =
      some (.ok (.float
        (.ofRatio negative (digitsValue (whole ++ fraction)) (Nat.pow 10 fraction.length)))) := by
  obtain ⟨hne, hall⟩ := isNumeral_iff.1 hwhole
  obtain ⟨-, hall'⟩ := isNumeral_iff.1 hfraction
  have hpoint : isDecimal '.' = false := by decide
  have hnewline : '\n' ∉ withSign negative (whole ++ '.' :: fraction) := by
    apply not_newline_mem_withSign negative
    intro c hc
    rcases List.mem_append.1 hc with hc | hc
    · exact .inl (hall c hc)
    · rcases List.mem_cons.1 hc with rfl | hc
      · exact .inr rfl
      · exact .inl (hall' c hc)
  have hnumeral : isNumeral (whole ++ '.' :: fraction) = false := by
    simp [isNumeral, hpoint]
  have hsplit : splitPoint? (whole ++ '.' :: fraction) = some (whole, fraction) := by
    unfold splitPoint?
    rw [List.dropWhile_append_of_pos hall, List.takeWhile_append_of_pos hall]
    simp [hpoint, hne, hfraction]
  unfold readNumber?
  rw [withoutNewline_eq_self hnewline, splitSign_withSign negative (head?_ne_minus hwhole)]
  simp only [hnumeral, hsplit]
  rfl

/-- An atom that denotes a number is read as that number. -/
theorem read_of_readNumber? {text : String} {n : Number}
    (h : readNumber? text.toList = some (.ok n)) : read text = .ok (.number n) := by
  have hliteral : ∀ literal ∈ ["nil", "true", "false"], text ≠ literal := by
    rintro literal hliteral rfl
    have hnone : ∀ literal ∈ ["nil", "true", "false"],
        readNumber? (String.toList literal) = none := by decide
    rw [hnone text hliteral] at h
    cases h
  simp only [List.mem_cons, List.not_mem_nil, or_false, forall_eq_or_imp, forall_eq] at hliteral
  unfold read
  rw [if_neg hliteral.1, if_neg hliteral.2.1, if_neg hliteral.2.2, h]
  rfl

/-- A number that is read is not too large, and it is not `nan`. -/
theorem readNumber?_spec {cs : List Char} {n : Number} (h : readNumber? cs = some (.ok n)) :
    (∃ i : Int, n = .int i ∧ i.natAbs < tooLarge) ∨ ∃ x : Binary64, n = .float x ∧ x ≠ .nan := by
  unfold readNumber? at h
  dsimp only at h
  generalize (splitSign (withoutNewline cs)).1 = negative at h
  generalize (splitSign (withoutNewline cs)).2 = size at h
  split at h
  · unfold readDigits? at h
    by_cases hshort : size.length ≤ maxDigits
    · rw [if_pos hshort] at h
      cases h
      refine .inl ⟨_, rfl, ?_⟩
      have hpow : Nat.pow 10 size.length ≤ tooLarge := Nat.pow_le_pow_right (by decide) hshort
      have hvalue := Nat.lt_of_lt_of_le (digitsValue_lt size) hpow
      cases negative with
      | true => simpa using hvalue
      | false => simpa using hvalue
    · rw [if_neg hshort] at h
      cases h
  · obtain ⟨⟨whole, fraction⟩, -, hread⟩ := Option.map_eq_some_iff.1 h
    cases hread
    exact .inr ⟨_, rfl, Binary64.ofRatio_ne_nan _ _ _⟩

/-- What an atom can be, and how it is then written. -/
theorem read_cases {text : String} {value : Value} (h : read text = .ok value) :
    (∃ n, value = .number n ∧ readNumber? text.toList = some (.ok n)) ∨
    (value = .nil ∧ text = "nil") ∨
    (∃ b : Bool, value = .bool b ∧ text = if b then "true" else "false") ∨
    (∃ name, value = .keyword name ∧ text = ":" ++ name) ∨ value = .symbol text := by
  unfold read at h
  split at h
  · cases h
    exact .inr (.inl ⟨rfl, by assumption⟩)
  split at h
  · cases h
    exact .inr (.inr (.inl ⟨true, rfl, by assumption⟩))
  split at h
  · cases h
    exact .inr (.inr (.inl ⟨false, rfl, by assumption⟩))
  split at h
  · rename_i number hnumber
    cases number with
    | error reason => cases h
    | ok n =>
      cases h
      exact .inl ⟨n, rfl, hnumber⟩
  split at h
  · rename_i name hname
    cases h
    refine .inr (.inr (.inr (.inl ⟨_, rfl, ?_⟩)))
    unfold keywordName? at hname
    split at hname
    · rename_i heq
      cases hname
      rw [← String.toList_inj, heq]
      simp
    · cases hname
  · cases h
    exact .inr (.inr (.inr (.inr rfl)))

/-- An atom with a character that is neither a digit nor a mark of a number is no number. -/
theorem readNumber?_eq_none {cs : List Char} {c : Char} (hmem : c ∈ cs)
    (hdecimal : isDecimal c = false) (hmark : c ∉ ['.', '-', '\n']) : readNumber? cs = none := by
  simp only [List.mem_cons, List.not_mem_nil, or_false, not_or] at hmark
  obtain ⟨hpoint, hminus, hnewline⟩ := hmark
  have hmem : c ∈ withoutNewline cs := by
    unfold withoutNewline
    split
    · rename_i hlast
      obtain ⟨front, rfl⟩ := List.getLast?_eq_some_iff.1 hlast
      simpa [hnewline] using hmem
    · exact hmem
  have hmem : c ∈ (splitSign (withoutNewline cs)).2 := by
    unfold splitSign
    split
    · rename_i heq
      rw [heq] at hmem
      simpa [hminus] using hmem
    · exact hmem
  rcases hsplit : splitSign (withoutNewline cs) with ⟨negative, size⟩
  rw [hsplit] at hmem
  have hnot : ∀ digits, isNumeral digits = true → c ∉ digits := by
    intro digits hdigits hc
    have := (isNumeral_iff.1 hdigits).2 c hc
    rw [hdecimal] at this
    cases this
  have hnumeral : isNumeral size = false :=
    Bool.eq_false_iff.2 fun h => hnot size h hmem
  have hpart : splitPoint? size = none := by
    unfold splitPoint?
    split
    · rename_i fraction hdrop
      have hsize := List.takeWhile_append_dropWhile (p := isDecimal) (l := size)
      rw [← hsize, hdrop] at hmem
      simp only [List.mem_append, List.mem_cons, hpoint, false_or] at hmem
      rw [if_neg]
      intro hboth
      simp only [Bool.and_eq_true] at hboth
      rcases hmem with hmem | hmem
      · have := List.all_eq_true.1 (List.all_takeWhile (p := isDecimal) (l := size)) c hmem
        rw [hdecimal] at this
        cases this
      · exact hnot fraction hboth.2 hmem
    · rfl
  unfold readNumber?
  simp [hsplit, hnumeral, hpart]

/-- An atom with such a character is a symbol if it is no literal and no keyword by its first
character. -/
theorem read_symbol {text : String} {c : Char} (hmem : c ∈ text.toList)
    (hdecimal : isDecimal c = false) (hmark : c ∉ ['.', '-', '\n'])
    (hhead : ∀ d ∈ text.toList.head?, d ∉ ['n', 't', 'f', ':']) :
    read text = .ok (.symbol text) := by
  have hnil : text ≠ "nil" := by
    rintro rfl
    exact hhead 'n' rfl (by decide)
  have htrue : text ≠ "true" := by
    rintro rfl
    exact hhead 't' rfl (by decide)
  have hfalse : text ≠ "false" := by
    rintro rfl
    exact hhead 'f' rfl (by decide)
  have hkeyword : keywordName? text.toList = none := by
    unfold keywordName?
    split
    · rename_i heq
      rw [heq] at hhead
      exact absurd (hhead ':' rfl) (by decide)
    · rfl
  unfold read
  rw [if_neg hnil, if_neg htrue, if_neg hfalse, readNumber?_eq_none hmem hdecimal hmark, hkeyword]

end Atom

end SmallLisp
