import SmallLisp.Proofs.Numerals

/-!
# Numbers written and read

What a number is read as when its text is read as an atom.

* A whole number that is not too large is read as itself (`Numeral.read_toString_int`).
* A finite number that is written without an exponent is read as itself
  (`Binary64.read_text_of_plain`). The layout only moves zeros (`Decimal.significant_spec`,
  `Decimal.positional_spec`), the digits between them denote the decimal that was chosen, and that
  one reads back.
* A number that is written with an exponent, and one that is not finite, is read as a symbol
  (`Binary64.read_text_of_not_plain`): an atom with a letter in it is no number.
-/

namespace SmallLisp

/-! ## The layout of a decimal -/

namespace Decimal

open SmallLisp.Text SmallLisp.Numeral SmallLisp.Atom

/-- A decimal is rounded as any fraction that its exponent may be split into. -/
theorem toBinary64_eq (negative : Bool) (d : Decimal) (up down : Nat)
    (h : (up : Int) - down = d.exponent) :
    d.toBinary64 negative = .ofRatio negative (d.digits * Nat.pow 10 up) (Nat.pow 10 down) := by
  have hpos : ∀ n, 0 < Nat.pow 10 n := fun n => Binary64.pow_pos (by decide) n
  unfold toBinary64
  split
  · have hup : up = d.exponent.toNat + down := by omega
    apply Binary64.ofRatio_congr negative Nat.one_pos (hpos down)
    rw [hup, tenPow_add, Nat.mul_one, Nat.mul_assoc]
  · have hdown : down = (-d.exponent).toNat + up := by omega
    apply Binary64.ofRatio_congr negative (hpos _) (hpos down)
    rw [hdown, tenPow_add, Nat.mul_assoc, Nat.mul_comm (Nat.pow 10 up)]

/-- What is cut off the digits are zeros. -/
theorem significant_spec (digits : List Char) :
    ∃ n, digits = significant digits ++ List.replicate n '0' := by
  refine ⟨(digits.reverse.takeWhile (· == '0')).length, ?_⟩
  have hzeros : (digits.reverse.takeWhile (· == '0')).reverse =
      List.replicate (digits.reverse.takeWhile (· == '0')).length '0' := by
    rw [List.eq_replicate_iff]
    refine ⟨List.length_reverse, ?_⟩
    intro c hc
    have hall := List.all_eq_true.1 (List.all_takeWhile (p := (· == '0')) (l := digits.reverse))
    exact beq_iff_eq.1 (hall c (List.mem_reverse.1 hc))
  have hsplit := List.takeWhile_append_dropWhile (p := (· == '0')) (l := digits.reverse)
  rw [← hzeros]
  unfold significant
  rw [← List.reverse_append, hsplit, List.reverse_reverse]

theorem mem_of_mem_significant {digits : List Char} {c : Char} (h : c ∈ significant digits) :
    c ∈ digits := by
  obtain ⟨n, hn⟩ := significant_spec digits
  rw [hn]
  exact List.mem_append_left _ h

/-- The digits behind the point are the ones that there are, or one zero. -/
theorem behindPoint_spec (digits : List Char) :
    (digits = [] ∧ behindPoint digits = ['0']) ∨ (digits ≠ [] ∧ behindPoint digits = digits) := by
  cases digits with
  | nil => exact .inl ⟨rfl, rfl⟩
  | cons c cs => exact .inr ⟨List.cons_ne_nil c cs, rfl⟩

theorem isDecimal_of_mem_zeros {n : Nat} {c : Char} (h : c ∈ List.replicate n '0') :
    isDecimal c = true := by
  rw [List.eq_of_mem_replicate h]
  decide

theorem isNumeral_behindPoint {digits : List Char} (h : ∀ c ∈ digits, isDecimal c = true) :
    isNumeral (behindPoint digits) = true := by
  rcases behindPoint_spec digits with ⟨-, heq⟩ | ⟨hne, heq⟩
  · rw [heq]
    decide
  · rw [heq]
    exact isNumeral_iff.2 ⟨hne, h⟩

/-- With the point behind the given number of places, filled up with zeros if there are not as many
digits, what is written denotes what the digits denote if the last of these places is that of the
ones. -/
theorem digitsValue_point (digits : List Char) (places up down : Nat)
    (hscale : (up : Int) - down = places - digits.length) :
    digitsValue (digits.take places ++ List.replicate (places - digits.length) '0' ++
        behindPoint (digits.drop places)) * Nat.pow 10 down =
      digitsValue digits * Nat.pow 10 up *
        Nat.pow 10 (behindPoint (digits.drop places)).length := by
  rcases behindPoint_spec (digits.drop places) with ⟨hdrop, heq⟩ | ⟨hdrop, heq⟩
  · -- all digits stand before the point
    have hlength : digits.length ≤ places := List.drop_eq_nil_iff.1 hdrop
    have hzeros : (['0'] : List Char) = List.replicate 1 '0' := rfl
    rw [heq, List.take_of_length_le hlength, hzeros, digitsValue_append_zeros,
      digitsValue_append_zeros, List.length_replicate, Nat.mul_assoc, Nat.mul_assoc,
      Nat.mul_assoc, ← tenPow_add, ← tenPow_add, ← tenPow_add]
    congr 2
    omega
  · -- some stand behind it, and no zero is put in
    have hlength : places < digits.length := by
      rw [← Nat.not_le]
      exact fun h => hdrop (List.drop_eq_nil_iff.2 h)
    have hnone : places - digits.length = 0 := by omega
    rw [heq, hnone, List.replicate_zero, List.append_nil, List.take_append_drop,
      List.length_drop, Nat.mul_assoc, ← tenPow_add]
    congr 2
    omega

/-- Zeros behind the point that stand before the digits only move these. -/
theorem digitsValue_zeros_behind (digits : List Char) (zeros up down : Nat)
    (hscale : (up : Int) - down = -(zeros + digits.length)) :
    digitsValue (['0'] ++ (List.replicate zeros '0' ++ digits)) * Nat.pow 10 down =
      digitsValue digits * Nat.pow 10 up *
        Nat.pow 10 (List.replicate zeros '0' ++ digits).length := by
  have hzero : (['0'] : List Char) = List.replicate 1 '0' := rfl
  rw [hzero, digitsValue_zeros_append, digitsValue_zeros_append, List.length_append,
    List.length_replicate, Nat.mul_assoc, ← tenPow_add]
  congr 2
  omega

/-- The text with the point in place is digits, a point and digits, and these denote what the given
digits denote if the first of them stands at the given place. -/
theorem positional_spec {digits : List Char} (hdigits : isNumeral digits = true) (place : Int) :
    ∃ whole fraction, positional digits place = whole ++ '.' :: fraction ∧
      isNumeral whole = true ∧ isNumeral fraction = true ∧
      ∀ up down : Nat, (up : Int) - down = place + 1 - digits.length →
        digitsValue (whole ++ fraction) * Nat.pow 10 down =
          digitsValue digits * Nat.pow 10 up * Nat.pow 10 fraction.length := by
  obtain ⟨hne, hall⟩ := isNumeral_iff.1 hdigits
  unfold positional
  split
  · refine ⟨_, _, rfl, isNumeral_iff.2 ⟨by simp [hne], ?_⟩,
      isNumeral_behindPoint fun c hc => hall c (List.mem_of_mem_drop hc), ?_⟩
    · intro c hc
      rcases List.mem_append.1 hc with hc | hc
      · exact hall c (List.mem_of_mem_take hc)
      · exact isDecimal_of_mem_zeros hc
    · exact fun up down hscale => digitsValue_point digits _ up down (by omega)
  · refine ⟨['0'], _, rfl, by decide, isNumeral_iff.2 ⟨by simp [hne], ?_⟩, ?_⟩
    · intro c hc
      rcases List.mem_append.1 hc with hc | hc
      · exact isDecimal_of_mem_zeros hc
      · exact hall c hc
    · exact fun up down hscale => digitsValue_zeros_behind digits _ up down (by omega)

/-- The decimal chosen for a number other than zero has a digit other than zero. -/
theorem digits_shortest_ne_zero {rank : Fin Binary64.ranks} (hrank : rank.val ≠ 0) :
    (shortest rank).digits ≠ 0 := by
  intro hdigits
  have hback := beq_iff_eq.1 (readsBack_shortest rank)
  unfold toBinary64 at hback
  rw [hdigits, Nat.zero_mul, Binary64.ofRatio_zero, Binary64.ofRatio_zero, ite_self] at hback
  cases hback
  exact hrank rfl

/-- A decimal with the point in place is read as the number nearest to it. -/
theorem readNumber?_positional (negative : Bool) {d : Decimal} (hd : d.digits ≠ 0) :
    readNumber? (withSign negative (positional (significant (Nat.toDigits 10 d.digits))
      (d.exponent + (Nat.toDigits 10 d.digits).length - 1))) =
      some (.ok (.float (d.toBinary64 negative))) := by
  have hvalue := digitsValue_toDigits d.digits
  have hdecimal := fun c (hc : c ∈ significant (Nat.toDigits 10 d.digits)) =>
    isDecimal_of_mem_toDigits c (mem_of_mem_significant hc)
  obtain ⟨zeros, hzeros⟩ := significant_spec (Nat.toDigits 10 d.digits)
  have hlength := congrArg List.length hzeros
  rw [List.length_append, List.length_replicate] at hlength
  generalize significant (Nat.toDigits 10 d.digits) = digits at *
  rw [hzeros, digitsValue_append_zeros] at hvalue
  have hne : digits ≠ [] := by
    rintro rfl
    exact hd (by rw [← hvalue]; exact Nat.zero_mul _)
  obtain ⟨whole, fraction, htext, hwhole, hfraction, hscale⟩ :=
    positional_spec (isNumeral_iff.2 ⟨hne, hdecimal⟩)
      (d.exponent + (Nat.toDigits 10 d.digits).length - 1)
  -- the zeros cut off the digits go into the exponent
  have hscale := hscale (d.exponent.toNat + zeros) (-d.exponent).toNat (by omega)
  have hnearest : Binary64.ofRatio negative (digitsValue (whole ++ fraction))
      (Nat.pow 10 fraction.length) = d.toBinary64 negative := by
    rw [toBinary64_eq negative d d.exponent.toNat (-d.exponent).toNat (by omega)]
    refine Binary64.ofRatio_congr negative (Binary64.pow_pos (by decide) _)
      (Binary64.pow_pos (by decide) _) ?_
    rw [hscale, ← hvalue, Nat.add_comm, tenPow_add, ← Nat.mul_assoc]
  rw [htext, readNumber?_decimal negative hwhole hfraction, hnearest]

/-- The decimal chosen for a number is the number again, with either sign. -/
theorem toBinary64_shortest (negative : Bool) (rank : Fin Binary64.ranks) :
    (shortest rank).toBinary64 negative = .finite negative rank := by
  have hback := beq_iff_eq.1 (readsBack_shortest rank)
  unfold toBinary64 at hback ⊢
  split
  · rw [if_pos (by assumption)] at hback
    exact Binary64.ofRatio_sign hback negative
  · rw [if_neg (by assumption)] at hback
    exact Binary64.ofRatio_sign hback negative

/-! ## The characters of a decimal -/

section Characters

variable {p : Char → Prop} {digits : List Char}

theorem forall_mem_positional (hdigits : ∀ c ∈ digits, p c) (hzero : p '0') (hpoint : p '.')
    (place : Int) : ∀ c ∈ positional digits place, p c := by
  have hzeros : ∀ n, ∀ c ∈ List.replicate n '0', p c := by
    intro n c hc
    rw [List.eq_of_mem_replicate hc]
    exact hzero
  have hbehind : ∀ {cs : List Char}, (∀ c ∈ cs, p c) → ∀ c ∈ behindPoint cs, p c := by
    intro cs hcs
    rcases behindPoint_spec cs with ⟨-, heq⟩ | ⟨-, heq⟩
    · rw [heq]
      exact List.forall_mem_singleton.2 hzero
    · rw [heq]
      exact hcs
  unfold positional
  split
  · refine List.forall_mem_append.2 ⟨List.forall_mem_append.2 ⟨?_, hzeros _⟩, ?_⟩
    · exact fun c hc => hdigits c (List.mem_of_mem_take hc)
    · refine List.forall_mem_cons.2 ⟨hpoint, hbehind ?_⟩
      exact fun c hc => hdigits c (List.mem_of_mem_drop hc)
  · refine List.forall_mem_cons.2 ⟨hzero, List.forall_mem_cons.2 ⟨hpoint, ?_⟩⟩
    exact List.forall_mem_append.2 ⟨hzeros _, hdigits⟩

theorem forall_mem_twoDigits (hdigit : ∀ k < 10, p (Nat.digitChar k)) (n : Nat) :
    ∀ c ∈ twoDigits n, p c := by
  unfold twoDigits
  split
  · exact List.forall_mem_cons.2 ⟨hdigit 0 (by decide), forall_mem_toDigits hdigit⟩
  · exact forall_mem_toDigits hdigit

theorem forall_mem_withExponent (hdigits : ∀ c ∈ digits, p c)
    (hdigit : ∀ k < 10, p (Nat.digitChar k)) (hmark : p '.' ∧ p 'e' ∧ p '-' ∧ p '+')
    (place : Int) : ∀ c ∈ withExponent digits place, p c := by
  unfold withExponent
  refine List.forall_mem_append.2 ⟨List.forall_mem_append.2 ⟨?_, ?_⟩, ?_⟩
  · exact fun c hc => hdigits c (List.mem_of_mem_take hc)
  · split
    · exact List.forall_mem_nil p
    · refine List.forall_mem_cons.2 ⟨hmark.1, ?_⟩
      exact fun c hc => hdigits c (List.mem_of_mem_drop hc)
  · refine List.forall_mem_cons.2 ⟨hmark.2.1, List.forall_mem_cons.2 ⟨?_, ?_⟩⟩
    · split
      · exact hmark.2.2.1
      · exact hmark.2.2.2
    · exact forall_mem_twoDigits hdigit _

/-- What holds of the common digits and of the marks holds of every character of a decimal. -/
theorem forall_mem_text (hdigit : ∀ k < 10, p (Nat.digitChar k))
    (hmark : p '.' ∧ p 'e' ∧ p '-' ∧ p '+') (d : Decimal) : ∀ c ∈ d.text, p c := by
  have hdigits : ∀ c ∈ significant (Nat.toDigits 10 d.digits), p c :=
    fun c hc => forall_mem_toDigits hdigit c (mem_of_mem_significant hc)
  unfold text
  dsimp only
  split
  · exact forall_mem_positional hdigits (hdigit 0 (by decide)) (hmark.1) _
  · exact forall_mem_withExponent hdigits hdigit hmark _

end Characters

theorem point_mem_positional (digits : List Char) (place : Int) :
    '.' ∈ positional digits place := by
  unfold positional
  split <;> simp

/-- The point stands in its place in the text of a decimal, or there is an exponent in it. -/
theorem text_spec (d : Decimal) :
    (d.text = positional (significant (Nat.toDigits 10 d.digits))
      (d.exponent + (Nat.toDigits 10 d.digits).length - 1)) ∨
    'e' ∈ d.text := by
  unfold text
  dsimp only
  split
  · exact .inl rfl
  · right
    unfold withExponent
    exact List.mem_append_right _ List.mem_cons_self

end Decimal

/-! ## Numbers -/

namespace Binary64

open SmallLisp.Text SmallLisp.Numeral SmallLisp.Atom

/-- The number is neither `nan` nor an infinity. -/
def isFinite : Binary64 → Bool
  | finite _ _ => true
  | _ => false

/-- The number is finite and is written without an exponent. -/
def Plain (x : Binary64) : Prop :=
  x.isFinite = true ∧ 'e' ∉ x.text.toList

instance (x : Binary64) : Decidable x.Plain :=
  inferInstanceAs (Decidable (_ ∧ _))

theorem toList_text_finite (negative : Bool) (rank : Fin ranks) :
    (text (.finite negative rank)).toList = withSign negative (sizeText rank) := by
  simp [text, withSign]

theorem sizeText_of_eq_zero {rank : Fin ranks} (h : rank.val = 0) :
    sizeText rank = ['0'] ++ '.' :: ['0'] := by
  unfold sizeText
  rw [if_pos h]
  rfl

theorem sizeText_of_ne_zero {rank : Fin ranks} (h : rank.val ≠ 0) :
    sizeText rank = (Decimal.shortest rank).text := by
  unfold sizeText
  rw [if_neg h]

/-- What holds of the common digits and of the marks holds of every character of a finite number. -/
theorem forall_mem_text_finite {p : Char → Prop} (hdigit : ∀ k < 10, p (Nat.digitChar k))
    (hmark : p '.' ∧ p 'e' ∧ p '-' ∧ p '+') (negative : Bool) (rank : Fin ranks) :
    ∀ c ∈ (text (.finite negative rank)).toList, p c := by
  have hsize : ∀ c ∈ sizeText rank, p c := by
    by_cases hrank : rank.val = 0
    · have hzero : p '0' := hdigit 0 (by decide)
      have hpoint : p '.' := hmark.1
      rw [sizeText_of_eq_zero hrank]
      exact List.forall_mem_cons.2 ⟨hzero, List.forall_mem_cons.2 ⟨hpoint,
        List.forall_mem_singleton.2 hzero⟩⟩
    · rw [sizeText_of_ne_zero hrank]
      exact Decimal.forall_mem_text hdigit hmark _
  intro c hc
  rw [toList_text_finite, mem_withSign] at hc
  rcases hc with ⟨-, rfl⟩ | hc
  · exact hmark.2.2.1
  · exact hsize c hc

theorem toList_text_ne_nil (x : Binary64) : x.text.toList ≠ [] := by
  cases x with
  | nan => decide
  | infinite negative => cases negative <;> decide
  | finite negative rank =>
    have hmark : '.' ∈ sizeText rank ∨ 'e' ∈ sizeText rank := by
      by_cases hrank : rank.val = 0
      · rw [sizeText_of_eq_zero hrank]
        exact .inl (by decide)
      · rw [sizeText_of_ne_zero hrank]
        apply (Decimal.text_spec _).imp_left
        intro htext
        rw [htext]
        exact Decimal.point_mem_positional _ _
    rw [toList_text_finite]
    rcases hmark with hmem | hmem <;>
      exact List.ne_nil_of_mem ((mem_withSign negative).2 (.inr hmem))

/-- **A finite number that is written without an exponent is read as itself.** -/
theorem read_text_of_plain {x : Binary64} (h : x.Plain) :
    Atom.read x.text = .ok (.number (.float x)) := by
  obtain ⟨hfinite, hexponent⟩ := h
  obtain ⟨negative, rank, rfl⟩ : ∃ negative rank, x = finite negative rank := by
    cases x with
    | finite negative rank => exact ⟨negative, rank, rfl⟩
    | nan | infinite => cases hfinite
  refine read_of_readNumber? ?_
  rw [toList_text_finite] at hexponent ⊢
  by_cases hrank : rank.val = 0
  · have hzero : finite negative rank = zero negative := congrArg (finite negative) (Fin.ext hrank)
    have hdigits : digitsValue (['0'] ++ ['0']) = 0 := by decide
    rw [sizeText_of_eq_zero hrank, readNumber?_decimal negative (by decide) (by decide), hzero,
      hdigits, ofRatio_zero]
  · rw [sizeText_of_ne_zero hrank] at hexponent ⊢
    rcases Decimal.text_spec (Decimal.shortest rank) with htext | he
    · rw [htext, Decimal.readNumber?_positional negative (Decimal.digits_shortest_ne_zero hrank),
        Decimal.toBinary64_shortest]
    · exact absurd ((mem_withSign negative).2 (.inr he)) hexponent

/-- **A number with an exponent, and one that is not finite, is read as a symbol.** -/
theorem read_text_of_not_plain {x : Binary64} (h : ¬ x.Plain) :
    Atom.read x.text = .ok (.symbol x.text) := by
  cases x with
  | nan => rfl
  | infinite negative => cases negative <;> rfl
  | finite negative rank =>
    have hexponent : 'e' ∈ (text (.finite negative rank)).toList := by
      by_cases he : 'e' ∈ (text (.finite negative rank)).toList
      · exact he
      · exact absurd ⟨rfl, he⟩ h
    have hmarks : ∀ c ∈ (text (.finite negative rank)).toList, c ∉ ['n', 't', 'f', ':'] :=
      forall_mem_text_finite (by decide) (by decide) negative rank
    apply read_symbol hexponent (by decide) (by decide)
    exact fun c hc => hmarks c (List.mem_of_mem_head? hc)

end Binary64

namespace Numeral

open SmallLisp.Text SmallLisp.Atom

theorem toList_toString_int (n : Int) :
    (toString n).toList = withSign (decide (n < 0)) (Nat.toDigits 10 n.natAbs) := by
  rw [Int.toString_eq_repr, Int.repr_eq_if]
  by_cases h : 0 ≤ n
  · have hsize : n.toNat = n.natAbs := by omega
    rw [if_pos h, Nat.toList_repr, hsize, withSign, if_neg (by simp [h])]
  · have hsize : (-n).toNat = n.natAbs := by omega
    rw [if_neg h, String.toList_append, Nat.toList_repr, hsize, withSign, if_pos (by simp; omega)]
    rfl

theorem intText?_of_lt {n : Int} (h : n.natAbs < tooLarge) : intText? n = some (toString n) := by
  unfold intText?
  rw [if_pos h]

/-- **A whole number that is not too large is read as itself.** -/
theorem read_toString_int {n : Int} (h : n.natAbs < tooLarge) :
    Atom.read (toString n) = .ok (.number (.int n)) := by
  have hnumeral : isNumeral (Nat.toDigits 10 n.natAbs) = true :=
    isNumeral_iff.2 ⟨Nat.toDigits_ne_nil, isDecimal_of_mem_toDigits⟩
  have hshort : (Nat.toDigits 10 n.natAbs).length ≤ maxDigits :=
    (Nat.length_toDigits_le_iff (by decide) (by decide)).2 h
  refine read_of_readNumber? ?_
  rw [toList_toString_int, readNumber?_numeral _ hnumeral hshort, digitsValue_toDigits]
  congr 3
  by_cases hn : n < 0
  · rw [if_pos (by simp [hn])]
    omega
  · rw [if_neg (by simp; omega)]
    omega

end Numeral

end SmallLisp
