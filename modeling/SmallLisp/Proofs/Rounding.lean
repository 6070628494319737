import SmallLisp.Number.Decimal

/-!
# Rounding and decimals

What the way from a finite number to its decimal and back rests on, and where the numbers of the
format end.

* Rounding depends on the ratio alone: a fraction may be extended, and two fractions of the same
  value are rounded to the same number (`Binary64.ofRatio_congr`). The sign takes no part in it.
* Rounding leaves the numbers of the format as they are (`Binary64.ofUnits_units`), and it keeps
  the order of fractions (`Binary64.nearestRank_le`). So a whole number that is rounded to an
  infinity, or that has a quotient by another one which is, lies beyond the format
  (`Binary64.Oversized`).
* **`Decimal.readsBack_shortest`**: the decimal that is chosen for a number reads back as that
  number. The search only ever delivers decimals that do, and so does the exact value, which it
  falls back to.
-/

namespace SmallLisp

namespace Binary64

/-! ## Fractions -/

/-- Extending a fraction does not change the whole number nearest to it. -/
theorem roundQuotient_mul_right (num den : Nat) {k : Nat} (hk : 0 < k) :
    roundQuotient (num * k) (den * k) = roundQuotient num den := by
  have hquotient : num * k / (den * k) = num / den := Nat.mul_div_mul_right num den hk
  have hrest : num * k % (den * k) = num % den * k := Nat.mul_mod_mul_right k num den
  have hdouble : 2 * (num % den * k) = 2 * (num % den) * k := (Nat.mul_assoc 2 _ k).symm
  unfold roundQuotient
  dsimp only
  rw [hquotient, hrest, hdouble]
  simp only [Nat.mul_lt_mul_right hk]

theorem ofUnits_mul_right (negative : Bool) (num den : Nat) {k : Nat} (hk : 0 < k) :
    ofUnits negative (num * k) (den * k) = ofUnits negative num den := by
  have hden : ∀ dropped, den * k * Nat.pow 2 dropped = den * Nat.pow 2 dropped * k :=
    fun dropped => Nat.mul_right_comm den k (Nat.pow 2 dropped)
  unfold ofUnits
  simp only [Nat.mul_div_mul_right num den hk, hden, roundQuotient_mul_right _ _ hk]

/-- Two fractions of the same value are rounded to the same number. -/
theorem ofUnits_congr (negative : Bool) {num den num' den' : Nat} (hden : 0 < den)
    (hden' : 0 < den') (h : num * den' = num' * den) :
    ofUnits negative num den = ofUnits negative num' den' := by
  calc ofUnits negative num den
      = ofUnits negative (num * den') (den * den') := (ofUnits_mul_right _ _ _ hden').symm
    _ = ofUnits negative (num' * den) (den' * den) := by rw [h, Nat.mul_comm den den']
    _ = ofUnits negative num' den' := ofUnits_mul_right _ _ _ hden

theorem ofRatio_congr (negative : Bool) {num den num' den' : Nat} (hden : 0 < den)
    (hden' : 0 < den') (h : num * den' = num' * den) :
    ofRatio negative num den = ofRatio negative num' den' := by
  apply ofUnits_congr negative hden hden'
  rw [Nat.mul_right_comm, h, Nat.mul_right_comm]

/-- The sign takes no part in the rounding. -/
theorem ofRatio_sign {num den : Nat} {rank : Fin ranks}
    (h : ofRatio false num den = finite false rank) (negative : Bool) :
    ofRatio negative num den = finite negative rank := by
  unfold ofRatio ofUnits at h ⊢
  dsimp only at h ⊢
  split at h
  · rename_i hrank
    rw [dif_pos hrank]
    cases h
    rfl
  · cases h

theorem ofRatio_ne_nan (negative : Bool) (num den : Nat) : ofRatio negative num den ≠ nan := by
  unfold ofRatio ofUnits
  dsimp only
  split <;> simp

theorem ofRatio_zero (negative : Bool) (den : Nat) : ofRatio negative 0 den = zero negative := by
  have hround : ∀ den, roundQuotient 0 den = 0 := by
    intro den
    simp [roundQuotient]
  unfold ofRatio ofUnits
  simp only [Nat.zero_mul, Nat.zero_div, hround]
  rfl

/-! ## Numbers of the format -/

theorem roundQuotient_mul_self (n : Nat) {den : Nat} (hden : 0 < den) :
    roundQuotient (n * den) den = n := by
  have hround := roundQuotient_mul_right n 1 hden
  rw [Nat.one_mul] at hround
  rw [hround]
  simp [roundQuotient, Nat.mod_one]

/-- A number below the first binade has its rank for its size. -/
theorem units_subnormal {rank : Nat} (h : rank < binade) : units rank = rank := by
  unfold units mantissa
  rw [if_pos h, Nat.div_eq_of_lt h]
  exact Nat.mul_one rank

/-- From the first binade on, a number has 53 binary digits, one of them the leading one. -/
theorem log2_units {rank : Nat} (h : binade ≤ rank) :
    (units rank).log2 = 52 + (rank / binade - 1) := by
  have hmantissa : binade ≤ mantissa rank ∧ mantissa rank < 2 * binade := by
    have hmod : rank % binade < binade := Nat.mod_lt rank (by decide)
    unfold mantissa
    rw [if_neg (Nat.not_lt.2 h)]
    omega
  have hpow : 0 < Nat.pow 2 (rank / binade - 1) := pow_pos Nat.two_pos _
  have hne : units rank ≠ 0 := by
    have hpos : 0 < mantissa rank := Nat.lt_of_lt_of_le (by decide) hmantissa.1
    exact Nat.ne_of_gt (Nat.mul_pos hpos hpow)
  rw [Nat.log2_eq_iff hne]
  unfold units
  constructor
  · rw [Nat.pow_add]
    exact Nat.mul_le_mul_right _ hmantissa.1
  · have hsplit : 52 + (rank / binade - 1) + 1 = 53 + (rank / binade - 1) := by omega
    rw [hsplit, Nat.pow_add]
    exact Nat.mul_lt_mul_of_pos_right hmantissa.2 hpow

/-- **Rounding leaves the numbers of the format as they are.** -/
theorem ofUnits_units (negative : Bool) (rank : Fin ranks) :
    ofUnits negative (units rank) 1 = finite negative rank := by
  have hrank : ((units rank).log2 - 52) * binade +
      roundQuotient (units rank) (1 * Nat.pow 2 ((units rank).log2 - 52)) = rank := by
    by_cases h : rank.val < binade
    · have hlog : (units rank).log2 - 52 = 0 := by
        rw [units_subnormal h]
        by_cases hzero : rank.val = 0
        · simp [hzero]
        · have hlt : rank.val.log2 < 52 := (Nat.log2_lt hzero).2 h
          omega
      have hround := roundQuotient_mul_self rank.val Nat.one_pos
      rw [hlog, units_subnormal h, Nat.zero_mul, Nat.zero_add]
      rw [Nat.mul_one] at hround
      exact hround
    · have hle := Nat.not_lt.1 h
      have hlog : (units rank).log2 - 52 = rank / binade - 1 := by
        rw [log2_units hle]
        omega
      have hbinade : 1 ≤ rank.val / binade := (Nat.one_le_div_iff (by decide)).2 hle
      have hdivmod := Nat.div_add_mod rank.val binade
      rw [hlog]
      unfold units
      rw [Nat.one_mul, roundQuotient_mul_self _ (pow_pos Nat.two_pos _)]
      unfold mantissa
      rw [if_neg h]
      unfold binade at hbinade hdivmod ⊢
      omega
  unfold ofUnits
  simp only [Nat.div_one, hrank]
  exact dif_pos rank.isLt

/-! ## Order -/

/-- The whole number nearest to a fraction is one of the two around it. -/
theorem roundQuotient_bounds (num den : Nat) :
    num / den ≤ roundQuotient num den ∧ roundQuotient num den ≤ num / den + 1 := by
  unfold roundQuotient
  dsimp only
  split
  · omega
  · split
    · omega
    · split <;> omega

/-- Rounding to a whole number keeps the order of fractions. -/
theorem roundQuotient_le {num den num' den' : Nat} (hden : 0 < den) (hden' : 0 < den')
    (h : num * den' ≤ num' * den) : roundQuotient num den ≤ roundQuotient num' den' := by
  -- over a common denominator, only the numerators differ
  rw [← roundQuotient_mul_right num den hden', ← roundQuotient_mul_right num' den' hden,
    Nat.mul_comm den' den]
  generalize hcommon : den * den' = common
  have hpos : 0 < common := hcommon ▸ Nat.mul_pos hden hden'
  generalize num * den' = a at h ⊢
  generalize num' * den = b at h ⊢
  have hle : a / common ≤ b / common := Nat.div_le_div_right h
  rcases Nat.lt_or_eq_of_le hle with hlt | heq
  · have hupper := (roundQuotient_bounds a common).2
    have hlower := (roundQuotient_bounds b common).1
    omega
  · have hrest : a % common ≤ b % common := by
      have ha := Nat.div_add_mod a common
      have hb := Nat.div_add_mod b common
      rw [heq] at ha
      omega
    unfold roundQuotient
    dsimp only
    rw [heq]
    repeat' split
    all_goals omega

/-- The rank that a number of units is rounded to. -/
def nearestRank (num den : Nat) : Nat :=
  ((num / den).log2 - 52) * binade +
    roundQuotient num (den * Nat.pow 2 ((num / den).log2 - 52))

theorem ofUnits_eq (negative : Bool) (num den : Nat) :
    ofUnits negative num den =
      if h : nearestRank num den < ranks then finite negative ⟨_, h⟩ else infinite negative := rfl

/-- A fraction with few binary digits before the point is rounded to a whole number of them. -/
theorem roundQuotient_le_binade {num den dropped : Nat}
    (h : (num / den).log2 - 52 ≤ dropped) :
    roundQuotient num (den * Nat.pow 2 dropped) ≤ 2 * binade := by
  have hquotient : num / (den * Nat.pow 2 dropped) < 2 * binade := by
    rw [← Nat.div_div_eq_div_mul, Nat.div_lt_iff_lt_mul (pow_pos Nat.two_pos _)]
    have hlog : num / den < 2 ^ ((num / den).log2 + 1) := Nat.lt_log2_self
    have hpow : 2 ^ ((num / den).log2 + 1) ≤ 2 ^ (53 + dropped) :=
      Nat.pow_le_pow_right Nat.two_pos (by omega)
    rw [Nat.pow_add 2 53] at hpow
    exact Nat.lt_of_lt_of_le hlog hpow
  have := (roundQuotient_bounds num (den * Nat.pow 2 dropped)).2
  omega

/-- A fraction is rounded to a rank of the binade that its digits before the point lead to. -/
theorem le_nearestRank {num den dropped : Nat} (hdropped : 0 < dropped)
    (h : (num / den).log2 - 52 = dropped) : (dropped + 1) * binade ≤ nearestRank num den := by
  have hquotient : binade ≤ num / (den * Nat.pow 2 dropped) := by
    rw [← Nat.div_div_eq_div_mul, Nat.le_div_iff_mul_le (pow_pos Nat.two_pos _)]
    have hne : num / den ≠ 0 := by
      intro hzero
      rw [hzero] at h
      simp at h
      omega
    have hlog : 2 ^ (num / den).log2 ≤ num / den := Nat.log2_self_le hne
    have hsplit : (num / den).log2 = 52 + dropped := by omega
    rw [hsplit, Nat.pow_add] at hlog
    exact hlog
  have hround := (roundQuotient_bounds num (den * Nat.pow 2 dropped)).1
  unfold nearestRank
  rw [h, Nat.add_mul, Nat.one_mul]
  omega

/-- **Rounding keeps the order of fractions.** -/
theorem nearestRank_le {num den num' den' : Nat} (hden : 0 < den) (hden' : 0 < den')
    (h : num * den' ≤ num' * den) : nearestRank num den ≤ nearestRank num' den' := by
  have hquotient : num / den ≤ num' / den' := by
    rw [Nat.le_div_iff_mul_le hden']
    refine Nat.le_of_mul_le_mul_right ?_ hden
    calc num / den * den' * den = num / den * den * den' := Nat.mul_right_comm _ _ _
      _ ≤ num * den' := Nat.mul_le_mul_right _ (Nat.div_mul_le_self num den)
      _ ≤ num' * den := h
  have hlog : (num / den).log2 ≤ (num' / den').log2 := by
    by_cases hzero : num / den = 0
    · simp [hzero]
    · have hpos : 0 < num / den := Nat.pos_of_ne_zero hzero
      rw [Nat.le_log2 (Nat.ne_of_gt (Nat.lt_of_lt_of_le hpos hquotient))]
      exact Nat.le_trans (Nat.log2_self_le hzero) hquotient
  rcases Nat.lt_or_ge ((num / den).log2 - 52) ((num' / den').log2 - 52) with hlt | hge
  · -- the second number lies in a later binade, which the first reaches at most
    have hfirst := roundQuotient_le_binade (Nat.le_refl ((num / den).log2 - 52))
    have hsecond := le_nearestRank (Nat.lt_of_le_of_lt (Nat.zero_le _) hlt) rfl
    have hbinade := Nat.mul_le_mul_right binade (Nat.succ_le_of_lt hlt)
    unfold nearestRank at hsecond ⊢
    rw [Nat.add_mul, Nat.one_mul] at hsecond
    rw [Nat.succ_mul] at hbinade
    omega
  · have hdropped : (num / den).log2 - 52 = (num' / den').log2 - 52 := by omega
    unfold nearestRank
    rw [← hdropped]
    have hpow : 0 < Nat.pow 2 ((num / den).log2 - 52) := pow_pos Nat.two_pos _
    generalize Nat.pow 2 ((num / den).log2 - 52) = unit at hpow ⊢
    refine Nat.add_le_add_left (roundQuotient_le (Nat.mul_pos hden hpow)
      (Nat.mul_pos hden' hpow) ?_) _
    rw [← Nat.mul_assoc, ← Nat.mul_assoc]
    exact Nat.mul_le_mul_right unit h

/-! ## Numbers beyond the format -/

/-- The smallest whole number beyond the format. It lies half a step above the largest number. -/
def beyond : Nat := Nat.pow 2 1024 - Nat.pow 2 970

/-- The whole number lies beyond the format, on either side. -/
def Oversized (n : Int) : Prop :=
  beyond ≤ n.natAbs

instance (n : Int) : Decidable (Oversized n) :=
  inferInstanceAs (Decidable (_ ≤ _))

/-- The ladder ends where the whole numbers beyond the format begin. -/
theorem beyond_le_of_nearestRank {n : Nat} (h : ranks ≤ nearestRank (n * one) 1) :
    beyond ≤ n := by
  refine Nat.not_lt.1 fun hlt => Nat.not_lt.2 h ?_
  have hlast : nearestRank ((beyond - 1) * one) 1 < ranks := by decide +kernel
  refine Nat.lt_of_le_of_lt (nearestRank_le Nat.one_pos Nat.one_pos ?_) hlast
  exact Nat.mul_le_mul_right _ (Nat.mul_le_mul_right _ (Nat.le_sub_one_of_lt hlt))

/-- A whole number is rounded to an infinity only if it lies beyond the format. -/
theorem ofInt_infinite {n : Int} {negative : Bool} (h : ofInt n = infinite negative) :
    Oversized n := by
  unfold ofInt ofRatio at h
  rw [ofUnits_eq] at h
  split at h
  · cases h
  · rename_i hrank
    exact beyond_le_of_nearestRank (Nat.not_lt.1 hrank)

/-- A quotient by a whole number is rounded to an infinity only if its dividend lies beyond the
format. -/
theorem ofRatio_infinite {sign negative : Bool} {a : Int} {den : Nat} (hden : 0 < den)
    (h : ofRatio sign a.natAbs den = infinite negative) : Oversized a := by
  unfold ofRatio at h
  rw [ofUnits_eq] at h
  split at h
  · cases h
  · rename_i hrank
    refine beyond_le_of_nearestRank (Nat.le_trans (Nat.not_lt.1 hrank) ?_)
    exact nearestRank_le hden Nat.one_pos (Nat.mul_le_mul_left _ hden)

end Binary64

namespace Decimal

/-! ## The shortest decimal -/

theorem readsBack_of_choice {rank : Fin Binary64.ranks} {lower upper d : Decimal} {nearer : Bool}
    (h : (if readsBack rank lower && nearer then some lower
      else if readsBack rank upper then some upper else none) = some d) :
    readsBack rank d = true := by
  split at h
  · rename_i hlower
    cases h
    exact (Bool.and_eq_true_iff.1 hlower).1
  · split at h
    · rename_i hupper
      cases h
      exact hupper
    · cases h

/-- The exact value of a number reads back as that number. -/
theorem readsBack_ofUnits (rank : Fin Binary64.ranks) :
    readsBack rank (ofUnits (Binary64.units rank)) = true := by
  have hsplit : ∀ n, Nat.pow 10 n = Nat.pow 5 n * Nat.pow 2 n := fun n => Nat.mul_pow 5 2 n
  have hpow : Nat.pow 10 1074 = Nat.pow 5 1074 * Binary64.one := by
    unfold Binary64.one
    exact hsplit 1074
  have hexact : Binary64.ofRatio false (Binary64.units rank * Nat.pow 5 1074) (Nat.pow 10 1074) =
      .finite false rank := by
    rw [← Binary64.ofUnits_units false rank]
    apply Binary64.ofUnits_congr false (Binary64.pow_pos (by decide) 1074) Nat.one_pos
    rw [hpow, Nat.mul_one, Nat.mul_assoc]
  have hexponent : ¬ 0 ≤ (ofUnits (Binary64.units rank)).exponent := by
    show ¬ (0 : Int) ≤ -1074
    decide
  unfold readsBack toBinary64
  rw [if_neg hexponent]
  exact beq_iff_eq.2 hexact

/-- **The shortest decimal of a number reads back as that number.** -/
theorem readsBack_shortest (rank : Fin Binary64.ranks) : readsBack rank (shortest rank) = true := by
  unfold shortest
  dsimp only
  cases hsearch : (List.range 17).findSome? fun more : Nat =>
      nearestOnGrid rank (leadingPlace (Binary64.units rank) - more) with
  | none => exact readsBack_ofUnits rank
  | some d =>
    obtain ⟨more, -, hmore⟩ := List.exists_of_findSome?_eq_some hsearch
    unfold nearestOnGrid at hmore
    exact readsBack_of_choice hmore

end Decimal

end SmallLisp
