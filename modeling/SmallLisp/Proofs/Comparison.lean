import Mathlib.Data.EReal.Basic
import Mathlib.Data.List.Chain
import SmallLisp.Proofs.PlainOperations

/-!
# Comparison is a test for a total order

Numbers are compared by their exact places, so that a comparison never rounds, and each operation
compares neighbours only.

* `Number.value?`: the exact value of a number, on the real line with both infinities. A whole
  number has its own value, whatever its size, and a binary64 number is its binary digits times a
  power of two.
* `Number.less_iff`, `Number.lessEq_iff`, `Number.equal_iff`: numbers compare as their values do.
* `Arithmetic.chained_iff`: since the order of values is transitive, a relation between neighbours
  is one between all pairs.
* **`Builtin.comparison_totalOrder`**: what the operations answer.
-/

namespace SmallLisp

/-! ## Exact values -/

namespace Binary64

/-- The exact value of a number; `nan` has none. -/
noncomputable def value? : Binary64 → Option EReal
  | nan => none
  | infinite negative => some (if negative then ⊥ else ⊤)
  | finite negative rank =>
    some ((signed negative (mantissa rank) *
      (2 : ℝ) ^ (((rank.val / binade - 1 : ℕ) : ℤ) - 1074) : ℝ) : EReal)

/-- The value at a place, in a unit. -/
noncomputable def Level.valueIn (unit : ℝ) : Level → EReal
  | lowest => ⊥
  | units n => ((n / unit : ℝ) : EReal)
  | highest => ⊤

/-- The value at a place. -/
noncomputable def Level.value (level : Level) : EReal :=
  level.valueIn one

/-- Whatever the unit, places are ordered as their values are. -/
theorem Level.lt_iff_valueIn {unit : ℝ} (hunit : 0 < unit) (a b : Level) :
    a.lt b = true ↔ a.valueIn unit < b.valueIn unit := by
  cases a <;> cases b <;> simp [Level.lt, valueIn, div_lt_div_iff_of_pos_right hunit]

/-- Places with the same value are the same. -/
theorem Level.eq_iff_valueIn {unit : ℝ} (hunit : unit ≠ 0) (a b : Level) :
    a = b ↔ a.valueIn unit = b.valueIn unit := by
  cases a <;> cases b <;> simp [valueIn, EReal.coe_eq_coe_iff, div_left_inj' hunit]

theorem two_pow_real (n : Nat) : ((Nat.pow 2 n : ℕ) : ℝ) = 2 ^ n := by
  rw [Nat.pow_eq, Nat.cast_pow, Nat.cast_ofNat]

theorem one_real : (one : ℝ) = 2 ^ 1074 := by
  unfold one
  generalize 1074 = n
  exact two_pow_real n

theorem one_real_pos : (0 : ℝ) < one :=
  Nat.cast_pos.2 one_pos

theorem signed_mul (negative : Bool) (a b : Nat) :
    signed negative (a * b) = signed negative a * b := by
  cases negative <;> simp [signed]

/-- The size of a number is its binary digits times a power of two. -/
theorem signed_units_div_one (negative : Bool) (rank : Nat) :
    (signed negative (units rank) : ℝ) / one =
      signed negative (mantissa rank) * (2 : ℝ) ^ (((rank / binade - 1 : ℕ) : ℤ) - 1074) := by
  rw [units, signed_mul, Int.cast_mul, Int.cast_natCast, two_pow_real, one_real, mul_div_assoc,
    zpow_sub₀ two_ne_zero, zpow_natCast]
  rfl

/-- A number has the value at its place. -/
theorem value?_eq (x : Binary64) : x.value? = x.level?.map Level.value := by
  cases x with
  | nan => rfl
  | infinite negative => cases negative <;> rfl
  | finite negative rank =>
    rw [value?, ← signed_units_div_one]
    rfl

end Binary64

namespace Number

/-- The exact value of a number; `nan` has none. -/
noncomputable def value? : Number → Option EReal
  | int n => some ((n : ℝ) : EReal)
  | float x => x.value?

/-- A number has the value at its place. -/
theorem value?_eq (n : Number) : n.value? = n.level?.map Binary64.Level.value := by
  cases n with
  | float x => exact x.value?_eq
  | int n =>
    have hone : (Binary64.one : ℝ) ≠ 0 := ne_of_gt Binary64.one_real_pos
    have hvalue : ((n * (Binary64.one : ℤ) : ℤ) : ℝ) / (Binary64.one : ℝ) = n := by
      rw [Int.cast_mul, Int.cast_natCast, mul_div_cancel_right₀ _ hone]
    exact congrArg (fun x : ℝ => some (x : EReal)) hvalue.symm

variable {a b : Number} {x y : EReal}

/-- What a number with a value is compared at. -/
theorem exists_level (h : a.value? = some x) : ∃ level, a.level? = some level ∧ level.value = x :=
  Option.map_eq_some_iff.1 (a.value?_eq ▸ h)

/-- One number is less than another one exactly if its value is. -/
theorem less_iff (ha : a.value? = some x) (hb : b.value? = some y) :
    a.less b = true ↔ x < y := by
  obtain ⟨level, hlevel, rfl⟩ := exists_level ha
  obtain ⟨level', hlevel', rfl⟩ := exists_level hb
  rw [less, hlevel, hlevel']
  exact level.lt_iff_valueIn Binary64.one_real_pos level'

/-- Numbers are equal exactly if they have the same value. -/
theorem equal_iff (ha : a.value? = some x) (hb : b.value? = some y) :
    a.equal b = true ↔ x = y := by
  obtain ⟨level, hlevel, rfl⟩ := exists_level ha
  obtain ⟨level', hlevel', rfl⟩ := exists_level hb
  rw [equal, hlevel, hlevel']
  exact beq_iff_eq.trans (level.eq_iff_valueIn (ne_of_gt Binary64.one_real_pos) level')

theorem lessEq_iff (ha : a.value? = some x) (hb : b.value? = some y) :
    a.lessEq b = true ↔ x ≤ y := by
  rw [lessEq, Bool.or_eq_true, less_iff ha hb, equal_iff ha hb, le_iff_lt_or_eq]

end Number

/-! ## Rows of numbers -/

namespace Arithmetic

/-- Numbers are what the operations on numbers take. -/
theorem numbers_map (operation : Builtin) (ns : List Number) :
    numbers operation (ns.map .number) = .ok ns := by
  induction ns with
  | nil => rfl
  | cons n ns ih =>
    rw [List.map_cons, numbers, ih]
    rfl

/-- A comparison of at least one number has an answer. -/
theorem comparison_map (operation : Builtin) (related : Number → Number → Bool) {ns : List Number}
    (hne : ns ≠ []) :
    comparison operation related (ns.map .number) = .ok (.bool (chained related ns)) := by
  have hargs : (ns.map Value.number).isEmpty = false := by simpa using hne
  rw [comparison, hargs, numbers_map]
  rfl

theorem chained_iff_isChain (related : Number → Number → Bool) (ns : List Number) :
    chained related ns = true ↔ ns.IsChain (related · · = true) := by
  induction ns using chained.induct with
  | case1 a b ns ih => rw [chained, Bool.and_eq_true, ih, List.isChain_cons_cons]
  | case2 ns h =>
    match ns, h with
    | [], _ => simp [chained]
    | [a], _ => simp [chained]
    | a :: b :: ns, h => exact absurd rfl (h a b ns)

/-- Read backwards, a row is a chain of the opposite relation. -/
theorem chained_reverse (related : Number → Number → Bool) (ns : List Number) :
    chained (fun a b => related b a) ns = chained related ns.reverse := by
  rw [Bool.eq_iff_iff, chained_iff_isChain, chained_iff_isChain, List.isChain_reverse]

/-- Neighbours are related exactly if all pairs of values are, in a transitive order of values. -/
theorem chained_iff {related : Number → Number → Bool} {r : EReal → EReal → Prop} [IsTrans EReal r]
    (hrelated : ∀ {a b x y}, a.value? = some x → b.value? = some y → (related a b = true ↔ r x y))
    {ns : List Number} {values : List EReal} (h : ns.Forall₂ (·.value? = some ·) values) :
    chained related ns = true ↔ values.Pairwise r := by
  rw [← List.isChain_iff_pairwise]
  induction h with
  | nil => simp [chained]
  | cons ha h ih =>
    cases h with
    | nil => simp [chained]
    | cons hb h => rw [chained, Bool.and_eq_true, hrelated ha hb, ih, List.isChain_cons_cons]

end Arithmetic

/-! ## Answers -/

namespace Builtin

/-- The operation answers this. -/
def Answers (operation : Builtin) (args : List Value) (answer : Bool) : Prop :=
  operation.Gives args (.ok (.bool answer))

/-- The operation answers whether `p` holds. -/
def Decides (operation : Builtin) (args : List Value) (p : Prop) : Prop :=
  ∃ answer, operation.Answers args answer ∧ (answer = true ↔ p)

variable {operation : Builtin} {args : List Value} {p q : Prop}

/-- An operation has one answer. -/
theorem Answers.unique {answer answer' : Bool} (h : operation.Answers args answer)
    (h' : operation.Answers args answer') : answer = answer' :=
  Value.bool.inj (Except.ok.inj (Gives.unique h h'))

theorem Decides.iff (h : operation.Decides args p) (h' : operation.Decides args q) : p ↔ q := by
  obtain ⟨answer, hanswer, hp⟩ := h
  obtain ⟨answer', hanswer', hq⟩ := h'
  obtain rfl := hanswer.unique hanswer'
  exact hp.symm.trans hq

theorem Decides.of_iff (h : operation.Decides args p) (hpq : p ↔ q) : operation.Decides args q := by
  obtain ⟨answer, hanswer, hp⟩ := h
  exact ⟨answer, hanswer, hp.trans hpq⟩

/-- A comparison answers what its test says of neighbours. -/
theorem answers_comparison {related : Number → Number → Bool} {ns : List Number}
    (hplain : operation.plain? = some (Arithmetic.comparison operation related)) (hne : ns ≠ []) :
    operation.Answers (ns.map .number) (Arithmetic.chained related ns) :=
  gives_plain hplain (Arithmetic.comparison_map operation related hne)

/-- To compare in the opposite order is to compare what is given backwards. -/
theorem answers_reverse_iff {opposite : Builtin} {related : Number → Number → Bool}
    {ns : List Number} (hplain : operation.plain? = some (Arithmetic.comparison operation related))
    (hopposite : opposite.plain? = some (Arithmetic.comparison opposite fun a b => related b a))
    (hne : ns ≠ []) (answer : Bool) :
    opposite.Answers (ns.map .number) answer ↔
      operation.Answers (ns.reverse.map .number) answer := by
  have hopposite := answers_comparison hopposite hne
  have hreverse := answers_comparison hplain (List.reverse_ne_nil_iff.2 hne)
  rw [Arithmetic.chained_reverse] at hopposite
  constructor <;> intro hanswer
  · exact hanswer.unique hopposite ▸ hreverse
  · exact hanswer.unique hreverse ▸ hopposite

/-- Of two numbers with values, each operation decides what it is named for. -/
theorem decides_pair {a b : Number} {x y : EReal} (ha : a.value? = some x)
    (hb : b.value? = some y) :
    less.Decides [.number a, .number b] (x < y) ∧ equal.Decides [.number a, .number b] (x = y) ∧
      greater.Decides [.number a, .number b] (y < x) ∧
      lessEq.Decides [.number a, .number b] (x ≤ y) := by
  have hsingle : ∀ related : Number → Number → Bool,
      Arithmetic.chained related [a, b] = related a b := fun related => Bool.and_true _
  have hall : allEqual [.number a, .number b] = a.equal b := Bool.and_true _
  refine ⟨⟨_, answers_comparison rfl (List.cons_ne_nil a [b]), ?_⟩, ⟨_, gives_plain rfl rfl, ?_⟩,
    ⟨_, answers_comparison rfl (List.cons_ne_nil a [b]), ?_⟩,
    ⟨_, answers_comparison rfl (List.cons_ne_nil a [b]), ?_⟩⟩
  · rw [hsingle, Number.less_iff ha hb]
  · rw [hall, Number.equal_iff ha hb]
  · rw [hsingle, Number.less_iff hb ha]
  · rw [hsingle, Number.lessEq_iff ha hb]

/-- The operation that asks whether two numbers lie in this way. -/
def ofOrdering : Ordering → Builtin
  | .lt => less
  | .eq => equal
  | .gt => greater

/-- Of the operations that ask how two values lie, one is true. -/
theorem existsUnique_ofOrdering {x y : EReal}
    (h : ∀ order, (ofOrdering order).Decides args (order.Compares x y)) :
    ∃! order, (ofOrdering order).Decides args True :=
  ⟨cmp x y, (h _).of_iff (iff_true_intro (cmp_compares x y)), fun order horder =>
    Ordering.Compares.inj (((h order).iff horder).2 trivial) (cmp_compares x y)⟩

/-- **Comparison is a test for a total order.** Let numbers be given that have values, that is no
`nan`: whole numbers of any size, binary64 numbers and infinities.

* Of one number or more, each operation answers whether every two of them, in this order, have
  values in the relation that it is named for.
* To ask whether they fall is to ask whether they rise when they are taken backwards.
* Of any two numbers, exactly one is true: that the first is less, that they are equal, that it is
  greater. And that it is less or equal is to deny that it is greater. -/
theorem comparison_totalOrder :
    (∀ (ns : List Number) (values : List EReal), ns ≠ [] →
      ns.Forall₂ (·.value? = some ·) values →
        less.Decides (ns.map .number) (values.Pairwise (· < ·)) ∧
        lessEq.Decides (ns.map .number) (values.Pairwise (· ≤ ·)) ∧
        greater.Decides (ns.map .number) (values.Pairwise (· > ·)) ∧
        greaterEq.Decides (ns.map .number) (values.Pairwise (· ≥ ·)) ∧
        ∀ answer,
          (greater.Answers (ns.map .number) answer ↔ less.Answers (ns.reverse.map .number) answer) ∧
          (greaterEq.Answers (ns.map .number) answer ↔
            lessEq.Answers (ns.reverse.map .number) answer)) ∧
    ∀ (a b : Number) (x y : EReal), a.value? = some x → b.value? = some y →
      let args : List Value := [.number a, .number b]
      (∃! order, (ofOrdering order).Decides args True) ∧
        less.Decides args (x < y) ∧ equal.Decides args (x = y) ∧ greater.Decides args (y < x) ∧
        lessEq.Decides args (x ≤ y) ∧
        ∃ answer answer', greater.Answers args answer ∧ negation.Answers [.bool answer] answer' ∧
          lessEq.Answers args answer' := by
  refine ⟨?_, ?_⟩
  · intro ns values hne hvalues
    have hdecides : ∀ {operation : Builtin} {related : Number → Number → Bool}
        {r : EReal → EReal → Prop} [IsTrans EReal r],
        operation.plain? = some (Arithmetic.comparison operation related) →
        (∀ {a b x y}, a.value? = some x → b.value? = some y → (related a b = true ↔ r x y)) →
          operation.Decides (ns.map .number) (values.Pairwise r) := fun hplain hrelated =>
      ⟨_, answers_comparison hplain hne, Arithmetic.chained_iff hrelated hvalues⟩
    exact ⟨hdecides rfl Number.less_iff, hdecides rfl Number.lessEq_iff,
      hdecides rfl fun ha hb => Number.less_iff hb ha,
      hdecides rfl fun ha hb => Number.lessEq_iff hb ha, fun answer =>
        ⟨answers_reverse_iff rfl rfl hne answer, answers_reverse_iff rfl rfl hne answer⟩⟩
  · intro a b x y ha hb args
    obtain ⟨hless, hequal, hgreater, hlessEq⟩ := decides_pair ha hb
    have hordering : ∀ order, (ofOrdering order).Decides args (order.Compares x y)
      | .lt => hless
      | .eq => hequal
      | .gt => hgreater
    refine ⟨existsUnique_ofOrdering hordering, hless, hequal, hgreater, hlessEq, ?_⟩
    obtain ⟨answer, hanswer, hiff⟩ := hgreater
    obtain ⟨answer', hanswer', hiff'⟩ := hlessEq
    have hnot : answer' = !answer := by
      rw [Bool.eq_iff_iff, hiff', ← not_lt, ← hiff, Bool.not_eq_true, Bool.not_eq_true']
    refine ⟨answer, answer', hanswer, ?_, hanswer'⟩
    rw [hnot]
    exact gives_plain rfl rfl

/-- Beyond `2 ^ 53`, where a whole number may have no binary64 number of its own, a row still rises.
Turned into the nearest one, the second number would be the first. -/
theorem comparison_totalOrder_beyond :
    let ns : List Number :=
      [.float (.ofInt 9007199254740992), .int 9007199254740993, .float (.infinite false)]
    Binary64.ofInt 9007199254740993 = .ofInt 9007199254740992 ∧ less.Decides (ns.map .number) True ∧
      ∃! order, (ofOrdering order).Decides
        [.float (.ofInt 9007199254740992), .int 9007199254740993] True := by
  intro ns
  have hplace : (Number.float (.ofInt 9007199254740992)).level? =
      (Number.int 9007199254740992).level? := by decide +kernel
  have hfirst : (Number.float (.ofInt 9007199254740992)).value? =
      some ((9007199254740992 : ℝ) : EReal) := by
    rw [Number.value?_eq, hplace, ← Number.value?_eq]
    simp [Number.value?]
  have hsecond : (Number.int 9007199254740993).value? =
      some ((9007199254740993 : ℝ) : EReal) := by
    simp [Number.value?]
  have hlt : ((9007199254740992 : ℝ) : EReal) < ((9007199254740993 : ℝ) : EReal) :=
    EReal.coe_lt_coe_iff.2 (by norm_num)
  obtain ⟨hless, -⟩ := comparison_totalOrder.1 ns
    [((9007199254740992 : ℝ) : EReal), ((9007199254740993 : ℝ) : EReal), ⊤]
    (List.cons_ne_nil _ _) (.cons hfirst (.cons hsecond (.cons rfl .nil)))
  refine ⟨by decide +kernel, hless.of_iff ?_, (comparison_totalOrder.2 _ _ _ _ hfirst hsecond).1⟩
  simp [hlt, EReal.coe_lt_top]

end Builtin

end SmallLisp
