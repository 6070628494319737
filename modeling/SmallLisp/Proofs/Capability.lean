import SmallLisp.Builtin.Plain
import SmallLisp.Expansion
import SmallLisp.Proofs.Inversion
import SmallLisp.Proofs.Rounding

/-!
# What a value gives access to

A value is a finite tree, but some of its nodes reach beyond it: a function runs its body in the
frame it was made in, a host function does what the host lets it do, a transformer makes forms, and
a scope is a frame. These nodes are the **capabilities** of the value, and a run can get at a frame
only through one that it holds.

* `Value.capabilities`: all of them, also those inside a function's parameters and body and the
  target of a transformer.
* `Value.Every p`: each of them satisfies `p`. The equations below take `Every` through the
  constructors, and nothing behind them unfolds it.
* `Fault.Ordinary`: the faults that every program can run into, whatever it holds.
* `Orderly x q`: the computation has a result with `q` or ends with an ordinary fault.
* `Builtin.orderly_plain`: an operation without effects makes no capability. What its result gives
  access to, an argument gave access to; and all its faults are ordinary.
-/

namespace SmallLisp

/-! ## Capabilities -/

namespace Value

mutual

/-- The callables and scopes in a value. -/
def capabilities : Value → List Value
  | .list items => capabilitiesAll items
  | .vector items => capabilitiesAll items
  | .map entries => capabilitiesEntries entries
  | .function serial params body home =>
    .function serial params body home :: (params.capabilities ++ capabilitiesAll body)
  | .host serial operation => [.host serial operation]
  | .transformer serial target => .transformer serial target :: target.capabilities
  | .environment frame => [.environment frame]
  | _ => []

/-- The callables and scopes in several values. -/
def capabilitiesAll : List Value → List Value
  | [] => []
  | value :: values => value.capabilities ++ capabilitiesAll values

/-- The callables and scopes in the keys and values of a map. -/
def capabilitiesEntries : Entries → List Value
  | [] => []
  | (key, value) :: entries =>
    key.capabilities ++ (value.capabilities ++ capabilitiesEntries entries)

end

theorem mem_capabilitiesAll {c : Value} {values : List Value} :
    c ∈ capabilitiesAll values ↔ ∃ value ∈ values, c ∈ value.capabilities := by
  induction values with
  | nil => simp [capabilitiesAll]
  | cons value values ih => simp [capabilitiesAll, ih]

theorem mem_capabilitiesEntries {c : Value} {entries : Entries} :
    c ∈ capabilitiesEntries entries ↔
      ∃ entry ∈ entries, c ∈ entry.1.capabilities ∨ c ∈ entry.2.capabilities := by
  induction entries with
  | nil => simp [capabilitiesEntries]
  | cons entry entries ih =>
    obtain ⟨key, value⟩ := entry
    simp [capabilitiesEntries, ih, or_assoc]

/-- All callables and scopes in the value satisfy `p`. -/
def Every (p : Value → Prop) (value : Value) : Prop :=
  ∀ c ∈ value.capabilities, p c

section every

variable {p q : Value → Prop}

theorem Every.mono {value : Value} (h : value.Every p) (hpq : ∀ c, p c → q c) : value.Every q :=
  fun c hc => hpq c (h c hc)

@[simp] theorem every_nil : Value.nil.Every p := fun _ hc => nomatch hc

@[simp] theorem every_bool (b : Bool) : (Value.bool b).Every p := fun _ hc => nomatch hc

@[simp] theorem every_number (n : Number) : (Value.number n).Every p := fun _ hc => nomatch hc

@[simp] theorem every_str (text : String) : (Value.str text).Every p := fun _ hc => nomatch hc

@[simp] theorem every_symbol (name : String) : (Value.symbol name).Every p :=
  fun _ hc => nomatch hc

@[simp] theorem every_keyword (name : String) : (Value.keyword name).Every p :=
  fun _ hc => nomatch hc

@[simp] theorem every_list (items : List Value) :
    (Value.list items).Every p ↔ ∀ item ∈ items, item.Every p := by
  show (∀ c ∈ capabilitiesAll items, p c) ↔ _
  simp only [mem_capabilitiesAll]
  exact ⟨fun h item hitem c hc => h c ⟨item, hitem, hc⟩,
    fun h c ⟨item, hitem, hc⟩ => h item hitem c hc⟩

@[simp] theorem every_vector (items : List Value) :
    (Value.vector items).Every p ↔ ∀ item ∈ items, item.Every p :=
  every_list items

@[simp] theorem every_map (entries : Entries) :
    (Value.map entries).Every p ↔ ∀ entry ∈ entries, entry.1.Every p ∧ entry.2.Every p := by
  show (∀ c ∈ capabilitiesEntries entries, p c) ↔ _
  simp only [mem_capabilitiesEntries]
  constructor
  · intro h entry hentry
    exact ⟨fun c hc => h c ⟨entry, hentry, .inl hc⟩, fun c hc => h c ⟨entry, hentry, .inr hc⟩⟩
  · rintro h c ⟨entry, hentry, hc | hc⟩
    · exact (h entry hentry).1 c hc
    · exact (h entry hentry).2 c hc

theorem every_function {serial : Nat} {params : Value} {body : List Value} {home : FrameId} :
    (Value.function serial params body home).Every p ↔
      p (.function serial params body home) ∧ params.Every p ∧ ∀ form ∈ body, form.Every p := by
  rw [← every_list]
  show (∀ c ∈ _ :: (params.capabilities ++ capabilitiesAll body), p c) ↔ _
  rw [List.forall_mem_cons, List.forall_mem_append]
  rfl

theorem every_host {serial : Nat} {operation : HostOperation} :
    (Value.host serial operation).Every p ↔ p (.host serial operation) :=
  List.forall_mem_singleton

theorem every_transformer {serial : Nat} {target : Value} :
    (Value.transformer serial target).Every p ↔ p (.transformer serial target) ∧ target.Every p :=
  List.forall_mem_cons

theorem every_environment {frame : FrameId} :
    (Value.environment frame).Every p ↔ p (.environment frame) :=
  List.forall_mem_singleton

/-- The items of a collection give no access beyond it. -/
theorem every_of_mem_items? {value : Value} {items : List Value} (h : value.items? = some items)
    (hvalue : value.Every p) : ∀ item ∈ items, item.Every p := by
  cases value with
  | nil =>
    cases h
    simp
  | list | vector =>
    cases h
    simpa using hvalue
  | map entries =>
    cases h
    intro item hitem
    obtain ⟨entry, hentry, rfl⟩ := List.mem_map.1 hitem
    simpa [ofEntry] using (every_map entries).1 hvalue entry hentry
  | bool | number | str | symbol | keyword | function | host | transformer | environment => cases h

end every

end Value

/-! ## Maps -/

namespace Entries

variable {p : Value → Prop}

/-- A map gives no access beyond its keys and values. -/
theorem every_ofFlat? {flat : List Value} {entries : Entries} (h : ofFlat? flat = some entries)
    (hflat : ∀ value ∈ flat, value.Every p) : (Value.map entries).Every p :=
  (Value.every_map entries).2 (within_ofFlat? h hflat)

theorem every_of_get? {entries : Entries} {key value : Value} (h : get? entries key = some value)
    (hentries : (Value.map entries).Every p) : value.Every p := by
  obtain ⟨entry, hentry, rfl⟩ := Option.map_eq_some_iff.1 h
  exact ((Value.every_map entries).1 hentries entry (List.mem_of_find?_eq_some hentry)).2

end Entries

/-! ## Operations without effects -/

/-- The operations that can meet a whole number beyond the binary64 format. -/
def Builtin.Rounds (operation : Builtin) : Prop :=
  operation ∈ [add, sub, mul, div]

/-- The faults that every program can run into: not those of a text, of a form out of shape, of a
pattern that is none, of a host that calls what it cannot call, or of a part that is missing. Only
arithmetic overflows, and only on a whole number beyond the binary64 format. -/
def Fault.Ordinary : Fault → Prop
  | .read _ | .shape .. | .definition .. | .uncallable | .notRoot => False
  | .missingPart | .missingArgument _ => False
  | .bind (.notName _) | .bind (.target _) => False
  | .overflow operation n => operation.Rounds ∧ Binary64.Oversized n
  | _ => True

/-- The computation has a result with `q` or ends with an ordinary fault. -/
def Orderly {α : Type} (x : Except Fault α) (q : α → Prop) : Prop :=
  match x with
  | .ok a => q a
  | .error fault => fault.Ordinary

theorem Orderly.bind {α β : Type} {x : Except Fault α} {f : α → Except Fault β} {q : α → Prop}
    {r : β → Prop} (hx : Orderly x q) (hf : ∀ a, q a → Orderly (f a) r) : Orderly (x >>= f) r := by
  cases x with
  | ok a => exact hf a hx
  | error fault => exact hx

theorem Orderly.mono {α : Type} {x : Except Fault α} {q r : α → Prop} (hx : Orderly x q)
    (hqr : ∀ a, q a → r a) : Orderly x r := by
  cases x with
  | ok a => exact hqr a hx
  | error fault => exact hx

/-! ### Numbers -/

/-- The operation overflows only on a whole number beyond the binary64 format. -/
def Number.Bounded (op : Number → Number → Except ArithmeticError Number) : Prop :=
  ∀ a b n, op a b = .error (.overflow n) → Binary64.Oversized n

namespace Number

theorem infinite_of_finiteFor {m n : Int} {x : Binary64}
    (h : finiteFor m x = .error (.overflow n)) : n = m ∧ ∃ negative, x = .infinite negative := by
  cases x with
  | infinite negative =>
    cases h
    exact ⟨rfl, negative, rfl⟩
  | nan | finite => cases h

theorem oversized_of_toBinary64 {a : Number} {n : Int} (h : a.toBinary64 = .error (.overflow n)) :
    Binary64.Oversized n := by
  cases a with
  | float x => cases h
  | int m =>
    obtain ⟨rfl, negative, hinfinite⟩ := infinite_of_finiteFor h
    exact Binary64.ofInt_infinite hinfinite

/-- Turning two numbers can overflow only on one of them. -/
theorem oversized_of_both {a b : Number} {n : Int}
    {op : Binary64 → Binary64 → Except ArithmeticError Number}
    (hop : ∀ x y, op x y ≠ .error (.overflow n))
    (h : (do
      let x ← a.toBinary64
      let y ← b.toBinary64
      op x y) = .error (.overflow n)) : Binary64.Oversized n := by
  cases ha : a.toBinary64 with
  | error reason =>
    rw [ha] at h
    cases h
    exact oversized_of_toBinary64 ha
  | ok x =>
    cases hb : b.toBinary64 with
    | error reason =>
      rw [ha, hb] at h
      cases h
      exact oversized_of_toBinary64 hb
    | ok y =>
      rw [ha, hb] at h
      exact absurd h (hop x y)

theorem bounded_viaBinary64 (op : Binary64 → Binary64 → Binary64) : Bounded (viaBinary64 op) :=
  fun _ _ _ h => oversized_of_both (fun _ _ hop => by cases hop) h

/-- An operation that has a whole number for two of them, and for others is one of binary64
numbers. -/
theorem bounded_of_int (g : Int → Int → Int) (op : Binary64 → Binary64 → Binary64) :
    Bounded fun
      | .int a, .int b => .ok (.int (g a b))
      | a, b => viaBinary64 op a b := by
  rintro (a | x) (b | y) n h
  · cases h
  all_goals exact bounded_viaBinary64 op _ _ n h

theorem bounded_add : Bounded add :=
  bounded_of_int (· + ·) Binary64.add

theorem bounded_sub : Bounded sub :=
  bounded_of_int (· - ·) Binary64.sub

theorem bounded_mul : Bounded mul :=
  bounded_of_int (· * ·) Binary64.mul

theorem bounded_div : Bounded div := by
  intro a b n h
  unfold div at h
  split at h
  · rename_i a b
    split at h
    · cases h
    · rename_i hb
      cases hx : finiteFor a (Binary64.ofRatio ((a < 0) != (b < 0)) a.natAbs b.natAbs) with
      | error reason =>
        rw [hx] at h
        cases h
        obtain ⟨rfl, negative, hinfinite⟩ := infinite_of_finiteFor hx
        exact Binary64.ofRatio_infinite (Int.natAbs_pos.2 hb) hinfinite
      | ok x =>
        rw [hx] at h
        cases h
  · refine oversized_of_both (fun x y hop => ?_) h
    cases hzero : y.isZero <;> simp [hzero] at hop <;> cases hop

end Number

namespace Arithmetic

/-- There are as many numbers as arguments. -/
theorem orderly_numbers (operation : Builtin) (args : List Value) :
    Orderly (numbers operation args) fun ns => ns.length = args.length := by
  induction args using numbers.induct with
  | case1 => exact rfl
  | case2 n args ih =>
    rw [numbers]
    exact ih.bind fun _ hlength => congrArg (· + 1) hlength
  | case3 given args hgiven =>
    rw [numbers.eq_3 operation given args hgiven]
    exact trivial

theorem ordinary_of_foldlM {operation : Builtin} (hoperation : operation.Rounds)
    {op : Number → Number → Except ArithmeticError Number} (hop : Number.Bounded op)
    {reason : ArithmeticError} (args : List Number) {start : Number}
    (h : args.foldlM op start = .error reason) : (faultOf operation reason).Ordinary := by
  cases reason with
  | divisionByZero => exact trivial
  | overflow n =>
    refine ⟨hoperation, ?_⟩
    induction args generalizing start with
    | nil => cases h
    | cons arg args ih =>
      rw [List.foldlM_cons] at h
      cases hnext : op start arg with
      | error reason =>
        rw [hnext] at h
        cases h
        exact hop start arg n hnext
      | ok next =>
        rw [hnext] at h
        exact ih h

theorem orderly_foldFrom {p : Value → Prop} {operation : Builtin} (hoperation : operation.Rounds)
    {op : Number → Number → Except ArithmeticError Number} (hop : Number.Bounded op)
    (start : Number) (args : List Number) :
    Orderly (foldFrom operation op start args) (·.Every p) := by
  unfold foldFrom
  split
  · exact Value.every_number _
  · exact ordinary_of_foldlM hoperation hop args (by assumption)

theorem orderly_difference {p : Value → Prop} (args : List Value) :
    Orderly (difference args) (·.Every p) := by
  unfold difference
  split
  · exact trivial
  · rename_i hargs
    apply (orderly_numbers .sub args).bind
    intro ns hlength
    split
    · exact Value.every_number _
    · exact orderly_foldFrom (by simp [Builtin.Rounds]) Number.bounded_sub _ _
    · exact absurd (List.isEmpty_iff_length_eq_zero.2 hlength.symm) hargs

theorem orderly_quotient {p : Value → Prop} (args : List Value) :
    Orderly (quotient args) (·.Every p) := by
  have hdiv : Builtin.div.Rounds := by simp [Builtin.Rounds]
  unfold quotient
  split
  · exact trivial
  · rename_i hargs
    apply (orderly_numbers .div args).bind
    intro ns hlength
    split
    · exact orderly_foldFrom hdiv Number.bounded_div _ _
    · exact orderly_foldFrom hdiv Number.bounded_div _ _
    · exact absurd (List.isEmpty_iff_length_eq_zero.2 hlength.symm) hargs

theorem orderly_comparison {p : Value → Prop} (operation : Builtin)
    (related : Number → Number → Bool) (args : List Value) :
    Orderly (comparison operation related args) (·.Every p) := by
  unfold comparison
  split
  · exact trivial
  · exact (orderly_numbers operation args).bind fun _ _ => Value.every_bool _

end Arithmetic

namespace Collection

variable {p : Value → Prop}

theorem orderly_items (operation : Builtin) {given : Value} (h : given.Every p) :
    Orderly (items operation given) fun items => ∀ item ∈ items, item.Every p := by
  unfold items
  split
  · exact Value.every_of_mem_items? (by assumption) h
  · exact trivial

theorem every_of_itemAt? {items : List Value} {index : Int} {item : Value}
    (hitem : itemAt? items index = some item) (h : ∀ item ∈ items, item.Every p) :
    item.Every p := by
  unfold itemAt? at hitem
  split at hitem
  · cases hitem
  · exact h item (List.mem_of_getElem? hitem)

theorem orderly_nthOr {given index : Value} {otherwise : Option Value} (hgiven : given.Every p)
    (hotherwise : ∀ value ∈ otherwise, value.Every p) :
    Orderly (nthOr given index otherwise) (·.Every p) := by
  unfold nthOr
  split
  · apply (orderly_items .nth hgiven).bind
    intro items hitems
    split
    · exact every_of_itemAt? (by assumption) hitems
    · split
      · exact hotherwise _ rfl
      · exact trivial
  · exact trivial

theorem every_getOr {given key otherwise : Value} (hgiven : given.Every p)
    (hotherwise : otherwise.Every p) : (getOr given key otherwise).Every p := by
  unfold getOr
  split
  · rename_i entries
    cases hget : Entries.get? entries key with
    | none => exact hotherwise
    | some value => exact Entries.every_of_get? hget hgiven
  · rename_i items index
    cases hitem : itemAt? items index with
    | none => exact hotherwise
    | some value => exact every_of_itemAt? hitem ((Value.every_vector items).1 hgiven)
  · exact hotherwise

theorem orderly_first {args : List Value} (hargs : ∀ arg ∈ args, arg.Every p) :
    Orderly (first args) (·.Every p) := by
  unfold first
  split
  · apply (orderly_items .first (hargs _ List.mem_cons_self)).bind
    intro items hitems
    cases items with
    | nil => exact Value.every_nil
    | cons item items => exact hitems item List.mem_cons_self
  · exact trivial

theorem orderly_rest {args : List Value} (hargs : ∀ arg ∈ args, arg.Every p) :
    Orderly (rest args) (·.Every p) := by
  unfold rest
  split
  · apply (orderly_items .rest (hargs _ List.mem_cons_self)).bind
    intro items hitems
    exact (Value.every_list _).2 fun item hitem => hitems item (List.mem_of_mem_tail hitem)
  · exact trivial

theorem orderly_cons {args : List Value} (hargs : ∀ arg ∈ args, arg.Every p) :
    Orderly (cons args) (·.Every p) := by
  unfold cons
  split
  · rename_i head given
    have hgiven := hargs given (by simp)
    apply (orderly_items .cons hgiven).bind
    intro items hitems
    exact (Value.every_list _).2 (List.forall_mem_cons.2 ⟨hargs head (by simp), hitems⟩)
  · exact trivial

theorem orderly_nth {args : List Value} (hargs : ∀ arg ∈ args, arg.Every p) :
    Orderly (nth args) (·.Every p) := by
  unfold nth
  split
  · exact orderly_nthOr (hargs _ List.mem_cons_self) (by simp)
  · rename_i given index otherwise
    exact orderly_nthOr (hargs _ List.mem_cons_self) (by simpa using hargs otherwise (by simp))
  · exact trivial

theorem orderly_get {args : List Value} (hargs : ∀ arg ∈ args, arg.Every p) :
    Orderly (get args) (·.Every p) := by
  unfold get
  split
  · exact every_getOr (hargs _ List.mem_cons_self) Value.every_nil
  · rename_i given key otherwise
    exact every_getOr (hargs _ List.mem_cons_self) (hargs otherwise (by simp))
  · exact trivial

theorem orderly_count (args : List Value) : Orderly (count args) (·.Every p) := by
  unfold count
  split
  · split
    · exact Value.every_number _
    · exact trivial
  · exact trivial

theorem orderly_hashMap {args : List Value} (hargs : ∀ arg ∈ args, arg.Every p) :
    Orderly (hashMap args) (·.Every p) := by
  unfold hashMap
  split
  · exact Entries.every_ofFlat? (by assumption) hargs
  · exact trivial

end Collection

theorem orderly_predicate {p : Value → Prop} (operation : Builtin) (test : Value → Bool)
    (args : List Value) : Orderly (predicate operation test args) (·.Every p) := by
  unfold predicate
  split
  · exact Value.every_bool _
  · exact trivial

/-- **An operation without effects makes no capability**, and all its faults are ordinary. -/
theorem Builtin.orderly_plain {p : Value → Prop} {operation : Builtin}
    {compute : List Value → Except Fault Value} (h : operation.plain? = some compute)
    {args : List Value} (hargs : ∀ arg ∈ args, arg.Every p) :
    Orderly (compute args) (·.Every p) := by
  cases operation <;> simp only [Builtin.plain?, Option.some.injEq, reduceCtorEq] at h <;> subst h
  case add =>
    exact (Arithmetic.orderly_numbers _ _).bind fun _ _ =>
      Arithmetic.orderly_foldFrom (by simp [Builtin.Rounds]) Number.bounded_add _ _
  case mul =>
    exact (Arithmetic.orderly_numbers _ _).bind fun _ _ =>
      Arithmetic.orderly_foldFrom (by simp [Builtin.Rounds]) Number.bounded_mul _ _
  case sub => exact Arithmetic.orderly_difference args
  case div => exact Arithmetic.orderly_quotient args
  case equal | notEqual => exact Value.every_bool _
  case less | lessEq | greater | greaterEq => exact Arithmetic.orderly_comparison _ _ args
  case list => exact (Value.every_list args).2 hargs
  case vector => exact (Value.every_vector args).2 hargs
  case hashMap => exact Collection.orderly_hashMap hargs
  case first => exact Collection.orderly_first hargs
  case rest => exact Collection.orderly_rest hargs
  case cons => exact Collection.orderly_cons hargs
  case nth => exact Collection.orderly_nth hargs
  case get => exact Collection.orderly_get hargs
  case count => exact Collection.orderly_count args
  case negation | isSymbol | isKeyword | isNil | isList | isVector | isMap | isFunction =>
    exact orderly_predicate _ _ args

/-! ## Expansion -/

/-- The parts of a definition give no access beyond its operands. -/
theorem Expander.every_parts {p : Value → Prop} {expander : Expander} {operands : List Value}
    {name : String} {params body : List Value}
    (h : expander.parts operands = .ok (name, params, body))
    (hoperands : ∀ operand ∈ operands, operand.Every p) :
    (∀ param ∈ params, param.Every p) ∧ ∀ form ∈ body, form.Every p := by
  unfold parts at h
  split at h
  · split at h <;> cases h
    simp only [List.mem_cons, forall_eq_or_imp, Value.every_vector] at hoperands
    exact ⟨hoperands.2.1, by simpa using hoperands.2.2⟩
  · cases h

/-- A form that a library transformer makes gives access to what its operands give access to, and
to the operation that makes transformers. -/
theorem Expander.every_expand {p : Value → Prop} {expander : Expander} {operands : List Value}
    {form : Value} (h : expander.expand operands = .ok form)
    (hoperands : ∀ operand ∈ operands, operand.Every p) (hmaker : p transformerMaker) :
    form.Every p := by
  cases expander with
  | remark =>
    cases h
    exact Value.every_nil
  | defineFunction =>
    obtain ⟨⟨name, params, body⟩, hparts, hform⟩ := exists_of_bind_eq_ok h
    cases hform
    obtain ⟨hparams, hbody⟩ := every_parts hparts hoperands
    simpa [defForm, fnForm] using ⟨hparams, hbody⟩
  | defineTransformer =>
    obtain ⟨⟨name, params, body⟩, hparts, hform⟩ := exists_of_bind_eq_ok h
    cases hform
    obtain ⟨hparams, hbody⟩ := every_parts hparts hoperands
    have hhost : transformerMaker.Every p := Value.every_host.2 hmaker
    simpa [defForm, fnForm] using ⟨hhost, hparams, hbody⟩

end SmallLisp
