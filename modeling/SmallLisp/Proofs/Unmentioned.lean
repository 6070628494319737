import Mathlib.Order.CompleteBooleanAlgebra
import Mathlib.Order.CompletePartialOrder
import SmallLisp.Proofs.CoupledEvaluation
import SmallLisp.Proofs.Discretion
import SmallLisp.Proofs.ShapeSafety

/-!
# Names that nothing mentions

If nothing in a session mentions a name, then it does not matter what the session binds it to. That
goes for the names that the library's transformers put into the forms they make, too: the name of
a special form is not looked up, the parameters that `defmacro` adds are not asked for, and the
operation that makes transformers stands in the form as a value.

* `Oblivion.Twins`: machines that differ in one binding, with discreet values under all names that
  are asked for.
* `Oblivion.coupling`: this is a coupling. What a library transformer makes is not discreet, so its
  calls are followed by themselves (`Oblivion.couples_library`).
* **`Session.evalForm_unmentioned`**: the value of a form does not depend on the binding.
-/

namespace SmallLisp

/-- The machines differ at most in whether and to what one frame binds one name. -/
structure Machine.SameBut (root : FrameId) (s : String) (m m' : Machine) : Prop where
  store : Store.SameBut root s m.store m'.store
  serial : m'.serial = m.serial
  calls : m'.calls = m.calls
  log : m'.log = m.log
  verbose : m'.verbose = m.verbose

namespace Oblivion

open Value (Discreet discreet_symbol discreet_list discreet_vector discreet_map discreet_function)

variable {names : List String} {s : String} {root : FrameId} {m m' : Machine}

/-! ## The relation -/

/-- The values are the same, and discreet. -/
def Same (names : List String) (a a' : Value) : Prop :=
  a = a' ∧ a.Discreet names

/-- The machines differ in one binding, and what is asked for is discreet. -/
structure Twins (names : List String) (s : String) (root : FrameId) (m m' : Machine) : Prop where
  same : m.SameBut root s m'
  grants : m.store.Grants names (Discreet names)

theorem likeness (names : List String) : Likeness (Same names) :=
  likeness_eq_and ⟨rfl, by simp⟩ (fun _ => ⟨rfl, by simp⟩) (fun _ => ⟨rfl, by simp⟩)
    (fun _ => ⟨rfl, by simp⟩) discreet_list discreet_vector discreet_map

theorem same_symbol {name : String} (h : name ∉ names) :
    Same names (.symbol name) (.symbol name) :=
  ⟨rfl, discreet_symbol.2 h⟩

theorem eq_and_parameter_of_target {param param' : Value}
    (h : Likeness.Target (Same names) param param') :
    param = param' ∧ param.Parameter names := by
  rcases h with ⟨rfl, hparam⟩ | ⟨name, rfl, rfl⟩
  · exact ⟨rfl, .inl hparam⟩
  · exact ⟨rfl, .inr ⟨name, rfl⟩⟩

theorem target_of_parameter {param : Value} (h : param.Parameter names) :
    Likeness.Target (Same names) param param := by
  rcases h with hparam | ⟨name, rfl⟩
  · exact .inl ⟨rfl, hparam⟩
  · exact .inr ⟨name, rfl, rfl⟩

/-! ## The coupling -/

/-- Runs on machines that differ in one binding. -/
def coupling (names : List String) (s : String) (root : FrameId) (hs : s ∈ names) :
    Coupling Unit where
  Like _ := Same names
  Twins _ := Twins names s root
  Scope _ := Eq
  Opens _ id id' := id = id' ∧ id ≠ root
  Admits _ name a a' := a = a' ∧ (name ∉ names → a.Discreet names)
  Fresh _ := Eq
  likeness _ := likeness names
  like_mono _ h := h
  scope_mono _ h := h
  opens_mono _ h := h
  opens_scope h := h.1
  admits_mono _ h := h
  admits_of_like h := ⟨h.1, fun _ => h.2⟩
  verbose h := h.same.verbose.symm
  push {w m m' outer outer'} h hscope := by
    cases hscope
    refine ⟨(), le_rfl, ⟨h.same.store.size.symm, Nat.ne_of_gt h.same.store.lt⟩, ?_⟩
    exact ⟨{ h.same with store := h.same.store.push _ }, h.grants.push _⟩
  guard {w m m' id id'} h hopens name := by
    obtain ⟨rfl, hid⟩ := hopens
    rw [h.same.store.isRoot_eq, Store.local?, Store.local?, h.same.store.frames id hid]
  extend h hopens hvalue := by
    obtain ⟨rfl, hid⟩ := hopens
    obtain ⟨rfl, hdiscreet⟩ := hvalue
    exact ⟨{ h.same with store := h.same.store.write (fun heq => absurd heq hid) _ _ },
      h.grants.write _ hdiscreet⟩
  enter h hopens := by
    obtain ⟨rfl, -⟩ := hopens
    exact ⟨{ h.same with store := { h.same.store with } }, h.grants⟩
  assign {w m m' id id' name a a'} h hscope hname hvalue := by
    cases hscope
    obtain ⟨rfl, hdiscreet⟩ := hvalue
    have hne : name ≠ s := fun heq => discreet_symbol.1 hname.2 (heq ▸ hs)
    rw [Store.root_eq_of_chain (h.same.store.chain_eq id)]
    exact ⟨{ h.same with store := h.same.store.write (fun _ => hne) _ _ },
      h.grants.write _ fun _ => hdiscreet⟩
  lookup {w m m' id id' name} h hscope hname := by
    cases hscope
    have hmem := discreet_symbol.1 hname.2
    have hne : name ≠ s := fun heq => hmem (heq ▸ hs)
    rw [h.same.store.lookup?_eq id hne]
    cases hlookup : m.store.lookup? id name with
    | none => exact .none
    | some value => exact .some ⟨rfl, h.grants.lookup? hmem hlookup⟩
  print h hvalue style := by
    obtain ⟨rfl, hdiscreet⟩ := hvalue
    exact hdiscreet.print_eq _ _ style
  serial {w m m'} h := by
    refine ⟨(), le_rfl, h.same.serial.symm, ⟨{ h.same with serial := ?_ }, h.grants⟩⟩
    rw [h.same.serial]
  logLine h line := by
    refine ⟨{ h.same with log := ?_ }, h.grants⟩
    rw [h.same.log]
  record h hprobe harguments := by
    cases hprobe.1
    obtain ⟨rfl, -⟩ := forall₂_eq_and.1 harguments
    refine ⟨by rw [h.same.calls], { h.same with calls := ?_ }, h.grants⟩
    rw [h.same.calls]
  function hfresh hparams hbody hscope := by
    cases hfresh
    cases hscope
    obtain ⟨rfl, hpatterns⟩ := forall₂_eq_and.1 (hparams.imp fun _ _ => eq_and_parameter_of_target)
    obtain ⟨rfl, hforms⟩ := forall₂_eq_and.1 hbody
    exact ⟨rfl, discreet_function.2 ⟨⟨_, rfl, hpatterns⟩, hforms⟩⟩
  function_inv h := by
    obtain ⟨heq, hdiscreet⟩ := h
    cases heq
    obtain ⟨⟨patterns, rfl, hpatterns⟩, hbody⟩ := discreet_function.1 hdiscreet
    refine ⟨.some (List.forall₂_same.2 fun param hparam => ?_),
      List.forall₂_same.2 fun form hform => ⟨rfl, hbody form hform⟩, rfl⟩
    exact target_of_parameter (hpatterns param hparam)
  transformer _ hmaker _ := absurd rfl hmaker.2.host.1
  expander _ hexpander _ := absurd rfl (hexpander.2.host.2 _)

/-! ## Library transformers -/

section library

variable {hs : s ∈ names} {depth : Nat} {frame : FrameId}

/-- The forms that a library transformer makes of discreet operands: `nil`, or the definition of a
function, or that of a transformer. -/
inductive Expansion (names : List String) : Value → Prop
  | remark : Expansion names .nil
  | function {name : String} {params body : List Value} : name ∉ names →
      (∀ param ∈ params, param.Discreet names) → (∀ form ∈ body, form.Discreet names) →
      Expansion names (Expander.defForm name (Expander.fnForm params body))
  | transformer {name : String} {params body : List Value} : name ∉ names →
      (∀ param ∈ params, param.Discreet names) → (∀ form ∈ body, form.Discreet names) →
      Expansion names (Expander.defForm name (.list [Expander.transformerMaker,
        Expander.fnForm (.symbol "&form" :: .symbol "&env" :: params) body]))

theorem agree_expand (expander : Expander) {operands : List Value}
    (h : ∀ operand ∈ operands, operand.Discreet names) :
    Agree (Same names) (fun form form' => form = form' ∧ Expansion names form)
      (expander.expand operands) (expander.expand operands) := by
  have hparts := (likeness names).agree_parts expander
    (List.forall₂_same.2 fun operand hoperand => ⟨rfl, h operand hoperand⟩)
  cases expander with
  | remark => exact .ok ⟨rfl, .remark⟩
  | defineFunction =>
    refine hparts.bind ?_
    rintro ⟨name, params, body⟩ ⟨_, _, _⟩ ⟨rfl, hname, hparams, hbody⟩
    obtain ⟨heq, hdiscreet⟩ := forall₂_eq_and.1 hparams
    obtain ⟨heq', hforms⟩ := forall₂_eq_and.1 hbody
    cases heq
    cases heq'
    exact .ok ⟨rfl, .function (discreet_symbol.1 hname.2) hdiscreet hforms⟩
  | defineTransformer =>
    refine hparts.bind ?_
    rintro ⟨name, params, body⟩ ⟨_, _, _⟩ ⟨rfl, hname, hparams, hbody⟩
    obtain ⟨heq, hdiscreet⟩ := forall₂_eq_and.1 hparams
    obtain ⟨heq', hforms⟩ := forall₂_eq_and.1 hbody
    cases heq
    cases heq'
    exact .ok ⟨rfl, .transformer (discreet_symbol.1 hname.2) hdiscreet hforms⟩

theorem forall₂_same {forms : List Value} (h : ∀ form ∈ forms, form.Discreet names) :
    forms.Forall₂ (Same names) forms :=
  List.forall₂_same.2 fun form hform => ⟨rfl, h form hform⟩

theorem forall₂_target {params : List Value} (h : ∀ param ∈ params, param.Parameter names) :
    params.Forall₂ (Likeness.Target (Same names)) params :=
  List.forall₂_same.2 fun param hparam => target_of_parameter (h param hparam)

/-- The parameters that `defmacro` adds are names. -/
theorem parameter_cons {params : List Value} (h : ∀ param ∈ params, param.Discreet names) :
    ∀ param ∈ .symbol "&form" :: .symbol "&env" :: params, param.Parameter names := by
  rw [List.forall_mem_cons, List.forall_mem_cons]
  exact ⟨.inr ⟨_, rfl⟩, .inr ⟨_, rfl⟩, fun param hparam => .inl (h param hparam)⟩

/-- An expansion holds no scope. -/
theorem Expansion.print_eq {form : Value} (h : Expansion names form) (store store' : Store)
    (style : Style) : store.print style form = store'.print style form := by
  refine Printer.valueText_eq_of_every ?_ style
  have hevery : ∀ {value : Value}, value.Discreet names →
      value.Every fun c => ∀ id, c ≠ .environment id := fun hvalue =>
    hvalue.sealed.mono (by rintro c hc id rfl; exact hc)
  cases h with
  | remark => simp
  | function _ hparams hbody =>
    simp only [Expander.defForm, Expander.fnForm, Value.every_list, List.forall_mem_cons,
      Value.every_symbol, Value.every_vector, true_and, List.not_mem_nil, false_implies,
      implies_true, and_true]
    exact ⟨fun param hparam => hevery (hparams param hparam),
      fun form hform => hevery (hbody form hform)⟩
  | transformer _ hparams hbody =>
    simp only [Expander.defForm, Expander.fnForm, Expander.transformerMaker, Value.every_list,
      List.forall_mem_cons, Value.every_symbol, Value.every_vector, Value.every_host, true_and,
      List.not_mem_nil, false_implies, implies_true, and_true, ne_eq, reduceCtorEq,
      not_false_eq_true]
    exact ⟨fun param hparam => hevery (hparams param hparam),
      fun form hform => hevery (hbody form hform)⟩

/-- The check of an expansion asks for the names in its body only. -/
theorem Expansion.agree_walk {form : Value} (h : Expansion names form)
    {bound bound' : String → Bool}
    (hbound : ∀ name, Same names (.symbol name) (.symbol name) → bound name = bound' name)
    (known : List String) :
    Agree (Same names) Eq (Validation.walk bound form known)
      (Validation.walk bound' form known) := by
  have hfn : ∀ {params body : List Value}, (∀ param ∈ params, param.Parameter names) →
      (∀ form ∈ body, form.Discreet names) → ∀ known, Agree (Same names) Eq
        (Validation.walk bound (Expander.fnForm params body) known)
        (Validation.walk bound' (Expander.fnForm params body) known) := fun hparams hbody known =>
    (likeness names).agree_walk_fn hbound (forall₂_target hparams) (forall₂_same hbody) known
  cases h with
  | remark => exact .ok rfl
  | function _ hparams hbody =>
    exact Likeness.agree_walk_def
      (hfn (fun param hparam => .inl (hparams param hparam)) hbody known)
  | transformer _ hparams hbody =>
    refine Likeness.agree_walk_def ?_
    simp only [Expander.transformerMaker, Validation.walk, Validation.walkAll]
    refine (hfn (parameter_cons hparams) hbody known).bind ?_
    rintro known' _ rfl
    exact .ok rfl

/-! ### Evaluating what they make -/

variable (htwins : Twins names s root m m')

include htwins

theorem couples_eval_fn {params body : List Value}
    (hparams : ∀ param ∈ params, param.Parameter names)
    (hbody : ∀ form ∈ body, form.Discreet names) (depth : Nat) :
    (coupling names s root hs).Couples ()
      ((Engine.ofDepth depth).eval (Expander.fnForm params body) frame)
      ((Engine.ofDepth depth).eval (Expander.fnForm params body) frame) m m'
      fun _ value value' => Same names value value' ∧
        ∃ serial, value = .function serial (.vector params) body frame := by
  cases depth with
  | zero => exact Pairing.couples_exhausted htwins
  | succ depth =>
    show (coupling names s root hs).Couples ()
      ((Engine.ofDepth depth).evalWith (Expander.fnForm params body) frame)
      ((Engine.ofDepth depth).evalWith (Expander.fnForm params body) frame) m m' _
    rw [Engine.evalWith_fn]
    exact Coupling.couples_evalFn htwins rfl (forall₂_target hparams) (forall₂_same hbody)

/-- The form in which `defmacro` makes a transformer. -/
theorem couples_eval_maker {params body : List Value}
    (hparams : ∀ param ∈ params, param.Discreet names) (hbody : ∀ form ∈ body, form.Discreet names)
    (depth : Nat) :
    let form := Value.list [Expander.transformerMaker,
      Expander.fnForm (.symbol "&form" :: .symbol "&env" :: params) body]
    (coupling names s root hs).Couples () ((Engine.ofDepth depth).eval form frame)
      ((Engine.ofDepth depth).eval form frame) m m' fun _ => Same names := by
  rcases depth with _ | _ | depth
  · exact Pairing.couples_exhausted htwins
  · exact Pairing.couples_exhausted htwins
  · dsimp only
    rw [Engine.eval_maker]
    refine (couples_eval_fn htwins (parameter_cons hparams) hbody (depth + 1)).bind ?_
    rintro _ value _ n n' - htwins' ⟨⟨rfl, hvalue⟩, serial, rfl⟩
    refine (Pairing.couples_nextSerial htwins').bind ?_
    rintro _ serial' _ n n' - htwins'' rfl
    exact Pairing.couples_pure htwins'' ⟨rfl, hvalue.of_takesScope rfl⟩

theorem couples_eval_expansion {form : Value} (h : Expansion names form) (depth : Nat) :
    (coupling names s root hs).Couples () ((Engine.ofDepth depth).eval form frame)
      ((Engine.ofDepth depth).eval form frame) m m' fun _ => Same names := by
  cases depth with
  | zero => exact Pairing.couples_exhausted htwins
  | succ depth =>
    show (coupling names s root hs).Couples () ((Engine.ofDepth depth).evalWith form frame)
      ((Engine.ofDepth depth).evalWith form frame) m m' _
    cases h with
    | remark => exact Pairing.couples_pure htwins (likeness names).nil
    | function hname hparams hbody =>
      rw [Engine.evalWith_def]
      refine Coupling.couples_evalDef rfl (same_symbol hname) ?_
      exact (couples_eval_fn htwins (fun param hparam => .inl (hparams param hparam)) hbody
        depth).mono fun _ _ _ _ hvalue => hvalue.1
    | transformer hname hparams hbody =>
      rw [Engine.evalWith_def]
      refine Coupling.couples_evalDef rfl (same_symbol hname) ?_
      exact couples_eval_maker htwins hparams hbody depth

/-- A call of a library transformer is the same on both machines. -/
theorem couples_library {serial number : Nat} {expander : Expander} {head : Value}
    {operands : List Value} (hcall : ∀ part ∈ head :: operands, part.Discreet names) (depth : Nat) :
    (coupling names s root hs).Couples ()
      ((Engine.ofDepth depth).evalCall (.transformer serial (.host number (.expander expander)))
        head operands frame)
      ((Engine.ofDepth depth).evalCall (.transformer serial (.host number (.expander expander)))
        head operands frame) m m' fun _ => Same names := by
  cases depth with
  | zero => exact Pairing.couples_exhausted htwins
  | succ depth =>
    have hoperands := (List.forall_mem_cons.1 hcall).2
    refine Pairing.Couples.bind (q := fun _ form form' => form = form' ∧ Expansion names form)
      ?_ ?_
    · refine Pairing.Couples.bind (Pairing.couples_ofExcept
        (q := fun _ form form' => form = form' ∧ Expansion names form) htwins
        (agree_expand expander hoperands)) ?_
      rintro _ form _ n n' - htwins' ⟨rfl, hform⟩
      have hlist : Same names (.list (head :: operands)) (.list (head :: operands)) :=
        ⟨rfl, discreet_list.2 hcall⟩
      refine (Pairing.couples_logExpansion htwins' hlist fun _ _ =>
        hform.print_eq _ _ .inspect).bind ?_
      rintro _ _ _ n n' - htwins'' -
      exact Pairing.couples_pure htwins'' ⟨rfl, hform⟩
    · rintro _ form _ n n' - htwins' ⟨rfl, hform⟩
      refine (Pairing.couples_validate_of_walk htwins' (hform.agree_walk ?_ [])).bind ?_
      · exact fun name hname => Coupling.bindsTransformer_eq (c := coupling names s root hs) htwins'
          rfl hname
      · rintro _ _ _ n n' - htwins'' -
        exact couples_eval_expansion htwins'' hform (depth + 1)

end library

/-! ## Every transformer -/

/-- Calls of transformers couple. A scope is handed over, but under a name that nothing asks for. -/
theorem transforms (hs : s ∈ names) (henv : "&env" ∈ names) :
    (coupling names s root hs).Transforms := by
  intro depth hengine w m m' serial serial' target target' head head' operands operands' frame
    frame' htwins hscope hcallee hcall
  obtain ⟨heq, hdiscreet⟩ := hcallee
  cases heq
  cases hscope
  rcases hdiscreet.transformer with ⟨number, expander, rfl⟩ |
    ⟨number, params, body, home, rfl, htarget⟩
  · obtain ⟨heq, hparts⟩ := forall₂_eq_and.1 hcall
    cases heq
    exact couples_library htwins hparts depth
  · have hoperands := (List.forall₂_cons.1 hcall).2
    obtain ⟨⟨patterns, hpatterns, hparams⟩, -⟩ := discreet_function.1 htarget
    cases hpatterns
    rw [List.forall_mem_cons, List.forall_mem_cons] at hparams
    refine Coupling.couples_transform hengine htwins rfl hcall rfl ?_
    refine hengine.call htwins ⟨rfl, htarget⟩ rfl rfl (by simp [hoperands.length_eq]) ?_
    refine ⟨Coupling.fits_of_like (.inr ⟨_, rfl, rfl⟩) ((likeness names).list hcall),
      .inr ⟨"&env", rfl, rfl, rfl, fun hnot => absurd henv hnot⟩, ?_⟩
    exact Coupling.fitsEach_of_like (forall₂_target hparams.2.2) hoperands

/-- **Evaluation does not depend on the binding.** -/
theorem coupled (hs : s ∈ names) (henv : "&env" ∈ names) (depth : Nat) :
    (coupling names s root hs).Coupled (.ofDepth depth) :=
  Coupling.coupled_ofDepth (transforms hs henv) depth

end Oblivion

/-! ## Unmentioned names -/

/-- The name, and those through which a program could find out what it is bound to. -/
def unmentioned (s : String) : List String := ["macro", "&env", s]

/-- **Names that nothing mentions do not matter.** Let a form and all that a session has stored
mention neither `macro` nor `&env` nor a third name, and hold neither a scope nor the operation that
makes transformers; what is stored under these names themselves may be anything. Then the form is
checked and evaluated to the same value or fault on every machine that differs in what a frame
binds the third name to; the same is logged, the same probes are called, and the machines that are
left behind differ in that binding only. Again nothing that is stored mentions the names. -/
theorem Session.evalForm_unmentioned {s : String} {root frame : FrameId} {form : Value}
    {m m' : Machine} (depth : Nat)
    (hstore : m.store.Grants (unmentioned s) (Value.Discreet (unmentioned s)))
    (hform : form.Discreet (unmentioned s)) (hsame : m.SameBut root s m') :
    let run := evalForm (.ofDepth depth) frame form
    run.outcome m' = run.outcome m ∧ run.shown m' = run.shown m ∧
      (run.after m).SameBut root s (run.after m') ∧
      (run.after m).store.Grants (unmentioned s) (Value.Discreet (unmentioned s)) := by
  intro run
  have hs : s ∈ unmentioned s := by simp [unmentioned]
  have henv : "&env" ∈ unmentioned s := by simp [unmentioned]
  have hcouples := Coupling.couples_evalForm (w := ()) (Oblivion.coupled hs henv depth)
    ⟨hsame, hstore⟩ (rfl : frame = frame) ⟨rfl, hform⟩
  obtain ⟨_, -, htwins, hends⟩ := hcouples.exists_twins
  refine ⟨?_, hcouples.shown_eq.symm, htwins.same, htwins.grants⟩
  rcases hends with ⟨value, value', hleft, hright, hvalue⟩ | ⟨stop, stop', hleft, hright, hstop⟩
  · rw [hleft, hright, hvalue.1]
  · rw [hleft, hright]
    cases hstop with
    | exhausted => rfl
    | fault hfault => rw [hfault.eq And.left]

/-- The machine with a name bound on a frame. -/
def Machine.bind (m : Machine) (root : FrameId) (s : String) (value : Value) : Machine :=
  { m with store := m.store.assign root s value }

theorem Machine.sameBut_bind {m : Machine} {root : FrameId} (hroot : root < m.store.size)
    (s : String) (value : Value) : m.SameBut root s (m.bind root s value) :=
  ⟨.of_write hroot s value _, rfl, rfl, rfl, rfl⟩

/-- A session that has defined a transformer binds `def`, and the library still defines functions
in the forms that the transformer makes. -/
theorem Session.evalForm_unmentioned_def :
    let m := evalAll (.ofDepth 12) ["(defmacro both [a b] (list (quote do) a b))"] (fresh true)
    let m' := m.bind 0 "def" (.int 5)
    let form := Value.list [.symbol "both", .list [.symbol "defn", .symbol "f",
      .vector [.symbol "x"], .symbol "x"], .list [.symbol "f", .int 1]]
    let run := evalForm (.ofDepth 12) 0 form
    m.store.Grants (unmentioned "def") (Value.Discreet (unmentioned "def")) ∧
      form.Discreet (unmentioned "def") ∧ m.SameBut 0 "def" m' ∧
      (match run.outcome m with
        | .ok (.number _) => true
        | _ => false) = true ∧
      run.outcome m' = run.outcome m ∧ (run.after m).SameBut 0 "def" (run.after m') := by
  intro m m' form run
  obtain ⟨hlt, hframes, hform, hnumber⟩ : 0 < m.store.size ∧
      (∀ frame ∈ m.store.frames.toList, ∀ var ∈ frame.vars, var.1 ∉ unmentioned "def" →
        var.2.Discreet (unmentioned "def")) ∧
      form.Discreet (unmentioned "def") ∧
      (match run.outcome m with
        | .ok (.number _) => true
        | _ => false) = true := by decide +kernel
  have hstore : m.store.Grants (unmentioned "def") (Value.Discreet (unmentioned "def")) :=
    .of_frames hframes
  have hsame : m.SameBut 0 "def" m' := Machine.sameBut_bind hlt _ _
  have hrun : run.outcome m' = run.outcome m ∧ _ :=
    Session.evalForm_unmentioned 12 hstore hform hsame
  exact ⟨hstore, hform, hsame, hnumber, hrun.1, hrun.2.2.1⟩

/-- The size of the text that a run has given. -/
def Session.textSize : Except Stop Value → Nat
  | .ok (.str text) => text.utf8ByteSize
  | _ => 0

/-- It is not enough that no symbol is mentioned. A session may store the operation that makes
transformers, or a scope, and either lets a form print all that is bound on the root. -/
theorem Session.evalForm_needs_sealed :
    let maker := evalAll (.ofDepth 12) ["(def m macro)"] (fresh false)
    let scope := evalAll (.ofDepth 12) ["(defmacro grab [] (list (quote quote) &env))",
      "(def f ((fn [e] (fn [] (str e))) (grab)))", "(def grab nil)"] (fresh false)
    let print := Value.list [.list [.symbol "m", .list [.symbol "fn",
      .vector [.symbol "f", .symbol "e"], .list [.symbol "str", .symbol "e"]]]]
    ∀ session ∈ [(maker, print), (scope, .list [.symbol "f"])],
      let m := session.1
      let m' := m.bind 0 "zz" (.int 1)
      let run := evalForm (.ofDepth 12) 0 session.2
      m.store.Grants (unmentioned "zz") (fun value => value.oblivious (unmentioned "zz") = true) ∧
        session.2.oblivious (unmentioned "zz") = true ∧ m.SameBut 0 "zz" m' ∧
        run.outcome m' ≠ run.outcome m := by
  intro maker scope print session hsession m m' run
  have hchecked : 0 < m.store.size ∧
      (∀ frame ∈ m.store.frames.toList, ∀ var ∈ frame.vars, var.1 ∉ unmentioned "zz" →
        var.2.oblivious (unmentioned "zz") = true) ∧
      session.2.oblivious (unmentioned "zz") = true ∧
      textSize (run.outcome m') ≠ textSize (run.outcome m) := by
    revert session
    decide +kernel
  obtain ⟨hlt, hframes, hform, hsize⟩ := hchecked
  exact ⟨.of_frames hframes, hform, Machine.sameBut_bind hlt _ _, fun heq =>
    hsize (congrArg textSize heq)⟩

end SmallLisp
