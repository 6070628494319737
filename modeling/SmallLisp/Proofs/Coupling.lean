import Mathlib.Order.Basic
import SmallLisp.Proofs.Discipline
import SmallLisp.Proofs.Likeness

/-!
# Couplings: two runs side by side

To say that a run does not depend on some part of the machine is to compare it with a second run, on
a machine that differs in that part. The two runs are followed step by step: as long as they see the
same they do the same, and what they do keeps the machines related. The argument is made here once,
for any relation between the machines, and each relation only has to answer for single steps.

* `Pairing`: how machines and values of the two runs are related. What is related at one point of
  the runs depends on what both have made since, which is what the worlds keep track of.
* `Pairing.Couples`: the two runs end in the same way, on related machines, with related values or
  with faults about related values. `Couples.bind` puts runs together.
* `Coupling`: a pairing of runs that evaluate related forms, with the frames in which they do.
* `Coupling.Fits`: values that a pattern may be bound to. An argument of a transformer need not be
  related to its counterpart if it is bound to a name that no code asks for.
* `Coupling.binds_bind`: binding patterns couples.

That evaluation couples is the subject of `SmallLisp.Proofs.CoupledEvaluation`.
-/

namespace SmallLisp

/-- The stops are the same but for the values they speak of, and these are related. -/
inductive Stop.Like (R : Value → Value → Prop) : Stop → Stop → Prop
  | fault {reason reason' : Fault} : Fault.Like R reason reason' →
      Like R (.fault reason) (.fault reason')
  | exhausted : Like R .exhausted .exhausted

namespace Run

/-- What is to be seen of the end of a run. -/
inductive Shown
  /-- The text of the value. -/
  | text (text : Printer.Printed)
  /-- The report of the fault. -/
  | report (report : Report)
  /-- The bound on the depth of evaluation was reached. -/
  | exhausted

/-- What is to be seen of the end of the run. -/
def shown (run : Run Value) (m : Machine) : Shown :=
  match run m with
  | .ok value m' => .text (m'.store.print .source value)
  | .error (.fault fault) m' => .report (fault.report m'.store)
  | .error .exhausted _ => .exhausted

end Run

/-- How the machines and the values of two runs are related. -/
structure Pairing (W : Type) [Preorder W] where
  /-- The values are the same to every program. -/
  Like : W → Value → Value → Prop
  /-- The machines are related. -/
  Twins : W → Machine → Machine → Prop
  /-- Callables may be made with the serial numbers. -/
  Fresh : W → Nat → Nat → Prop
  likeness : ∀ w, Likeness (Like w)
  like_mono : ∀ {w w₂ a a'}, w ≤ w₂ → Like w a a' → Like w₂ a a'
  verbose : ∀ {w m m'}, Twins w m m' → m.verbose = m'.verbose
  /-- Related values have the same text. -/
  print : ∀ {w m m' a a'}, Twins w m m' → Like w a a' → ∀ style,
    m.store.print style a = m'.store.print style a'
  serial : ∀ {w m m'}, Twins w m m' →
    ∃ w₂, w ≤ w₂ ∧ Fresh w₂ m.serial m'.serial ∧
      Twins w₂ { m with serial := m.serial + 1 } { m' with serial := m'.serial + 1 }
  logLine : ∀ {w m m'}, Twins w m m' → ∀ line,
    Twins w { m with log := m.log.push line } { m' with log := m'.log.push line }
  /-- A probe has been called equally often. -/
  record : ∀ {w m m' serial serial' name arguments arguments'}, Twins w m m' →
    Like w (.host serial (.probe name)) (.host serial' (.probe name)) →
    List.Forall₂ (Like w) arguments arguments' →
    (m.calls.filter fun call => call.serial == serial).size =
        (m'.calls.filter fun call => call.serial == serial').size ∧
      Twins w { m with calls := m.calls.push ⟨serial, name, arguments⟩ }
        { m' with calls := m'.calls.push ⟨serial', name, arguments'⟩ }
  /-- The transformers that programs make are related. -/
  transformer : ∀ {w maker maker' serial serial' target target'}, Fresh w serial serial' →
    Like w (.host maker (.builtin .makeTransformer)) (.host maker' (.builtin .makeTransformer)) →
    Like w target target' → Like w (.transformer serial target) (.transformer serial' target')
  /-- The expanders that programs hold make related forms. -/
  expander : ∀ {w m m' serial serial' expander operands operands'}, Twins w m m' →
    Like w (.host serial (.expander expander)) (.host serial' (.expander expander)) →
    List.Forall₂ (Like w) operands operands' →
    Agree (Like w) (Like w) (expander.expand operands) (expander.expand operands')

/-- How two runs are related that evaluate related forms. -/
structure Coupling (W : Type) [Preorder W] extends Pairing W where
  /-- A program may run in the frames. -/
  Scope : W → FrameId → FrameId → Prop
  /-- The frames have been made by the runs, and names are being bound in them. -/
  Opens : W → FrameId → FrameId → Prop
  /-- The name may be bound to the values in a frame that the runs have made. -/
  Admits : W → String → Value → Value → Prop
  scope_mono : ∀ {w w₂ id id'}, w ≤ w₂ → Scope w id id' → Scope w₂ id id'
  opens_mono : ∀ {w w₂ id id'}, w ≤ w₂ → Opens w id id' → Opens w₂ id id'
  opens_scope : ∀ {w id id'}, Opens w id id' → Scope w id id'
  admits_mono : ∀ {w w₂ name a a'}, w ≤ w₂ → Admits w name a a' → Admits w₂ name a a'
  admits_of_like : ∀ {w name a a'}, Like w a a' → Admits w name a a'
  /-- Frames are made inside related ones. -/
  push : ∀ {w m m' outer outer'}, Twins w m m' → Scope w outer outer' →
    ∃ w₂, w ≤ w₂ ∧ Opens w₂ m.store.size m'.store.size ∧
      Twins w₂ { m with store := m.store.push (some outer) }
        { m' with store := m'.store.push (some outer') }
  /-- A name that cannot be bound in the one frame cannot be bound in the other. -/
  guard : ∀ {w m m' id id'}, Twins w m m' → Opens w id id' → ∀ name,
    ((m.store.local? id name).isSome && !m.store.isRoot id) =
      ((m'.store.local? id' name).isSome && !m'.store.isRoot id')
  extend : ∀ {w m m' id id' name a a'}, Twins w m m' → Opens w id id' → Admits w name a a' →
    Twins w { m with store := m.store.extend id name a }
      { m' with store := m'.store.extend id' name a' }
  enter : ∀ {w m m' id id'}, Twins w m m' → Opens w id id' →
    Twins w { m with store := m.store.enter id } { m' with store := m'.store.enter id' }
  /-- A name is defined on the roots around related frames. -/
  assign : ∀ {w m m' id id' name a a'}, Twins w m m' → Scope w id id' →
    Like w (.symbol name) (.symbol name) → Like w a a' →
    Twins w { m with store := m.store.assign (m.store.root id) name a }
      { m' with store := m'.store.assign (m'.store.root id') name a' }
  /-- A name that a program may ask for means related values. -/
  lookup : ∀ {w m m' id id' name}, Twins w m m' → Scope w id id' →
    Like w (.symbol name) (.symbol name) →
    Option.Rel (Like w) (m.store.lookup? id name) (m'.store.lookup? id' name)
  /-- The functions that programs make are related. -/
  function : ∀ {w serial serial' params params' body body' home home'}, Fresh w serial serial' →
    List.Forall₂ (Likeness.Target (Like w)) params params' → List.Forall₂ (Like w) body body' →
    Scope w home home' →
    Like w (.function serial (.vector params) body home)
      (.function serial' (.vector params') body' home')
  /-- Related functions do the same. -/
  function_inv : ∀ {w serial serial' params params' body body' home home'},
    Like w (.function serial params body home) (.function serial' params' body' home') →
    Option.Rel (List.Forall₂ (Likeness.Target (Like w))) params.elements? params'.elements? ∧
      List.Forall₂ (Like w) body body' ∧ Scope w home home'

namespace Pairing

variable {W : Type} [Preorder W] (c : Pairing W)

/-- The runs end in the same way, on related machines. -/
inductive Ends {α β : Type} (w : W) (q : W → α → β → Prop) :
    EStateM.Result Stop Machine α → EStateM.Result Stop Machine β → Prop
  | ok {w₂ : W} {a : α} {b : β} {m m' : Machine} : w ≤ w₂ → c.Twins w₂ m m' → q w₂ a b →
      Ends w q (.ok a m) (.ok b m')
  | error {w₂ : W} {stop stop' : Stop} {m m' : Machine} : w ≤ w₂ → c.Twins w₂ m m' →
      Stop.Like (c.Like w₂) stop stop' → Ends w q (.error stop m) (.error stop' m')

/-- The two runs, begun on the two machines, end in the same way and with results that have `q`. -/
def Couples {α β : Type} (w : W) (run : Run α) (run' : Run β) (m m' : Machine)
    (q : W → α → β → Prop) : Prop :=
  c.Ends w q (run m) (run' m')

variable {c} {α β γ δ : Type} {w : W} {m m' : Machine}

namespace Couples

variable {q : W → α → β → Prop} {r : W → γ → δ → Prop}

theorem bind {run : Run α} {run' : Run β} {f : α → Run γ} {f' : β → Run δ}
    (hrun : c.Couples w run run' m m' q)
    (hf : ∀ w₂ a b n n', w ≤ w₂ → c.Twins w₂ n n' → q w₂ a b →
      c.Couples w₂ (f a) (f' b) n n' r) :
    c.Couples w (run >>= f) (run' >>= f') m m' r := by
  unfold Couples at hrun ⊢
  show c.Ends w r (EStateM.bind run f m) (EStateM.bind run' f' m')
  unfold EStateM.bind
  generalize run m = result, run' m' = result' at hrun ⊢
  cases hrun with
  | error hle htwins hstop => exact .error hle htwins hstop
  | @ok w₂ a b n n' hle htwins hq =>
    have hrest := hf w₂ a b n n' hle htwins hq
    unfold Couples at hrest
    dsimp only
    generalize f a n = rest, f' b n' = rest' at hrest ⊢
    cases hrest with
    | ok hle' htwins' hr => exact .ok (hle.trans hle') htwins' hr
    | error hle' htwins' hstop => exact .error (hle.trans hle') htwins' hstop

theorem mono {run : Run α} {run' : Run β} {q' : W → α → β → Prop}
    (hrun : c.Couples w run run' m m' q) (hq : ∀ w₂ a b, w ≤ w₂ → q w₂ a b → q' w₂ a b) :
    c.Couples w run run' m m' q' := by
  unfold Couples at hrun ⊢
  generalize run m = result, run' m' = result' at hrun ⊢
  cases hrun with
  | error hle htwins hstop => exact .error hle htwins hstop
  | ok hle htwins h => exact .ok hle htwins (hq _ _ _ hle h)

/-- Runs that end in the same way leave related machines behind. -/
theorem exists_twins {run : Run α} {run' : Run β} (hrun : c.Couples w run run' m m' q) :
    ∃ w₂, w ≤ w₂ ∧ c.Twins w₂ (run.after m) (run'.after m') ∧
      ((∃ a b, run.outcome m = .ok a ∧ run'.outcome m' = .ok b ∧ q w₂ a b) ∨
        ∃ stop stop', run.outcome m = .error stop ∧ run'.outcome m' = .error stop' ∧
          Stop.Like (c.Like w₂) stop stop') := by
  unfold Couples at hrun
  unfold Run.after Run.outcome
  generalize run m = result, run' m' = result' at hrun ⊢
  cases hrun with
  | ok hle htwins h => exact ⟨_, hle, htwins, .inl ⟨_, _, rfl, rfl, h⟩⟩
  | error hle htwins hstop => exact ⟨_, hle, htwins, .inr ⟨_, _, rfl, rfl, hstop⟩⟩

/-- Runs that end in the same way with related values show the same. -/
theorem shown_eq {run run' : Run Value} (hrun : c.Couples w run run' m m' c.Like) :
    run.shown m = run'.shown m' := by
  unfold Couples at hrun
  unfold Run.shown
  generalize run m = result, run' m' = result' at hrun ⊢
  cases hrun with
  | ok _ htwins hvalue => exact congrArg Run.Shown.text (c.print htwins hvalue .source)
  | error _ htwins hstop =>
    cases hstop with
    | exhausted => rfl
    | fault hfault =>
      exact congrArg Run.Shown.report (hfault.report_eq fun hvalue => c.print htwins hvalue)

end Couples

section steps

variable {q : W → α → β → Prop} {r : W → γ → δ → Prop} (htwins : c.Twins w m m')

include htwins

theorem couples_pure {a : α} {b : β} (h : q w a b) : c.Couples w (pure a) (pure b) m m' q :=
  .ok le_rfl htwins h

theorem couples_fail {fault fault' : Fault} (h : Fault.Like (c.Like w) fault fault') :
    c.Couples w (Run.fail fault) (Run.fail fault') m m' q :=
  .error le_rfl htwins (.fault h)

theorem couples_exhausted :
    c.Couples w (throw .exhausted : Run α) (throw .exhausted : Run β) m m' q :=
  .error le_rfl htwins .exhausted

theorem couples_ofExcept {x : Except Fault α} {x' : Except Fault β}
    (h : Agree (c.Like w) (q w) x x') :
    c.Couples w (Run.ofExcept x) (Run.ofExcept x') m m' q := by
  cases h with
  | ok h => exact couples_pure htwins h
  | error h => exact couples_fail htwins h

omit htwins in
/-- Looking at the stores changes nothing. -/
theorem couples_bind_store {f : Store → Run γ} {f' : Store → Run δ}
    (h : c.Couples w (f m.store) (f' m'.store) m m' r) :
    c.Couples w (Run.store >>= f) (Run.store >>= f') m m' r := h

omit htwins in
/-- Looking at the machines changes nothing. -/
theorem couples_bind_get {f : Machine → Run γ} {f' : Machine → Run δ}
    (h : c.Couples w (f m) (f' m') m m' r) :
    c.Couples w ((get : Run Machine) >>= f) ((get : Run Machine) >>= f') m m' r := h

theorem couples_nextSerial : c.Couples w Run.nextSerial Run.nextSerial m m' c.Fresh := by
  obtain ⟨w₂, hle, hfresh, htwins'⟩ := c.serial htwins
  exact .ok hle htwins' hfresh

theorem couples_logLine (line : String) :
    c.Couples w (Run.logLine line) (Run.logLine line) m m' fun _ _ _ => True :=
  .ok le_rfl (c.logLine htwins line) trivial

theorem couples_record {serial serial' : Nat} {name : String} {arguments arguments' : List Value}
    (hprobe : c.Like w (.host serial (.probe name)) (.host serial' (.probe name)))
    (harguments : arguments.Forall₂ (c.Like w) arguments') :
    c.Couples w (Run.record ⟨serial, name, arguments⟩) (Run.record ⟨serial', name, arguments'⟩)
      m m' fun _ count count' => count = count' := by
  obtain ⟨hcount, htwins'⟩ := c.record htwins hprobe harguments
  exact .ok le_rfl htwins' (congrArg (· + 1) hcount)

/-- What has the same text on both machines is printed alike. -/
theorem couples_print_of_eq {value value' : Value} {style : Style}
    (h : m.store.print style value = m'.store.print style value') :
    c.Couples w (Run.print style value) (Run.print style value') m m'
      fun _ text text' => text = text' := by
  apply couples_bind_store
  rw [h]
  split
  · exact couples_pure htwins rfl
  · exact couples_fail htwins (.same rfl)
  · exact couples_exhausted htwins

theorem couples_print {value value' : Value} (hvalue : c.Like w value value') (style : Style) :
    c.Couples w (Run.print style value) (Run.print style value') m m'
      fun _ text text' => text = text' :=
  couples_print_of_eq htwins (c.print htwins hvalue style)

end steps

theorem like_list_mono {w₂ : W} (hle : w ≤ w₂) {values values' : List Value}
    (h : values.Forall₂ (c.Like w) values') : values.Forall₂ (c.Like w₂) values' :=
  h.imp fun _ _ hvalue => c.like_mono hle hvalue

/-! ## Writing -/

theorem like_positions {value value' : Value} (h : c.Like w value value') :
    (∃ items items', Pattern.positions value = .ok items ∧ Pattern.positions value' = .ok items' ∧
        items.Forall₂ (c.Like w) items') ∨
      ∃ reason reason', Pattern.positions value = .error reason ∧
        Pattern.positions value' = .error reason' ∧
        Fault.Like (c.Like w) (.bind reason) (.bind reason') := by
  cases (c.likeness w).pairs h with
  | nil => exact .inl ⟨_, _, rfl, rfl, .nil⟩
  | list hitems => exact .inl ⟨_, _, rfl, rfl, hitems⟩
  | vector hitems => exact .inl ⟨_, _, rfl, rfl, hitems⟩
  | map => exact .inr ⟨_, _, rfl, rfl, .same rfl⟩
  | _ => exact .inr ⟨_, _, rfl, rfl, .about rfl h⟩

/-- Binding names in frames that the runs have made keeps the machines related. -/
def Binds (c : Pairing W) (w : W) (writing writing' : Store.Writing Unit) (m m' : Machine) :
    Prop :=
  c.Couples w (Run.ofWriting writing) (Run.ofWriting writing') m m' fun w₂ _ _ => w₂ = w

theorem Binds.seq {first first' second second' : Store.Writing Unit}
    (hfirst : c.Binds w first first' m m')
    (hsecond : ∀ n n', c.Twins w n n' → c.Binds w second second' n n') :
    c.Binds w (first >>= fun _ => second) (first' >>= fun _ => second') m m' := by
  unfold Binds
  rw [Run.ofWriting_bind, Run.ofWriting_bind]
  refine Couples.bind hfirst ?_
  rintro w₂ _ _ n n' - htwins rfl
  exact hsecond n n' htwins

theorem binds_throw (htwins : c.Twins w m m') {reason reason' : BindError}
    (h : Fault.Like (c.Like w) (.bind reason) (.bind reason')) :
    c.Binds w (throw reason) (throw reason') m m' :=
  .error le_rfl htwins (.fault h)

/-- Binding a name keeps the machines related if both may or both may not bind it, and if it does
where they may. -/
theorem binds_define_of_twins (htwins : c.Twins w m m') {id id' : FrameId} {name : String}
    {value value' : Value}
    (hguard : ((m.store.local? id name).isSome && !m.store.isRoot id) =
      ((m'.store.local? id' name).isSome && !m'.store.isRoot id'))
    (hextend : c.Twins w { m with store := m.store.extend id name value }
      { m' with store := m'.store.extend id' name value' }) :
    c.Binds w (Store.define id (.symbol name) value) (Store.define id' (.symbol name) value')
      m m' := by
  obtain ⟨store, serial, calls, log, verbose⟩ := m
  obtain ⟨store', serial', calls', log', verbose'⟩ := m'
  unfold Binds Couples Run.ofWriting
  dsimp only at hguard hextend ⊢
  rw [Store.define_symbol, Store.define_symbol, ← hguard]
  cases (store.local? id name).isSome && !store.isRoot id with
  | true => exact .error le_rfl htwins (.fault (.same rfl))
  | false => exact .ok le_rfl hextend rfl

end Pairing

namespace Coupling

open Pairing

variable {W : Type} [Preorder W] {c : Coupling W} {w : W} {m m' : Machine}

/-! ## Steps on frames -/

section steps

variable (htwins : c.Twins w m m')

include htwins

theorem couples_push {outer outer' : FrameId} (hscope : c.Scope w outer outer') :
    c.Couples w (Run.push (some outer)) (Run.push (some outer')) m m' c.Opens := by
  obtain ⟨w₂, hle, hopens, htwins'⟩ := c.push htwins hscope
  exact .ok hle htwins' hopens

theorem couples_enter {id id' : FrameId} (hopens : c.Opens w id id') :
    c.Couples w (Run.enter id) (Run.enter id') m m' fun _ _ _ => True :=
  .ok le_rfl (c.enter htwins hopens) trivial

theorem couples_defineGlobal {id id' : FrameId} {name : String} {value value' : Value}
    (hscope : c.Scope w id id') (hname : c.Like w (.symbol name) (.symbol name))
    (hvalue : c.Like w value value') :
    c.Couples w (Run.defineGlobal id name value) (Run.defineGlobal id' name value') m m'
      fun _ _ _ => True :=
  .ok le_rfl (c.assign htwins hscope hname hvalue) trivial

theorem couples_lookup {id id' : FrameId} {name : String} (hscope : c.Scope w id id')
    (hname : c.Like w (.symbol name) (.symbol name)) :
    c.Couples w (Run.lookup id name) (Run.lookup id' name) m m' c.Like := by
  apply couples_bind_store
  have hvalue := c.lookup htwins hscope hname
  generalize m.store.lookup? id name = value, m'.store.lookup? id' name = value' at hvalue ⊢
  cases hvalue with
  | some hvalue => exact couples_pure htwins hvalue
  | none => exact couples_fail htwins (.about rfl hname)

/-- A name that a program may ask for means a transformer to both or to none. -/
theorem bindsTransformer_eq {id id' : FrameId} {name : String} (hscope : c.Scope w id id')
    (hname : c.Like w (.symbol name) (.symbol name)) :
    m.store.bindsTransformer id name = m'.store.bindsTransformer id' name := by
  have hvalue := c.lookup htwins hscope hname
  unfold Store.bindsTransformer
  generalize m.store.lookup? id name = value, m'.store.lookup? id' name = value' at hvalue ⊢
  cases hvalue with
  | none => rfl
  | some hvalue => cases (c.likeness w).pairs hvalue <;> rfl

end steps

/-! ## Binding -/

/-- The values may be bound to the pattern: they are related, or the pattern is a name that may be
bound to them. -/
def Fits (c : Coupling W) (w : W) (pattern pattern' value value' : Value) : Prop :=
  (Likeness.Target (c.Like w) pattern pattern' ∧ c.Like w value value') ∨
    ∃ name, pattern = .symbol name ∧ pattern' = .symbol name ∧ c.Admits w name value value'

/-- Each value may be bound to the pattern at its place; a place without a value counts as `nil`. -/
def FitsEach (c : Coupling W) (w : W) : List Value → List Value → List Value → List Value → Prop
  | [], [], _, _ => True
  | pattern :: patterns, pattern' :: patterns', items, items' =>
    c.Fits w pattern pattern' (items.head?.getD .nil) (items'.head?.getD .nil) ∧
      FitsEach c w patterns patterns' items.tail items'.tail
  | _, _, _, _ => False

theorem fits_of_like {pattern pattern' value value' : Value}
    (hpattern : Likeness.Target (c.Like w) pattern pattern') (hvalue : c.Like w value value') :
    c.Fits w pattern pattern' value value' :=
  .inl ⟨hpattern, hvalue⟩

/-- A name is bound to values that it may be bound to. -/
theorem Fits.of_symbol {name : String} {pattern' value value' : Value}
    (h : c.Fits w (.symbol name) pattern' value value') :
    pattern' = .symbol name ∧ c.Admits w name value value' := by
  rcases h with ⟨hpattern | ⟨other, hother, rfl⟩, hvalue⟩ | ⟨other, hother, rfl, hvalue⟩
  · cases (c.likeness w).pairs hpattern
    exact ⟨rfl, c.admits_of_like hvalue⟩
  · cases hother
    exact ⟨rfl, c.admits_of_like hvalue⟩
  · cases hother
    exact ⟨rfl, hvalue⟩

/-- Every other pattern is bound to related values. -/
theorem Fits.of_ne_symbol {pattern pattern' value value' : Value}
    (h : c.Fits w pattern pattern' value value') (hpattern : ∀ name, pattern ≠ .symbol name) :
    c.Like w pattern pattern' ∧ c.Like w value value' := by
  rcases h with ⟨hlike | ⟨name, hname, -⟩, hvalue⟩ | ⟨name, hname, -⟩
  · exact ⟨hlike, hvalue⟩
  · exact absurd hname (hpattern name)
  · exact absurd hname (hpattern name)

theorem target_mono {w₂ : W} (hle : w ≤ w₂) {pattern pattern' : Value}
    (h : Likeness.Target (c.Like w) pattern pattern') :
    Likeness.Target (c.Like w₂) pattern pattern' :=
  h.imp_left (c.like_mono hle)

theorem FitsEach.mono {w₂ : W} (hle : w ≤ w₂) : ∀ {patterns patterns' items items' : List Value},
    c.FitsEach w patterns patterns' items items' → c.FitsEach w₂ patterns patterns' items items'
  | [], [], _, _, _ => trivial
  | _ :: _, _ :: _, _, _, ⟨hfirst, hrest⟩ => by
    refine ⟨?_, FitsEach.mono hle hrest⟩
    rcases hfirst with ⟨hpattern, hvalue⟩ | ⟨name, hpattern, hpattern', hvalue⟩
    · exact .inl ⟨target_mono hle hpattern, c.like_mono hle hvalue⟩
    · exact .inr ⟨name, hpattern, hpattern', c.admits_mono hle hvalue⟩

/-- Patterns that values fit are targets. -/
theorem FitsEach.targets : ∀ {patterns patterns' items items' : List Value},
    c.FitsEach w patterns patterns' items items' →
    patterns.Forall₂ (Likeness.Target (c.Like w)) patterns'
  | [], [], _, _, _ => .nil
  | _ :: _, _ :: _, _, _, ⟨hfirst, hrest⟩ => by
    refine .cons ?_ (FitsEach.targets hrest)
    rcases hfirst with ⟨hpattern, -⟩ | ⟨name, hpattern, hpattern', -⟩
    · exact hpattern
    · exact .inr ⟨name, hpattern, hpattern'⟩

theorem fitsEach_of_like {patterns patterns' items items' : List Value}
    (hpatterns : patterns.Forall₂ (Likeness.Target (c.Like w)) patterns')
    (hitems : items.Forall₂ (c.Like w) items') : c.FitsEach w patterns patterns' items items' := by
  induction hpatterns generalizing items items' with
  | nil => exact trivial
  | cons hpattern _ ih =>
    have hfirst := (c.likeness w).head?_getD hitems
    exact ⟨fits_of_like hpattern hfirst, ih (Likeness.forall₂_tail hitems)⟩

theorem binds_define (htwins : c.Twins w m m') {id id' : FrameId} (hopens : c.Opens w id id')
    {name : String} {value value' : Value} (hvalue : c.Admits w name value value') :
    c.Binds w (Store.define id (.symbol name) value) (Store.define id' (.symbol name) value')
      m m' :=
  binds_define_of_twins htwins (c.guard htwins hopens name) (c.extend htwins hopens hvalue)

mutual

/-- Binding a pattern to values that fit it keeps the machines related. -/
theorem binds_bind {id id' : FrameId} (hopens : c.Opens w id id') :
    ∀ (pattern : Value) {pattern' value value' : Value} {m m' : Machine}, c.Twins w m m' →
    c.Fits w pattern pattern' value value' →
    c.Binds w (Pattern.bind id pattern value) (Pattern.bind id' pattern' value') m m'
  | .symbol name, _, _, _, _, _, htwins, hfits => by
    obtain ⟨rfl, hvalue⟩ := hfits.of_symbol
    rw [Pattern.bind, Pattern.bind]
    exact binds_define htwins hopens hvalue
  | .vector patterns, _, value, value', _, _, htwins, hfits => by
    obtain ⟨hpattern, hvalue⟩ := hfits.of_ne_symbol nofun
    cases (c.likeness w).pairs hpattern with
    | vector hpatterns =>
      rw [Pattern.bind, Pattern.bind]
      rcases like_positions hvalue with ⟨items, items', hleft, hright, hitems⟩ |
        ⟨reason, reason', hleft, hright, hfault⟩
      · rw [hleft, hright]
        exact binds_bindEach hopens patterns htwins
          (fitsEach_of_like (Likeness.forall₂_target hpatterns) hitems)
      · rw [hleft, hright]
        exact binds_throw htwins hfault
  | .nil, _, _, _, _, _, htwins, hfits | .bool _, _, _, _, _, _, htwins, hfits
  | .number _, _, _, _, _, _, htwins, hfits | .str _, _, _, _, _, _, htwins, hfits
  | .keyword _, _, _, _, _, _, htwins, hfits | .list _, _, _, _, _, _, htwins, hfits
  | .map _, _, _, _, _, _, htwins, hfits | .function .., _, _, _, _, _, htwins, hfits
  | .host .., _, _, _, _, _, htwins, hfits | .transformer .., _, _, _, _, _, htwins, hfits
  | .environment _, _, _, _, _, _, htwins, hfits => by
    obtain ⟨hpattern, -⟩ := hfits.of_ne_symbol nofun
    cases (c.likeness w).pairs hpattern
    exact binds_throw htwins (.about rfl hpattern)

/-- Binding patterns to values that fit them keeps the machines related. -/
theorem binds_bindEach {id id' : FrameId} (hopens : c.Opens w id id') :
    ∀ (patterns : List Value) {patterns' items items' : List Value} {m m' : Machine},
    c.Twins w m m' → c.FitsEach w patterns patterns' items items' →
    c.Binds w (Pattern.bindEach id patterns items) (Pattern.bindEach id' patterns' items') m m'
  | [], [], _, _, _, _, htwins, _ => by
    rw [Pattern.bindEach, Pattern.bindEach]
    exact .ok le_rfl htwins rfl
  | pattern :: patterns, pattern' :: patterns', items, items', m, m', htwins, hfits => by
    rw [FitsEach] at hfits
    rw [Pattern.bindEach, Pattern.bindEach]
    refine (binds_bind hopens pattern htwins hfits.1).seq ?_
    intro n n' htwins'
    exact binds_bindEach hopens patterns htwins' hfits.2
  | [], _ :: _, _, _, _, _, _, hfits => absurd hfits (by simp [FitsEach])
  | _ :: _, [], _, _, _, _, _, hfits => absurd hfits (by simp [FitsEach])

end

end Coupling

end SmallLisp
