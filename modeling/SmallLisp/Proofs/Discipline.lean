import SmallLisp.Evaluator
import SmallLisp.Proofs.Capability
import SmallLisp.Proofs.Shapes

/-!
# Disciplines: what evaluation keeps

Most of what can be said about a run is of one form: *the store stays good, whatever the run does
and however it ends*. Evaluation and application call each other through a dozen functions, so the
argument is made here once, for any notion of a good store, and each notion only has to answer for
the steps that touch frames or hand out capabilities.

* `Run.Ends`: what holds when a run ends, with a value or with a stop.
* `Discipline`: a notion of a good store together with what it lets a run do. `Leads` relates the
  store before to the store after; `Opens` does the same while a frame is still being bound;
  `Trusts` says which capabilities a program may hold, `Scope` in which frames it may run, `Code`
  which forms it may evaluate and `Allows` which faults it may end with. The laws are about single
  steps: a new frame, a binding, a definition, a look-up, a special form, a call.
* `Discipline.Respects`: an engine that evaluates and applies within the discipline. That the
  engine of every depth does is the subject of `SmallLisp.Proofs.Evaluation`.
* `Discipline.Keeps`: one run keeps the discipline, with the rules for putting runs together.
* `Discipline.Binds`: binding the patterns of a call or a `let` keeps the new frame open.
-/

namespace SmallLisp

/-! ## Runs -/

namespace Run

variable {α β : Type}

/-- How the run ends: with a value and a store that satisfy `gives`, or with a stop and a store that
satisfy `stops`. -/
def Ends (run : Run α) (m : Machine) (stops : Stop → Store → Prop) (gives : α → Store → Prop) :
    Prop :=
  match run m with
  | .ok a m' => gives a m'.store
  | .error stop m' => stops stop m'.store

/-- The machine that the run leaves behind, however it ends. -/
def after (run : Run α) (m : Machine) : Machine :=
  match run m with
  | .ok _ m' => m'
  | .error _ m' => m'

/-- How the run ends. -/
def outcome (run : Run α) (m : Machine) : Except Stop α :=
  match run m with
  | .ok a _ => .ok a
  | .error stop _ => .error stop

/-- The fault that the run ends with. -/
def fault? (run : Run α) (m : Machine) : Option Fault :=
  match run m with
  | .error (.fault fault) _ => some fault
  | _ => none

variable {m : Machine} {stops : Stop → Store → Prop} {q : α → Store → Prop}
  {r : β → Store → Prop}

theorem outcome_of_ok {run : Run α} {value : α} {m' : Machine} (h : run m = .ok value m') :
    run.outcome m = .ok value := by
  rw [outcome, h]

theorem outcome_of_error {run : Run α} {stop : Stop} {m' : Machine}
    (h : run m = .error stop m') : run.outcome m = .error stop := by
  rw [outcome, h]

/-- A run of which a test of its value can be seen to succeed ends with a value. -/
theorem exists_ok_of_any {run : Run α} {p : α → Bool}
    (h : (run.outcome m).toOption.any p = true) :
    ∃ value m', run m = .ok value m' ∧ p value = true := by
  unfold outcome at h
  cases hrun : run m with
  | ok value m' =>
    rw [hrun] at h
    exact ⟨value, m', rfl, h⟩
  | error stop m' =>
    rw [hrun] at h
    cases h

/-- A run of which a test of its fault can be seen to succeed ends with a fault. -/
theorem exists_fault_of_any {run : Run α} {p : Fault → Bool} (h : (run.fault? m).any p = true) :
    ∃ fault m', run m = .error (.fault fault) m' ∧ p fault = true := by
  unfold fault? at h
  split at h
  · rename_i fault m' hrun
    exact ⟨fault, m', hrun, h⟩
  · cases h

theorem Ends.bind {run : Run α} {f : α → Run β} (hrun : run.Ends m stops q)
    (hf : ∀ a m', q a m'.store → (f a).Ends m' stops r) : (run >>= f).Ends m stops r := by
  unfold Ends at hrun ⊢
  show match EStateM.bind run f m with
    | .ok a m' => r a m'.store
    | .error stop m' => stops stop m'.store
  unfold EStateM.bind
  cases h : run m with
  | ok a m' =>
    rw [h] at hrun
    exact hf a m' hrun
  | error stop m' =>
    rw [h] at hrun
    exact hrun

theorem Ends.mono {run : Run α} {stops' : Stop → Store → Prop} {q' : α → Store → Prop}
    (hrun : run.Ends m stops q) (hstops : ∀ stop s, stops stop s → stops' stop s)
    (hq : ∀ a s, q a s → q' a s) : run.Ends m stops' q' := by
  unfold Ends at hrun ⊢
  split at hrun
  · exact hq _ _ hrun
  · exact hstops _ _ hrun

/-- What a run ends with, if that is a value. -/
theorem Ends.of_ok {run : Run α} (h : run.Ends m stops q) {a : α} {m' : Machine}
    (hrun : run m = .ok a m') : q a m'.store := by
  unfold Ends at h
  rw [hrun] at h
  exact h

/-- What a run ends with, if that is a stop. -/
theorem Ends.of_error {run : Run α} (h : run.Ends m stops q) {stop : Stop} {m' : Machine}
    (hrun : run m = .error stop m') : stops stop m'.store := by
  unfold Ends at h
  rw [hrun] at h
  exact h

/-- What holds of the store at every end holds of the store that is left behind. -/
theorem Ends.after {run : Run α} {p : Store → Prop} (h : run.Ends m stops q)
    (hstops : ∀ stop s, stops stop s → p s) (hq : ∀ a s, q a s → p s) :
    p (run.after m).store := by
  unfold Run.after
  cases hrun : run m with
  | ok a m' => exact hq a m'.store (h.of_ok hrun)
  | error stop m' => exact hstops stop m'.store (h.of_error hrun)

theorem ends_pure {a : α} (h : q a m.store) : (pure a : Run α).Ends m stops q := h

theorem ends_fail {fault : Fault} (h : stops (.fault fault) m.store) :
    (fail fault : Run α).Ends m stops q := h

/-- A computation without effects ends where it began. -/
theorem ends_ofExcept {x : Except Fault α} (hok : ∀ a, x = .ok a → q a m.store)
    (herror : ∀ fault, x = .error fault → stops (.fault fault) m.store) :
    (ofExcept x).Ends m stops q := by
  cases x with
  | ok a => exact hok a rfl
  | error fault => exact herror fault rfl

theorem ends_ofWriting {writing : Store.Writing α}
    (hok : ∀ a s, writing m.store = .ok a s → q a s)
    (herror : ∀ reason s, writing m.store = .error reason s → stops (.fault (.bind reason)) s) :
    (ofWriting writing).Ends m stops q := by
  obtain ⟨store, serial, calls, log, verbose⟩ := m
  unfold Ends ofWriting
  dsimp only at hok herror ⊢
  cases h : writing store with
  | ok a s => exact hok a s h
  | error reason s => exact herror reason s h

/-- Looking at the store changes nothing. -/
theorem ends_bind_store {f : Store → Run β} (h : (f m.store).Ends m stops r) :
    (store >>= f).Ends m stops r := h

/-- Looking at the machine changes nothing. -/
theorem ends_bind_get {f : Machine → Run β} (h : (f m).Ends m stops r) :
    ((get : Run Machine) >>= f).Ends m stops r := h

theorem ends_push {q : FrameId → Store → Prop} {outer : Option FrameId}
    (h : q m.store.size (m.store.push outer)) : (push outer).Ends m stops q := h

theorem ends_enter {q : Unit → Store → Prop} {id : FrameId} (h : q () (m.store.enter id)) :
    (enter id).Ends m stops q := h

theorem ends_defineGlobal {q : Unit → Store → Prop} {id : FrameId} {name : String} {value : Value}
    (h : q () (m.store.assign (m.store.root id) name value)) :
    (defineGlobal id name value).Ends m stops q := h

theorem ends_nextSerial {q : Nat → Store → Prop} (h : ∀ serial, q serial m.store) :
    nextSerial.Ends m stops q := h m.serial

theorem ends_record {q : Nat → Store → Prop} {call : ProbeCall} (h : ∀ count, q count m.store) :
    (record call).Ends m stops q := h _

theorem ends_logLine {q : Unit → Store → Prop} {line : String} (h : q () m.store) :
    (logLine line).Ends m stops q := h

/-- Printing leaves the store alone. It stops with an ordinary fault or by giving up. -/
theorem ends_print {q : String → Store → Prop} {style : Style} {value : Value}
    (h : ∀ text, q text m.store) (hlong : stops (.fault .unprintable) m.store)
    (hcircular : stops .exhausted m.store) : (print style value).Ends m stops q := by
  apply ends_bind_store
  split
  · exact h _
  · exact hlong
  · exact hcircular

end Run

/-- A name is bound in a frame unless the frame lies inside another one and binds it already. -/
theorem Store.define_symbol (id : FrameId) (name : String) (value : Value) (store : Store) :
    Store.define id (.symbol name) value store =
      if (store.local? id name).isSome && !store.isRoot id then .error (.duplicate name) store
      else .ok () (store.extend id name value) := by
  by_cases hguard : ((store.local? id name).isSome && !store.isRoot id) = true
  · rw [if_pos hguard]
    show (if _ then _ else _ : Store.Writing Unit) store = _
    rw [if_pos hguard]
    rfl
  · rw [if_neg hguard]
    show (if _ then _ else _ : Store.Writing Unit) store = _
    rw [if_neg hguard]
    rfl

/-! ## Disciplines -/

/-- A notion of a good store, with what it lets a run do. -/
structure Discipline where
  /-- The store is good. -/
  Good : Store → Prop
  /-- A run may lead from the one store to the other. -/
  Leads : Store → Store → Prop
  /-- A run may lead from the one store to the other, in which the frame it has made is still being
  bound. -/
  Opens : Store → FrameId → Store → Prop
  /-- A program may hold the capability. -/
  Trusts : Store → Value → Prop
  /-- A program may run in the frame. -/
  Scope : Store → FrameId → Prop
  /-- A program may evaluate the form. -/
  Code : Store → Value → Prop
  /-- A run may end with the fault. -/
  Allows : Fault → Prop
  leads_refl : ∀ {s}, Leads s s
  leads_trans : ∀ {s s' s''}, Leads s s' → Leads s' s'' → Leads s s''
  trusts_mono : ∀ {s s' c}, Leads s s' → Trusts s c → Trusts s' c
  scope_mono : ∀ {s s' id}, Leads s s' → Scope s id → Scope s' id
  code_mono : ∀ {s s' form}, Leads s s' → Code s form → Code s' form
  /-- A frame may be made inside one that a program may run in. -/
  push : ∀ {s outer}, Good s → Scope s outer →
    Good (s.push (some outer)) ∧ Opens s s.size (s.push (some outer))
  opens_leads : ∀ {s id s'}, Opens s id s' → Leads s s'
  opens_scope : ∀ {s id s'}, Opens s id s' → Scope s' id
  opens_trans : ∀ {s id s' s''}, Opens s id s' → Leads s' s'' → Opens s id s''
  /-- A name may be bound in a frame that is still being bound. -/
  extend : ∀ {s id s' name value}, Good s' → Opens s id s' →
    ((s'.local? id name).isSome && !s'.isRoot id) = false → value.Every (Trusts s') →
    Good (s'.extend id name value) ∧ Opens s id (s'.extend id name value) ∧
      ∀ c, Trusts s' c → Trusts (s'.extend id name value) c
  /-- A frame may be entered once it is bound. -/
  enter : ∀ {s id s'}, Good s' → Opens s id s' →
    Good (s'.enter id) ∧ Leads s (s'.enter id) ∧ Scope (s'.enter id) id
  /-- A name may be defined on the root around a frame that a program may run in. -/
  assign : ∀ {s id name value}, Good s → Scope s id → value.Every (Trusts s) →
    Good (s.assign (s.root id) name value) ∧ Leads s (s.assign (s.root id) name value)
  /-- A name that a program may evaluate means something that it may hold. -/
  lookup : ∀ {s id name value}, Good s → Scope s id → Code s (.symbol name) →
    s.lookup? id name = some value → value.Every (Trusts s)
  every_of_code : ∀ {s form}, Code s form → form.Every (Trusts s)
  /-- A special form is in shape, or its fault is allowed. -/
  shape : ∀ {s head operands form reason}, Code s (.list (head :: operands)) →
    SpecialForm.ofHead? head = some form → form.check operands = .error reason →
    Allows (.shape form reason)
  /-- The parts of a special form that is in shape may be evaluated. -/
  parts : ∀ {s head operands form}, Code s (.list (head :: operands)) →
    SpecialForm.ofHead? head = some form → form.check operands = .ok () →
    ∀ part ∈ form.parts operands, Code s part
  /-- The parts of a call may be evaluated. -/
  call : ∀ {s head operands}, Code s (.list (head :: operands)) →
    SpecialForm.ofHead? head = none → ∀ part ∈ head :: operands, Code s part
  /-- A program may hold the functions that it makes. -/
  function : ∀ {s head params body serial home}, Code s (.list (head :: .vector params :: body)) →
    SpecialForm.ofHead? head = some .fnForm →
    SpecialForm.fnForm.check (.vector params :: body) = .ok () → Scope s home →
    Trusts s (.function serial (.vector params) body home)
  /-- A function that a program holds may be applied. -/
  home : ∀ {s serial params body home}, (Value.function serial params body home).Every (Trusts s) →
    Scope s home ∧ ∀ form ∈ body, Code s form
  /-- A function that a program holds has parameters that fit its arguments, or the fault is
  allowed. -/
  application : ∀ {s serial params body home patterns arguments reason},
    Trusts s (.function serial params body home) → params.elements? = some patterns →
    arguments.length = patterns.length →
    SpecialForm.letForm.check (.vector (Engine.interleave patterns arguments) :: body) =
      .error reason →
    Allows (.shape .letForm reason)
  uncallable : ∀ {s serial params body home}, Trusts s (.function serial params body home) →
    params.elements? = none → Allows .uncallable
  invoker : ∀ {s serial name}, Trusts s (.host serial (.invoker name)) → Allows .uncallable
  /-- What an expander makes may be held. -/
  expander : ∀ {s serial expander arguments form}, Trusts s (.host serial (.expander expander)) →
    (∀ argument ∈ arguments, argument.Every (Trusts s)) →
    expander.expand arguments = .ok form → form.Every (Trusts s)
  expander_fault : ∀ {s serial expander arguments fault},
    Trusts s (.host serial (.expander expander)) →
    expander.expand arguments = .error fault → Allows fault
  missing : ∀ {s serial expander}, Trusts s (.host serial (.expander expander)) →
    Allows (.missingArgument (.host serial (.expander expander)))
  /-- What a program may hold it may make a transformer, if it can do so at all. -/
  maker : ∀ {s maker serial target}, Trusts s (.host maker (.builtin .makeTransformer)) →
    target.Every (Trusts s) → Trusts s (.transformer serial target)
  /-- A transformer may be handed a scope. -/
  environment : ∀ {s serial target id}, Trusts s (.transformer serial target) → Scope s id →
    Trusts s (.environment id)
  /-- What a transformer makes may be evaluated once it is checked. -/
  expansion : ∀ {s serial target bound form}, Trusts s (.transformer serial target) →
    form.Every (Trusts s) → Validation.check bound form = .ok () → Code s form
  invalid : ∀ {s serial target bound form fault}, Trusts s (.transformer serial target) →
    Validation.check bound form = .error fault → Allows fault
  ordinary : ∀ {fault}, fault.Ordinary → Allows fault

namespace Discipline

variable (d : Discipline)

/-- A program may hold the value. -/
def Fit (s : Store) (value : Value) : Prop :=
  value.Every (d.Trusts s)

/-- A run that began with the one store may end with the stop and the other store. -/
def Stops (s : Store) (stop : Stop) (s' : Store) : Prop :=
  d.Good s' ∧ d.Leads s s' ∧ ∀ fault, stop = .fault fault → d.Allows fault

/-- A run that began with the one store may end with a value that has `q` and the other store. -/
def Gives {α : Type} (s : Store) (q : Store → α → Prop) (a : α) (s' : Store) : Prop :=
  d.Good s' ∧ d.Leads s s' ∧ q s' a

/-- The run, begun with a machine whose store was reached from `s`, keeps the discipline. -/
def Keeps {α : Type} (s : Store) (run : Run α) (m : Machine) (q : Store → α → Prop) : Prop :=
  run.Ends m (d.Stops s) (d.Gives s q)

/-- The engine evaluates and applies within the discipline. -/
structure Respects (engine : Engine) : Prop where
  eval : ∀ {form frame m}, d.Good m.store → d.Scope m.store frame → d.Code m.store form →
    d.Keeps m.store (engine.eval form frame) m d.Fit
  apply : ∀ {callee arguments m}, d.Good m.store → d.Fit m.store callee →
    (∀ argument ∈ arguments, d.Fit m.store argument) →
    d.Keeps m.store (engine.apply callee arguments) m d.Fit

variable {d} {α β : Type} {s s' : Store} {m : Machine}

theorem Fit.mono {value : Value} (h : d.Fit s value) (hleads : d.Leads s s') : d.Fit s' value :=
  Value.Every.mono h fun _ hc => d.trusts_mono hleads hc

/-- A stop in a store that was reached may end the run that reached it. -/
theorem Stops.trans {stop : Stop} {s'' : Store} (hleads : d.Leads s s')
    (h : d.Stops s' stop s'') : d.Stops s stop s'' :=
  ⟨h.1, d.leads_trans hleads h.2.1, h.2.2⟩

theorem stops_fault {fault : Fault} (hgood : d.Good s') (hleads : d.Leads s s')
    (hallows : d.Allows fault) : d.Stops s (.fault fault) s' :=
  ⟨hgood, hleads, fun _ h => by cases h; exact hallows⟩

theorem stops_exhausted (hgood : d.Good s') (hleads : d.Leads s s') :
    d.Stops s .exhausted s' :=
  ⟨hgood, hleads, fun _ h => by cases h⟩

namespace Keeps

variable {q : Store → α → Prop} {r : Store → β → Prop}

/-- What a run does from a store that was reached it does from where that store was reached. -/
theorem trans {run : Run α} (hleads : d.Leads s s') (h : d.Keeps s' run m q) :
    d.Keeps s run m q :=
  Run.Ends.mono h (fun _ _ hstops => hstops.trans hleads)
    fun _ _ hgives => ⟨hgives.1, d.leads_trans hleads hgives.2.1, hgives.2.2⟩

theorem bind {run : Run α} {f : α → Run β} (hrun : d.Keeps s run m q)
    (hf : ∀ a m', d.Good m'.store → d.Leads s m'.store → q m'.store a → d.Keeps s (f a) m' r) :
    d.Keeps s (run >>= f) m r :=
  Run.Ends.bind hrun fun a m' hgives => hf a m' hgives.1 hgives.2.1 hgives.2.2

theorem mono {run : Run α} {q' : Store → α → Prop} (hrun : d.Keeps s run m q)
    (hq : ∀ s a, q s a → q' s a) : d.Keeps s run m q' :=
  Run.Ends.mono hrun (fun _ _ h => h) fun a s h => ⟨h.1, h.2.1, hq s a h.2.2⟩

/-- However the run ends, it leaves a good store behind and has led there. -/
theorem after {run : Run α} (h : d.Keeps s run m q) :
    d.Good (run.after m).store ∧ d.Leads s (run.after m).store :=
  Run.Ends.after (p := fun store => d.Good store ∧ d.Leads s store) h
    (fun _ _ hstops => ⟨hstops.1, hstops.2.1⟩) fun _ _ hgives => ⟨hgives.1, hgives.2.1⟩

/-- A run that ends with a value has the result that it should. -/
theorem result {run : Run α} (h : d.Keeps s run m q) {a : α} (hrun : run.outcome m = .ok a) :
    q (run.after m).store a := by
  unfold Run.outcome at hrun
  unfold Run.after
  cases hresult : run m with
  | ok b m' =>
    rw [hresult] at hrun
    cases hrun
    exact (Run.Ends.of_ok h hresult).2.2
  | error stop m' =>
    rw [hresult] at hrun
    cases hrun

end Keeps

theorem keeps_pure {q : Store → α → Prop} {a : α} (hgood : d.Good m.store)
    (hleads : d.Leads s m.store) (h : q m.store a) : d.Keeps s (pure a) m q :=
  Run.ends_pure ⟨hgood, hleads, h⟩

theorem keeps_fail {q : Store → α → Prop} {fault : Fault} (hgood : d.Good m.store)
    (hleads : d.Leads s m.store) (hallows : d.Allows fault) :
    d.Keeps s (Run.fail fault) m q :=
  Run.ends_fail (stops_fault hgood hleads hallows)

/-- A computation with ordinary faults only keeps every discipline. -/
theorem keeps_ofExcept {q : Store → α → Prop} {x : Except Fault α} (hgood : d.Good m.store)
    (hleads : d.Leads s m.store) (hx : Orderly x (q m.store)) :
    d.Keeps s (Run.ofExcept x) m q := by
  refine Run.ends_ofExcept ?_ ?_
  · rintro a rfl
    exact ⟨hgood, hleads, hx⟩
  · rintro fault rfl
    exact stops_fault hgood hleads (d.ordinary hx)

theorem keeps_print {style : Style} {value : Value} (hgood : d.Good m.store)
    (hleads : d.Leads s m.store) :
    d.Keeps s (Run.print style value) m fun s' _ => s' = m.store := by
  refine Run.ends_print (fun _ => ⟨hgood, hleads, rfl⟩) ?_ ?_
  · exact stops_fault hgood hleads (d.ordinary trivial)
  · exact stops_exhausted hgood hleads

/-! ## Binding -/

/-- The computation binds names in the frame `id`, which the run that began with `s` has made: it
keeps the frame open, takes back no trust, and fails only as every program can. -/
def Binds (d : Discipline) (s : Store) (id : FrameId) (writing : Store.Writing Unit) (s' : Store) :
    Prop :=
  match writing s' with
  | .ok _ s'' => d.Good s'' ∧ d.Opens s id s'' ∧ ∀ c, d.Trusts s' c → d.Trusts s'' c
  | .error reason s'' => d.Good s'' ∧ d.Opens s id s'' ∧ (Fault.bind reason).Ordinary

theorem Binds.seq {id : FrameId} {first second : Store.Writing Unit}
    (hfirst : d.Binds s id first s')
    (hsecond : ∀ s'', d.Good s'' → d.Opens s id s'' → (∀ c, d.Trusts s' c → d.Trusts s'' c) →
      d.Binds s id second s'') :
    d.Binds s id (first >>= fun _ => second) s' := by
  unfold Binds at hfirst ⊢
  show match EStateM.bind first (fun _ => second) s' with
    | .ok _ s'' => d.Good s'' ∧ d.Opens s id s'' ∧ ∀ c, d.Trusts s' c → d.Trusts s'' c
    | .error reason s'' => d.Good s'' ∧ d.Opens s id s'' ∧ (Fault.bind reason).Ordinary
  unfold EStateM.bind
  cases h : first s' with
  | error reason s'' =>
    rw [h] at hfirst
    exact hfirst
  | ok u s'' =>
    rw [h] at hfirst
    obtain ⟨hgood, hopens, htrusts⟩ := hfirst
    have hrest := hsecond s'' hgood hopens htrusts
    unfold Binds at hrest
    dsimp only
    split at hrest
    · exact ⟨hrest.1, hrest.2.1, fun c hc => hrest.2.2 c (htrusts c hc)⟩
    · exact hrest

theorem binds_throw {id : FrameId} {reason : BindError} (hgood : d.Good s')
    (hopens : d.Opens s id s') (hreason : (Fault.bind reason).Ordinary) :
    d.Binds s id (throw reason) s' :=
  ⟨hgood, hopens, hreason⟩

theorem binds_define {id : FrameId} {name : String} {value : Value} (hgood : d.Good s')
    (hopens : d.Opens s id s') (hvalue : d.Fit s' value) :
    d.Binds s id (Store.define id (.symbol name) value) s' := by
  unfold Binds
  rw [Store.define_symbol]
  cases hguard : (s'.local? id name).isSome && !s'.isRoot id with
  | true => exact ⟨hgood, hopens, trivial⟩
  | false => exact d.extend hgood hopens hguard hvalue

theorem fit_positions {value : Value} {items : List Value}
    (h : Pattern.positions value = .ok items) (hvalue : d.Fit s value) :
    ∀ item ∈ items, d.Fit s item := by
  unfold Pattern.positions at h
  split at h <;> cases h
  · simp
  · exact (Value.every_list _).1 hvalue
  · exact (Value.every_vector _).1 hvalue

theorem ordinary_of_positions {value : Value} {reason : BindError}
    (h : Pattern.positions value = .error reason) : (Fault.bind reason).Ordinary := by
  unfold Pattern.positions at h
  split at h <;> cases h <;> exact trivial

mutual

/-- Binding a pattern binds names only. -/
theorem binds_bind {id : FrameId} : ∀ (pattern : Value) {value : Value} {s' : Store},
    Pattern.badTarget? pattern = none → d.Good s' → d.Opens s id s' → d.Fit s' value →
    d.Binds s id (Pattern.bind id pattern value) s'
  | .symbol name, value, s', _, hgood, hopens, hvalue => by
    rw [Pattern.bind]
    exact binds_define hgood hopens hvalue
  | .vector patterns, value, s', htarget, hgood, hopens, hvalue => by
    rw [Pattern.badTarget?] at htarget
    rw [Pattern.bind]
    cases hpositions : Pattern.positions value with
    | ok items =>
      exact binds_bindEach patterns htarget hgood hopens (fit_positions hpositions hvalue)
    | error reason => exact binds_throw hgood hopens (ordinary_of_positions hpositions)
  | .nil, _, _, htarget, _, _, _ | .bool _, _, _, htarget, _, _, _
  | .number _, _, _, htarget, _, _, _ | .str _, _, _, htarget, _, _, _
  | .keyword _, _, _, htarget, _, _, _ | .list _, _, _, htarget, _, _, _
  | .map _, _, _, htarget, _, _, _ | .function .., _, _, htarget, _, _, _
  | .host .., _, _, htarget, _, _, _ | .transformer .., _, _, htarget, _, _, _
  | .environment _, _, _, htarget, _, _, _ => by
    simp [Pattern.badTarget?] at htarget

/-- Binding patterns by position binds names only. -/
theorem binds_bindEach {id : FrameId} : ∀ (patterns : List Value) {items : List Value} {s' : Store},
    Pattern.badTargets? patterns = none → d.Good s' → d.Opens s id s' →
    (∀ item ∈ items, d.Fit s' item) → d.Binds s id (Pattern.bindEach id patterns items) s'
  | [], items, s', _, hgood, hopens, _ => by
    rw [Pattern.bindEach]
    exact ⟨hgood, hopens, fun _ hc => hc⟩
  | pattern :: patterns, items, s', htargets, hgood, hopens, hitems => by
    rw [Pattern.badTargets?] at htargets
    split at htargets
    · cases htargets
    · rename_i htarget
      rw [Pattern.bindEach]
      have hhead : d.Fit s' (items.head?.getD .nil) := by
        cases items with
        | nil => exact Value.every_nil
        | cons item items => exact hitems item List.mem_cons_self
      apply (binds_bind pattern htarget hgood hopens hhead).seq
      intro s'' hgood hopens htrusts
      apply binds_bindEach patterns htargets hgood hopens
      intro item hitem
      exact Value.Every.mono (hitems item (List.mem_of_mem_tail hitem)) htrusts

end

/-- A frame that is still being bound, as the state of the run that binds it. -/
theorem ends_binds {id : FrameId} {writing : Store.Writing Unit}
    (h : d.Binds s id writing m.store) :
    (Run.ofWriting writing).Ends m (d.Stops s) fun _ s' => d.Good s' ∧ d.Opens s id s' := by
  unfold Binds at h
  refine Run.ends_ofWriting ?_ ?_
  · intro u s' hwriting
    rw [hwriting] at h
    exact ⟨h.1, h.2.1⟩
  · intro reason s' hwriting
    rw [hwriting] at h
    exact stops_fault h.1 (d.opens_leads h.2.1) (d.ordinary h.2.2)

end Discipline

end SmallLisp
