import SmallLisp.Proofs.Region
import SmallLisp.Proofs.ShapeSafety
import SmallLisp.Proofs.Twins

/-!
# Isolation

What a program does is a matter of the region that it runs in: it leaves every other frame alone,
it makes frames of its region only, and it cannot tell what the other frames hold.

* `Machine.SameOn`: two machines differ at most in frames outside a set.
* `Store.Region.eval_sameOn`: on such machines a run in a region is the same run.
* `Session.play`: programs of several sessions, one after the other on one machine.
* `Session.Together`: the state of several sessions on one machine, each compared with a machine on
  which it is alone. One program keeps it (`Session.Together.turn`), and so do all.
* **`Session.isolation`**: both parts together.
-/

namespace SmallLisp

open Correspondence
open Value (Alike)

/-! ## Machines that differ outside a region -/

/-- The machines differ at most in frames outside the set. -/
structure Machine.SameOn (S : Set FrameId) (m m' : Machine) : Prop where
  size : m'.store.size = m.store.size
  frames : ∀ id ∈ S, m'.store.frame? id = m.store.frame? id
  serial : m'.serial = m.serial
  calls : m'.calls = m.calls
  log : m'.log = m.log
  verbose : m'.verbose = m.verbose

section region

variable {m m' : Machine} {S : Set FrameId}

theorem alike_of_refersTo {size serial : Nat} {value : Value}
    (h : value.Every (Value.RefersTo S)) :
    Alike Eq (.identity size serial S Set.univ) value value := by
  refine Alike.self (h.mono fun c hc => ?_)
  cases c with
  | function => exact ⟨⟨rfl, trivial⟩, rfl, hc⟩
  | host => exact ⟨⟨rfl, trivial⟩, fun _ _ => rfl⟩
  | transformer => exact ⟨rfl, trivial⟩
  | environment => exact ⟨rfl, hc⟩
  | _ => trivial

/-- In a region the stores mirror each other, each frame matched with itself. -/
theorem Store.Region.mirrors {store store' : Store} {probes : Nat → Nat → Prop} {serial : Nat}
    {N : Set Nat} (hS : store.Region S) (hsize : store'.size = store.size)
    (hframes : ∀ id ∈ S, store'.frame? id = store.frame? id)
    (halike : ∀ id ∈ S, ∀ frame, store.frame? id = some frame → ∀ var ∈ frame.vars,
      Alike probes (.identity store.size serial S N) var.2 var.2) :
    Mirrors probes (.identity store.size serial S N) store store' := by
  refine ⟨rfl, hsize.symm, ?_⟩
  rintro id _ ⟨rfl, hid⟩
  rw [hframes id hid]
  cases hframe : store.frame? id with
  | none => exact .none
  | some frame =>
    refine .some ⟨?_, List.forall₂_same.2 fun var hvar =>
      ⟨rfl, halike id hid frame hframe var hvar⟩⟩
    cases houter : frame.outer with
    | none => exact .none
    | some outer => exact .some ⟨rfl, hS.outer id hid frame outer hframe houter⟩

theorem Machine.SameOn.twins (hS : m.store.Region S) (h : m.SameOn S m') :
    Twins Eq (.identity m.store.size m.serial S Set.univ) m m' m m' where
  store := hS.mirrors h.size h.frames fun id hid frame hframe var hvar =>
    alike_of_refersTo (hS.vars id hid frame hframe var hvar)
  serial := rfl
  serial' := h.serial.symm
  maker := ⟨rfl, trivial⟩
  verbose := h.verbose.symm
  verbose' := rfl
  probe := by
    rintro serial _ rfl
    exact ⟨⟨rfl, trivial⟩, by rw [h.calls]⟩
  log := ⟨[], by simp, by simp⟩
  calls := ⟨[], [], by simp, by simp, .nil⟩

/-- Twins in which everything is matched with itself are the same on the matched frames. -/
theorem sameOn_of_twins {probes : Nat → Nat → Prop} {w : Correspondence} {base base' : Machine}
    (hframes : w.frames.Diagonal) (hserials : w.serials.Diagonal)
    (hprobes : ∀ {serial serial'}, probes serial serial' → serial = serial')
    (hlog : base'.log = base.log) (hcalls : base'.calls = base.calls)
    (h : Twins probes w base base' m m') : m.SameOn {id | w.frames.Rel id id} m' := by
  have heq : ∀ {a a' : Value}, Alike probes w a a' → a = a' := Alike.eq_of_diagonal hframes hserials
  have hcall : ∀ {call call' : ProbeCall}, CallLike probes w call call' → call = call' := by
    rintro ⟨serial, probe, arguments⟩ ⟨serial', probe', arguments'⟩ ⟨hprobe, hserial, harguments⟩
    have hsame := harguments.imp fun _ _ => heq
    rw [List.forall₂_eq_eq_eq] at hsame
    dsimp only at hprobe hserial hsame
    rw [hprobe, hprobes hserial, hsame]
  refine ⟨?_, ?_, ?_, ?_, ?_, h.verbose.symm⟩
  · rw [← h.store.size, ← h.store.size', hframes.size]
  · intro id hid
    have hframe := h.store.frames hid
    generalize m.store.frame? id = frame, m'.store.frame? id = frame' at hframe
    cases hframe with
    | none => rfl
    | @some frame frame' hframe =>
      obtain ⟨outer, vars⟩ := frame
      obtain ⟨outer', vars'⟩ := frame'
      obtain ⟨houter, hvars⟩ := hframe
      have hvars := hvars.imp fun _ _ hvar => Prod.ext hvar.1 (heq hvar.2)
      rw [List.forall₂_eq_eq_eq] at hvars
      dsimp only at houter hvars
      rw [hvars]
      cases houter with
      | none => rfl
      | some houter => rw [hframes.rel houter]
  · rw [← h.serial, ← h.serial', hserials.size]
  · obtain ⟨calls, calls', hleft, hright, hlike⟩ := h.calls
    have hsame := hlike.imp fun _ _ => hcall
    rw [List.forall₂_eq_eq_eq] at hsame
    apply Array.toList_inj.1
    rw [hleft, hright, hsame, hcalls]
  · obtain ⟨lines, hleft, hright⟩ := h.log
    apply Array.toList_inj.1
    rw [hleft, hright, hlog]

theorem Machine.SameOn.mono {S' : Set FrameId} (hsub : S' ⊆ S) (h : m.SameOn S m') :
    m.SameOn S' m' :=
  { h with frames := fun id hid => h.frames id (hsub hid) }

/-- Alike stops are the same where nothing is matched but with itself. -/
theorem eq_of_like_of_diagonal {probes : Nat → Nat → Prop} {w : Correspondence}
    (hframes : w.frames.Diagonal) (hserials : w.serials.Diagonal) {stop stop' : Stop}
    (h : Stop.Like (Alike probes w) stop stop') : stop = stop' := by
  cases h with
  | exhausted => rfl
  | fault hfault => rw [hfault.eq (Alike.eq_of_diagonal hframes hserials)]

/-- **A run in a region cannot tell what the frames outside of it hold.** -/
theorem Store.Region.eval_sameOn (hS : m.store.Region S) (h : m.SameOn S m') {frame : FrameId}
    (hframe : frame ∈ S) {form : Value} (hform : form.Every (Value.RefersTo S)) (depth : Nat) :
    let run := (Engine.ofDepth depth).eval form frame
    run.outcome m' = run.outcome m ∧ run.shown m' = run.shown m ∧
      (run.after m).SameOn (m.store.grown S (run.after m).store) (run.after m') := by
  intro run
  have hcouples := (coupled Eq m m' depth).eval (h.twins hS) ⟨rfl, hframe⟩ (alike_of_refersTo hform)
  obtain ⟨w, hle, htwins, hends⟩ := hcouples.exists_twins
  have hframes : w.frames.Diagonal := (Matching.diagonal_identity _ _).extends hle.1
  have hserials : w.serials.Diagonal := (Matching.diagonal_identity _ _).extends hle.2
  refine ⟨?_, hcouples.shown_eq.symm, ?_⟩
  · rcases hends with ⟨value, value', hleft, hright, hvalue⟩ | ⟨stop, stop', hleft, hright, hstop⟩
    · rw [hleft, hright, hvalue.eq_of_diagonal hframes hserials]
    · rw [hleft, hright, eq_of_like_of_diagonal hframes hserials hstop]
  · refine (sameOn_of_twins hframes hserials id h.log h.calls htwins).mono ?_
    rintro id (hid | ⟨hge, hlt⟩)
    · exact hle.1.rel ⟨rfl, hid⟩
    · exact hle.1.new hge (hlt.trans_eq htwins.store.size.symm) rfl

/-- However a run in a region ends, the region is intact, and nothing else has changed. -/
theorem Store.Region.eval_spares (hS : m.store.Region S) {frame : FrameId} (hframe : frame ∈ S)
    {form : Value} (hform : form.Every (Value.RefersTo S)) (depth : Nat) :
    (regionDiscipline m.store S).Keeps m.store ((Engine.ofDepth depth).eval form frame) m
      (regionDiscipline m.store S).Fit :=
  ((regionDiscipline m.store S).respects_ofDepth depth).eval hS.intact (.inl hframe)
    (Value.every_refersTo_mono (fun _ => .inl) hform)

/-- Programs leave everything outside of their region alone. -/
theorem Store.Region.evalText_spares (hS : m.store.Region S) {frame : FrameId} (hframe : frame ∈ S)
    (source : String) (depth : Nat) :
    m.store.Spares S m.store ((Session.evalText (.ofDepth depth) frame source).after m).store := by
  refine Session.after_evalText (.refl _) fun forms hread _ => ?_
  have hrespects := (regionDiscipline m.store S).respects_ofDepth depth
  refine (Discipline.keeps_evalBody hrespects hS.intact (.inl hframe) ?_).after.2
  exact Reader.every_of_mem_readForms _ hread

end region

/-! ## Several sessions on one machine -/

namespace Session

/-- What becomes of one program of a session. -/
structure Exchange where
  /-- How it ends. -/
  outcome : Except Stop Value
  /-- What is to be seen of that. -/
  shown : Run.Shown
  /-- The lines that it writes to the log. -/
  lines : List String
  /-- The calls of probes that it makes. -/
  calls : List ProbeCall

/-- What becomes of a program that is begun on the machine. -/
def exchange (run : Run Value) (m : Machine) : Exchange where
  outcome := run.outcome m
  shown := run.shown m
  lines := (run.after m).log.toList.drop m.log.size
  calls := (run.after m).calls.toList.drop m.calls.size

/-- The programs of several sessions, evaluated in the given order, each of them in the frame of its
session: what becomes of each of them, and the machine behind them. A program whose evaluation fails
has done what it did before. -/
def play {ι : Type} (engine : Engine) (home : ι → FrameId) :
    List (ι × String) → Machine → List (ι × Exchange) × Machine
  | [], m => ([], m)
  | (i, source) :: schedule, m =>
    let run := evalText engine (home i) source
    let (exchanges, last) := play engine home schedule (run.after m)
    ((i, exchange run m) :: exchanges, last)

/-- The programs of one session only. -/
def playAlone {ι : Type} [DecidableEq ι] (engine : Engine) (home : ι → FrameId) (i : ι)
    (schedule : List (ι × String)) (m : Machine) : List (ι × Exchange) × Machine :=
  play engine home (schedule.filter (·.1 = i)) m

/-- What becomes of the programs of one session. -/
def exchangesOf {ι : Type} [DecidableEq ι] (i : ι) (exchanges : List (ι × Exchange)) :
    List Exchange :=
  (exchanges.filter (·.1 = i)).map (·.2)

section schedules

variable {ι : Type} [DecidableEq ι] {engine : Engine} {home : ι → FrameId} {i j : ι}
  {source : String} {schedule : List (ι × String)} {m : Machine} {exchange : Exchange}
  {exchanges : List (ι × Exchange)}

theorem playAlone_cons_self :
    playAlone engine home i ((i, source) :: schedule) m =
      let run := evalText engine (home i) source
      let rest := playAlone engine home i schedule (run.after m)
      ((i, Session.exchange run m) :: rest.1, rest.2) := by
  rw [playAlone, List.filter_cons_of_pos (by simp), play]
  rfl

theorem playAlone_cons_of_ne (hne : j ≠ i) :
    playAlone engine home i ((j, source) :: schedule) m = playAlone engine home i schedule m := by
  rw [playAlone, List.filter_cons_of_neg (by simpa using hne), playAlone]

theorem exchangesOf_cons_self :
    exchangesOf i ((i, exchange) :: exchanges) = exchange :: exchangesOf i exchanges := by
  rw [exchangesOf, List.filter_cons_of_pos (by simp), List.map_cons, exchangesOf]

theorem exchangesOf_cons_of_ne (hne : j ≠ i) :
    exchangesOf i ((j, exchange) :: exchanges) = exchangesOf i exchanges := by
  rw [exchangesOf, List.filter_cons_of_neg (by simpa using hne), exchangesOf]

end schedules

/-- The programs end alike: with the same texts, the same lines in the log, and values and calls of
probes that are the same up to matched numbers. -/
structure Exchange.Alike (probes : Nat → Nat → Prop) (w : Correspondence) (e e' : Exchange) :
    Prop where
  outcome : (∃ value value', e.outcome = .ok value ∧ e'.outcome = .ok value' ∧
      Value.Alike probes w value value') ∨
    ∃ stop stop', e.outcome = .error stop ∧ e'.outcome = .error stop' ∧
      Stop.Like (Value.Alike probes w) stop stop'
  shown : e.shown = e'.shown
  lines : e.lines = e'.lines
  calls : e.calls.Forall₂ (CallLike probes w) e'.calls

theorem Exchange.Alike.mono {probes : Nat → Nat → Prop} {w w₂ : Correspondence} (hw : w.Within w₂)
    {e e' : Exchange} (h : e.Alike probes w e') : e.Alike probes w₂ e' := by
  refine { h with outcome := ?_, calls := h.calls.imp fun _ _ hcall => hcall.mono hw }
  rcases h.outcome with ⟨value, value', hleft, hright, hvalue⟩ | ⟨stop, stop', hleft, hright, hstop⟩
  · exact .inl ⟨value, value', hleft, hright, hvalue.mono hw⟩
  · refine .inr ⟨stop, stop', hleft, hright, ?_⟩
    cases hstop with
    | exhausted => exact .exhausted
    | fault hfault => exact .fault (hfault.mono fun hvalue => hvalue.mono hw)

/-- Runs that end alike are alike in all that is to be seen of them. -/
theorem alike_exchange_of_couples {probes : Nat → Nat → Prop} {w : Correspondence}
    {m m' : Machine} {run run' : Run Value}
    (h : (coupling probes m m').Couples w run run' m m' (Value.Alike probes)) :
    ∃ w₂, w ≤ w₂ ∧ Twins probes w₂ m m' (run.after m) (run'.after m') ∧
      (exchange run m).Alike probes w₂ (exchange run' m') := by
  obtain ⟨w₂, hle, htwins, hends⟩ := h.exists_twins
  refine ⟨w₂, hle, htwins, hends, h.shown_eq, ?_, ?_⟩
  · obtain ⟨lines, hleft, hright⟩ := htwins.log
    simp [exchange, hleft, hright]
  · obtain ⟨calls, calls', hleft, hright, hlike⟩ := htwins.calls
    simpa [exchange, hleft, hright] using hlike

/-- Several sessions on one machine, each compared with a machine on which it is alone: what it can
get at is matched, and no two sessions can get at the same frame. -/
structure Together {ι : Type} (probes : ι → Nat → Nat → Prop) (home : ι → FrameId)
    (w : ι → Correspondence) (alone : ι → Machine) (m : Machine) : Prop where
  twins : ∀ i, Twins (probes i) (w i) (alone i) m (alone i) m
  frames : ∀ i, (w i).frames.Bounded
  serials : ∀ i, (w i).serials.Bounded
  home : ∀ i, (w i).frames.Rel (home i) (home i)
  apart : ∀ {i j a b c}, (w i).frames.Rel a c → (w j).frames.Rel b c → i = j

section together

variable {ι : Type} {probes : ι → Nat → Nat → Prop} {home : ι → FrameId} {w : ι → Correspondence}
  {w₂ : Correspondence} {alone : ι → Machine} {m : Machine}

/-- The frames that a session can get at. -/
def reach (w : Correspondence) : Set FrameId :=
  {id | ∃ other, w.frames.Rel other id}

theorem region_reach {probes : Nat → Nat → Prop} {w : Correspondence} {store store' : Store}
    (hbounded : w.frames.Bounded) (h : Mirrors probes w store store') :
    store'.Region (reach w) := by
  refine ⟨?_, ?_, ?_⟩
  · rintro id ⟨other, hid⟩
    exact (hbounded hid).2.trans_eq h.size'
  · rintro id ⟨other, hid⟩ frame outer hframe houter
    have hlike := h.frames hid
    rw [hframe] at hlike
    generalize store.frame? other = frame' at hlike
    cases hlike with
    | @some frame' _ hlike =>
      have hrel := hlike.outer
      rw [houter] at hrel
      generalize frame'.outer = outer' at hrel
      cases hrel with
      | some hrel => exact ⟨_, hrel⟩
  · rintro id ⟨other, hid⟩ frame hframe var hvar
    have hlike := h.frames hid
    rw [hframe] at hlike
    generalize store.frame? other = frame' at hlike
    cases hlike with
    | some hlike =>
      obtain ⟨var', -, hvalue⟩ := exists_of_forall₂ hlike.vars.flip hvar
      exact hvalue.2.refersTo_right

/-- The other machine may go on in frames that are not matched, and with other probes. -/
theorem twins_advance {probes : Nat → Nat → Prop} {w : Correspondence} {m m' m₂ : Machine}
    (h : Twins probes w m m' m m') (hframes : w.frames.Bounded) (hserials : w.serials.Bounded)
    (hsize : w.frames.size' ≤ m₂.store.size) (hserial : w.serials.size' ≤ m₂.serial)
    (hverbose : m₂.verbose = m'.verbose)
    (hstore : ∀ {id id'}, w.frames.Rel id id' → m₂.store.frame? id' = m'.store.frame? id')
    (hcalls : ∀ {serial serial'}, probes serial serial' →
      timesCalled m₂.calls serial' = timesCalled m'.calls serial') :
    Twins probes (w.advance hframes hserials hsize hserial) m m₂ m m₂ := by
  have hwithin := w.within_advance hframes hserials hsize hserial
  refine ⟨⟨h.store.size, rfl, ?_⟩, h.serial, rfl, h.maker, h.verbose.trans hverbose.symm, rfl, ?_,
    ⟨[], by simp, by simp⟩, ⟨[], [], by simp, by simp, .nil⟩⟩
  · intro id id' hid
    rw [hstore hid]
    exact FrameLike.rel_mono hwithin (h.store.frames hid)
  · intro serial serial' hprobe
    obtain ⟨hrel, htimes⟩ := h.probe hprobe
    exact ⟨hrel, htimes.trans (hcalls hprobe).symm⟩

/-- Frames that one session has made since are not those that another one can get at. -/
theorem Together.not_rel_of_le (h : Together probes home w alone m) {i j : ι} (hi : i ≠ j)
    (hle : w j ≤ w₂) {a b c : FrameId} (hold : (w i).frames.Rel a c) : ¬w₂.frames.Rel b c := by
  intro hrel
  have hlt : c < (w j).frames.size' := calc
    c < (w i).frames.size' := (h.frames i hold).2
    _ = m.store.size := (h.twins i).store.size'
    _ = (w j).frames.size' := (h.twins j).store.size'.symm
  exact hi (h.apart hold (hle.1.old hrel hlt))

/-- The other sessions do not notice the program of one session. -/
theorem Together.twins_other (h : Together probes home w alone m)
    (hprobes : ∀ {i j a b c}, probes i a c → probes j b c → i = j) {i j : ι} (hi : i ≠ j)
    {last m₂ : Machine} (hspares : m.store.Spares (reach (w j)) m.store m₂.store)
    (htwins : Twins (probes j) w₂ (alone j) m last m₂)
    (hsize : (w i).frames.size' ≤ m₂.store.size) (hserial : (w i).serials.size' ≤ m₂.serial) :
    Twins (probes i) ((w i).advance (h.frames i) (h.serials i) hsize hserial) (alone i) m₂
      (alone i) m₂ := by
  obtain ⟨calls, calls', -, hcalls, hlike⟩ := htwins.calls
  refine twins_advance (h.twins i) _ _ _ _ htwins.verbose' ?_ ?_
  · intro id id' hid
    refine hspares.frames id' ((h.frames i hid).2.trans_eq (h.twins i).store.size') ?_
    rintro ⟨other, hother⟩
    exact hi (h.apart hid hother)
  · intro serial serial' hprobe
    refine timesCalled_eq_of_append hcalls fun call hcall heq => ?_
    obtain ⟨call', -, hmatched⟩ := exists_of_forall₂ hlike.flip hcall
    exact hi (hprobes hprobe (heq ▸ hmatched.serial))

/-- **One program keeps the sessions apart**: it does what it does on the machine on which its
session is alone, and the other sessions do not notice. -/
theorem Together.turn [DecidableEq ι] (h : Together probes home w alone m)
    (hprobes : ∀ {i j a b c}, probes i a c → probes j b c → i = j) (depth : Nat) (j : ι)
    (source : String) :
    let run := evalText (.ofDepth depth) (home j) source
    ∃ w', (∀ i, (w i).Within (w' i)) ∧
      Together probes home w' (Function.update alone j (run.after (alone j))) (run.after m) ∧
      (exchange run (alone j)).Alike (probes j) (w' j) (exchange run m) := by
  intro run
  have hcouples := Coupling.couples_evalText (coupled (probes j) (alone j) m depth) (h.twins j)
    (h.home j) source fun forms hread => List.forall₂_same.2 fun form hform =>
      Alike.self (Reader.every_of_mem_readForms _ hread form hform)
  obtain ⟨w₂, hle, htwins, halike⟩ := alike_exchange_of_couples hcouples
  have hspares := (region_reach (h.frames j) (h.twins j).store).evalText_spares ⟨_, h.home j⟩
    source depth
  have hsize : ∀ i, (w i).frames.size' ≤ (run.after m).store.size := fun i =>
    (h.twins i).store.size'.trans_le hspares.size_le
  have hserial : ∀ i, (w i).serials.size' ≤ (run.after m).serial := by
    intro i
    have hle' := hle.2.size_le
    have heq := hle.2.size_eq
    have := (h.twins i).serial'
    have := (h.twins j).serial'
    have : w₂.serials.size' = (run.after m).serial := htwins.serial'
    omega
  -- the others are where they were, and only what is new to them has moved
  let stay i := (w i).advance (h.frames i) (h.serials i) (hsize i) (hserial i)
  refine ⟨Function.update stay j w₂, ?_, ⟨?_, ?_, ?_, ?_, ?_⟩, by rwa [Function.update_self]⟩
  · exact (Function.forall_update_iff stay fun i v => (w i).Within v).2
      ⟨within_of_le hle, fun i _ => (w i).within_advance ..⟩
  · intro i
    by_cases hi : i = j
    · subst hi
      rw [Function.update_self, Function.update_self]
      exact htwins.rebase
    · rw [Function.update_of_ne hi, Function.update_of_ne hi]
      exact h.twins_other hprobes hi hspares htwins (hsize i) (hserial i)
  · exact (Function.forall_update_iff stay fun _ v => v.frames.Bounded).2
      ⟨Matching.Bounded.extends (h.frames j) hle.1,
        fun i _ => Matching.Bounded.advance (h.frames i) (hsize i)⟩
  · exact (Function.forall_update_iff stay fun _ v => v.serials.Bounded).2
      ⟨Matching.Bounded.extends (h.serials j) hle.2,
        fun i _ => Matching.Bounded.advance (h.serials i) (hserial i)⟩
  · exact (Function.forall_update_iff stay fun i v => v.frames.Rel (home i) (home i)).2
      ⟨hle.1.rel (h.home j), fun i _ => h.home i⟩
  · intro i k a b c hleft hright
    by_cases hi : i = j
    · by_cases hk : k = j
      · exact hi.trans hk.symm
      · subst hi
        rw [Function.update_self] at hleft
        rw [Function.update_of_ne hk] at hright
        exact absurd hleft (h.not_rel_of_le hk hle hright)
    · by_cases hk : k = j
      · subst hk
        rw [Function.update_of_ne hi] at hleft
        rw [Function.update_self] at hright
        exact absurd hright (h.not_rel_of_le hi hle hleft)
      · rw [Function.update_of_ne hi] at hleft
        rw [Function.update_of_ne hk] at hright
        exact h.apart hleft hright

/-- **Programs keep the sessions apart, in whatever order they come.** -/
theorem Together.run [DecidableEq ι] (h : Together probes home w alone m)
    (hprobes : ∀ {i j a b c}, probes i a c → probes j b c → i = j) (depth : Nat)
    (schedule : List (ι × String)) :
    let all := play (.ofDepth depth) home schedule m
    ∃ w', (∀ i, (w i).Within (w' i)) ∧
      Together probes home w'
        (fun i => (playAlone (.ofDepth depth) home i schedule (alone i)).2) all.2 ∧
      ∀ i, (exchangesOf i (playAlone (.ofDepth depth) home i schedule (alone i)).1).Forall₂
        (Exchange.Alike (probes i) (w' i)) (exchangesOf i all.1) := by
  induction schedule generalizing w alone m with
  | nil => exact ⟨w, fun i => ⟨id, id⟩, h, fun i => .nil⟩
  | cons entry schedule ih =>
    obtain ⟨j, source⟩ := entry
    obtain ⟨w₂, hwithin, hturn, halike⟩ := h.turn hprobes depth j source
    obtain ⟨w₃, hwithin', hlast, hexchanges⟩ := ih hturn
    refine ⟨w₃, fun i => (hwithin i).trans (hwithin' i), ?_, ?_⟩
    · have halone : (fun i => (playAlone (.ofDepth depth) home i ((j, source) :: schedule)
          (alone i)).2) = fun i => (playAlone (.ofDepth depth) home i schedule
            (Function.update alone j
              ((evalText (.ofDepth depth) (home j) source).after (alone j)) i)).2 := by
        funext i
        by_cases hi : i = j
        · subst hi
          rw [playAlone_cons_self, Function.update_self]
        · rw [playAlone_cons_of_ne (Ne.symm hi), Function.update_of_ne hi]
      rw [halone]
      exact hlast
    · intro i
      have hrest := hexchanges i
      by_cases hi : i = j
      · subst hi
        rw [Function.update_self] at hrest
        rw [playAlone_cons_self, play, exchangesOf_cons_self, exchangesOf_cons_self]
        exact .cons (halike.mono (hwithin' i)) hrest
      · rw [Function.update_of_ne hi] at hrest
        rw [playAlone_cons_of_ne (Ne.symm hi), play, exchangesOf_cons_of_ne (Ne.symm hi)]
        exact hrest

end together

end Session

/-! ## Isolation -/

/-- The serial number of the capability was handed out before the next one, and if it is a probe it
is one of those given. -/
def Value.Issued (next : Nat) (probes : Set Nat) : Value → Prop
  | .function serial _ _ _ => serial < next
  | .host serial operation => serial < next ∧ ∀ name, operation = .probe name → serial ∈ probes
  | .transformer serial _ => serial < next
  | _ => True

instance (next : Nat) (probes : Set Nat) [DecidablePred (· ∈ probes)] :
    DecidablePred (Value.Issued next probes) := fun c =>
  match c with
  | .host serial (.probe name) =>
    decidable_of_iff (serial < next ∧ serial ∈ probes)
      ⟨fun h => ⟨h.1, fun _ _ => h.2⟩, fun h => ⟨h.1, h.2 name rfl⟩⟩
  | .host serial (.builtin _) | .host serial (.expander _) | .host serial (.invoker _) =>
    decidable_of_iff (serial < next) ⟨fun h => ⟨h, nofun⟩, fun h => h.1⟩
  | .function serial .. | .transformer serial _ => inferInstanceAs (Decidable (serial < next))
  | .nil | .bool _ | .number _ | .str _ | .symbol _ | .keyword _ | .list _ | .vector _ | .map _
  | .environment _ => .isTrue trivial

namespace Session

/-- Sessions that share nothing: the frames that each can get at are a region, no two of these have
a frame in common, and no two sessions have been given the same probe. -/
structure Apart {ι : Type} (m : Machine) (home : ι → FrameId) (region : ι → Set FrameId)
    (probes : ι → Set Nat) : Prop where
  closed : ∀ i, m.store.Region (region i)
  home_mem : ∀ i, home i ∈ region i
  frames : ∀ i j, ∀ id ∈ region i, id ∈ region j → i = j
  spies : ∀ i j, ∀ serial ∈ probes i, serial ∈ probes j → i = j
  issued : ∀ i, ∀ id ∈ region i, ∀ frame, m.store.frame? id = some frame → ∀ var ∈ frame.vars,
    var.2.Every (Value.Issued m.serial (probes i))
  known : ∀ i, ∀ serial ∈ probes i, serial < m.serial
  started : 0 < m.serial

/-- Probes of the set are matched with themselves. -/
def Own (probes : Set Nat) (serial serial' : Nat) : Prop :=
  serial = serial' ∧ serial ∈ probes

section apart

variable {ι : Type} {m : Machine} {home : ι → FrameId} {region : ι → Set FrameId}
  {probes : ι → Set Nat}

/-- What a session can get at in the beginning is matched with itself. -/
def Apart.beginning (m : Machine) (region : Set FrameId) : Correspondence :=
  .identity m.store.size m.serial region {serial | serial < m.serial}

theorem Apart.together (h : Apart m home region probes) :
    Together (fun i => Own (probes i)) home (fun i => Apart.beginning m (region i)) (fun _ => m)
      m where
  twins i := by
    refine ⟨(h.closed i).mirrors rfl (fun _ _ => rfl) ?_, rfl, rfl, ⟨rfl, h.started⟩, rfl, rfl, ?_,
      ⟨[], by simp, by simp⟩, ⟨[], [], by simp, by simp, .nil⟩⟩
    · intro id hid frame hframe var hvar
      refine Alike.self fun c hc => ?_
      have hissued := h.issued i id hid frame hframe var hvar c hc
      have hrefers := (h.closed i).vars id hid frame hframe var hvar c hc
      cases c with
      | function => exact ⟨⟨rfl, hissued⟩, rfl, hrefers⟩
      | host => exact ⟨⟨rfl, hissued.1⟩, fun name hname => ⟨rfl, hissued.2 name hname⟩⟩
      | transformer => exact ⟨rfl, hissued⟩
      | environment => exact ⟨rfl, hrefers⟩
      | _ => trivial
    · rintro serial _ ⟨rfl, hserial⟩
      exact ⟨⟨rfl, h.known i serial hserial⟩, rfl⟩
  frames i := by
    rintro id _ ⟨rfl, hid⟩
    exact ⟨(h.closed i).lt id hid, (h.closed i).lt id hid⟩
  serials i := by
    rintro serial _ ⟨rfl, hserial⟩
    exact ⟨hserial, hserial⟩
  home i := ⟨rfl, h.home_mem i⟩
  apart := by
    rintro i j id _ _ ⟨rfl, hi⟩ ⟨rfl, hj⟩
    exact h.frames i j _ hi hj

end apart

end Session

/-- **Isolation.** Let a form be evaluated in a region of frames to which all that it holds refers.
However deep the evaluation goes and however it ends, every other frame is as before; the region and
the frames that were made since are a region again, to which the result refers; if all frames of the
region have one root, so have the new ones, and every definition of the run lands on that root; and
on a machine that differs in other frames only the run does the same.

Hence sessions that share nothing do not affect each other, in whatever order their programs come:
each of them gets what it gets when it is alone, up to the numbering of new frames and callables. -/
theorem Session.isolation :
    (∀ (m : Machine) (S : Set FrameId) (frame : FrameId) (form : Value) (depth : Nat),
      m.store.Region S → frame ∈ S → form.Every (Value.RefersTo S) →
      let run := (Engine.ofDepth depth).eval form frame
      let after := (run.after m).store
      let grown := m.store.grown S after
      (∀ id < m.store.size, id ∉ S → after.frame? id = m.store.frame? id) ∧
      after.Region grown ∧
      (∀ value, run.outcome m = .ok value → value.Every (Value.RefersTo grown)) ∧
      (∀ root, (∀ id ∈ S, m.store.root id = root) →
        (∀ id ∈ grown, after.root id = root) ∧
        ∃ events, after.history.toList = m.store.history.toList ++ events ∧
          ∀ other name value, .defined other name value ∈ events → other = root) ∧
      ∀ m', m.SameOn S m' → run.outcome m' = run.outcome m ∧ run.shown m' = run.shown m ∧
        (run.after m).SameOn grown (run.after m')) ∧
    ∀ {ι : Type} [DecidableEq ι] (m : Machine) (home : ι → FrameId) (region : ι → Set FrameId)
      (probes : ι → Set Nat) (depth : Nat) (schedule : List (ι × String)),
      Apart m home region probes →
      let all := play (.ofDepth depth) home schedule m
      ∀ i,
        let alone := playAlone (.ofDepth depth) home i schedule m
        ∃ w : Correspondence, (∀ id ∈ region i, w.frames.Rel id id) ∧
          Mirrors (Own (probes i)) w alone.2.store all.2.store ∧
          (exchangesOf i alone.1).Forall₂ (Exchange.Alike (Own (probes i)) w)
            (exchangesOf i all.1) := by
  refine ⟨?_, ?_⟩
  · intro m S frame form depth hS hframe hform run after grown
    have hkeeps := hS.eval_spares hframe hform depth
    obtain ⟨hintact, hspares⟩ := hkeeps.after
    refine ⟨hspares.frames, hintact.region, ?_, ?_, fun m' hm' => ?_⟩
    · intro value hvalue
      exact hkeeps.result hvalue
    · intro root hroot
      obtain ⟨events, hevents, hdefined⟩ := hspares.history
      refine ⟨?_, events, hevents, ?_⟩
      · intro id hid
        obtain ⟨origin, horigin, heq⟩ := hintact.root id hid
        exact heq.trans (hroot origin horigin)
      · intro other name value hmem
        obtain ⟨origin, horigin, heq⟩ := hdefined other name value hmem
        exact heq.symm.trans (hroot origin horigin)
    · exact hS.eval_sameOn hm' hframe hform depth
  · intro ι _ m home region probes depth schedule h all i alone
    have hprobes : ∀ {i j a b c}, Own (probes i) a c → Own (probes j) b c → i = j := by
      rintro i j a b c ⟨rfl, hi⟩ ⟨rfl, hj⟩
      exact h.spies i j _ hi hj
    obtain ⟨w, hwithin, hlast, hexchanges⟩ := h.together.run hprobes depth schedule
    exact ⟨w i, fun id hid => (hwithin i).frames ⟨rfl, hid⟩, (hlast.twins i).store, hexchanges i⟩

/-- Two sessions are started on one machine. The first one defines a name and asks for it again; in
between the second one defines the same name. -/
theorem Session.isolation_started :
    let m := (start 1).after ((start 0).after ((Run.push none).after ((Run.push none).after
      (.fresh false))))
    let home : Bool → FrameId := fun second => if second then 1 else 0
    let form : Value := .list [.symbol "def", .symbol "x", .int 5]
    let after := (((Engine.ofDepth 4).eval form 0).after m).store
    let schedule := [(false, "(def x 1)"), (true, "(def x 2)"), (false, "(+ x 1)")]
    let all := play (.ofDepth 4) home schedule m
    let alone := playAlone (.ofDepth 4) home false schedule m
    m.store.Region {0} ∧ form.Every (Value.RefersTo {0}) ∧
      (after.frame? 1 = m.store.frame? 1 ∧ after.Region (m.store.grown {0} after)) ∧
      Apart m home (fun i => {home i}) (fun _ => ∅) ∧
      ∃ w : Correspondence, Mirrors (Own ∅) w alone.2.store all.2.store ∧
        (exchangesOf false alone.1).Forall₂ (Exchange.Alike (Own ∅) w)
          (exchangesOf false all.1) := by
  intro m home form after schedule all alone
  have hvars : ∀ i, ∀ frame, m.store.frame? (home i) = some frame → ∀ var ∈ frame.vars,
      var.2.Every (Value.RefersTo {home i}) ∧ var.2.Every (Value.Issued m.serial ∅) := by
    have hall : ∀ i, ∀ var ∈ ((m.store.frame? (home i)).map (·.vars)).getD [],
        ∀ c ∈ var.2.capabilities, c.RefersTo {home i} ∧ c.Issued m.serial ∅ := by decide
    intro i frame hframe var hvar
    have hvar' : var ∈ ((m.store.frame? (home i)).map (·.vars)).getD [] := by
      rw [hframe]
      exact hvar
    exact ⟨fun c hc => (hall i var hvar' c hc).1, fun c hc => (hall i var hvar' c hc).2⟩
  have hroots : ∀ i, m.store.isRoot (home i) = true := by decide
  have hregion : ∀ i, m.store.Region {home i} := fun i =>
    Store.region_singleton (hroots i) fun frame hframe var hvar => (hvars i frame hframe var hvar).1
  have hform : form.Every (Value.RefersTo {0}) := by simp [form]
  have hapart : Apart m home (fun i => {home i}) (fun _ => ∅) := by
    refine ⟨hregion, fun _ => rfl, ?_, fun _ _ _ h => absurd h (Set.notMem_empty _), ?_,
      fun _ _ h => absurd h (Set.notMem_empty _), ?_⟩
    · rintro (_ | _) (_ | _) _ rfl hid <;> first | rfl | exact absurd hid (by decide)
    · rintro i _ rfl frame hframe var hvar
      exact (hvars i frame hframe var hvar).2
    · decide
  obtain ⟨hframes, hgrown, -⟩ := Session.isolation.1 m {0} 0 form 4 (hregion false) rfl hform
  obtain ⟨w, -, hstore, hexchanges⟩ :=
    Session.isolation.2 m home (fun i => {home i}) (fun _ => ∅) 4 schedule hapart false
  exact ⟨hregion false, hform, ⟨hframes 1 (by decide) (by simp), hgrown⟩, hapart, w, hstore,
    hexchanges⟩

end SmallLisp
