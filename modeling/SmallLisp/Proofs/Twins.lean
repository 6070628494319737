import SmallLisp.Proofs.Correspondence

/-!
# Machines that correspond

Two machines are twins if their matched frames hold alike values. The frames that are not matched
may hold anything, and so may what the machines have logged and recorded before.

* `Correspondence.Mirrors`: matched frames of the two stores are alike. Walking outwards, looking up
  names and printing then agree.
* `Correspondence.Twins`: machines whose stores mirror each other. What they have added to the log
  and to the calls of probes, since two given machines, is alike as well.
* `Correspondence.coupling`: the twins are a coupling.
* **`Correspondence.coupled`**: evaluation keeps twins.
-/

namespace SmallLisp

namespace Correspondence

variable {probes : Nat → Nat → Prop} {w w₂ : Correspondence}

open Value (Alike)

/-! ## Frames -/

section frames

variable (probes) (w)

/-- The bindings are of one name to alike values. -/
def VarLike (var var' : String × Value) : Prop :=
  var.1 = var'.1 ∧ Alike probes w var.2 var'.2

/-- The frames lie in matched frames and bind the same names to alike values. -/
structure FrameLike (frame frame' : Frame) : Prop where
  outer : Option.Rel w.frames.Rel frame.outer frame'.outer
  vars : frame.vars.Forall₂ (VarLike probes w) frame'.vars

/-- Matched frames of the stores are alike. -/
structure Mirrors (store store' : Store) : Prop where
  size : w.frames.size = store.size
  size' : w.frames.size' = store'.size
  frames : ∀ {id id'}, w.frames.Rel id id' →
    Option.Rel (FrameLike probes w) (store.frame? id) (store'.frame? id')

end frames

theorem VarLike.mono (hw : w.Within w₂) {var var' : String × Value}
    (h : VarLike probes w var var') : VarLike probes w₂ var var' :=
  ⟨h.1, h.2.mono hw⟩

theorem FrameLike.mono (hw : w.Within w₂) {frame frame' : Frame}
    (h : FrameLike probes w frame frame') : FrameLike probes w₂ frame frame' := by
  refine ⟨?_, h.vars.imp fun _ _ hvar => hvar.mono hw⟩
  have houter := h.outer
  generalize frame.outer = outer, frame'.outer = outer' at houter ⊢
  cases houter with
  | none => exact .none
  | some hrel => exact .some (hw.frames hrel)

theorem FrameLike.rel_mono (hw : w.Within w₂) {frame frame' : Option Frame}
    (h : Option.Rel (FrameLike probes w) frame frame') :
    Option.Rel (FrameLike probes w₂) frame frame' := by
  cases h with
  | none => exact .none
  | some hframe => exact .some (hframe.mono hw)

theorem FrameLike.set {frame frame' : Frame} (h : FrameLike probes w frame frame') (name : String)
    {value value' : Value} (hvalue : Alike probes w value value') :
    FrameLike probes w (frame.set name value) (frame'.set name value') :=
  ⟨h.outer, Frame.forall₂_setVar (R := fun _ => Alike probes w) h.vars hvalue⟩

theorem FrameLike.rel_get? {frame frame' : Frame} (h : FrameLike probes w frame frame')
    (name : String) : Option.Rel (Alike probes w) (frame.get? name) (frame'.get? name) :=
  Frame.rel_lookup (R := fun _ => Alike probes w) h.vars name

/-! ## Stores -/

namespace Mirrors

variable {store store' : Store} {id id' : FrameId}

theorem rel_local? (h : Mirrors probes w store store') (hid : w.frames.Rel id id')
    (name : String) : Option.Rel (Alike probes w) (store.local? id name)
      (store'.local? id' name) := by
  have hframe := h.frames hid
  unfold Store.local?
  generalize store.frame? id = frame, store'.frame? id' = frame' at hframe ⊢
  cases hframe with
  | none => exact .none
  | some hframe => exact hframe.rel_get? name

theorem isRoot_eq (h : Mirrors probes w store store') (hid : w.frames.Rel id id') :
    store.isRoot id = store'.isRoot id' := by
  have hframe := h.frames hid
  unfold Store.isRoot
  generalize store.frame? id = frame, store'.frame? id' = frame' at hframe ⊢
  cases hframe with
  | none => rfl
  | @some frame frame' hframe =>
    have houter := hframe.outer
    show frame.outer.isNone = frame'.outer.isNone
    generalize frame.outer = outer, frame'.outer = outer' at houter ⊢
    cases houter <;> rfl

/-- The ways outwards from matched frames go through matched frames. -/
theorem forall₂_chain (h : Mirrors probes w store store') (hid : w.frames.Rel id id') :
    (store.chain id).Forall₂ w.frames.Rel (store'.chain id') := by
  induction id using Nat.strongRecOn generalizing id' with
  | _ id ih =>
    have hframe := h.frames hid
    generalize hleft : store.frame? id = frame, hright : store'.frame? id' = frame' at hframe
    cases hframe with
    | none =>
      rw [Store.chain_of_none hleft, Store.chain_of_none hright]
      exact .nil
    | @some frame frame' hframe =>
      have houter := hframe.outer
      generalize hleft' : frame.outer = outer, hright' : frame'.outer = outer' at houter
      cases houter with
      | none =>
        rw [Store.chain_of_root hleft hleft', Store.chain_of_root hright hright']
        exact .cons hid .nil
      | some houter =>
        rw [Store.chain_of_outer hleft hleft', Store.chain_of_outer hright hright']
        exact .cons hid (ih _ (store.outer_lt id frame _ hleft hleft') houter)

theorem rel_root (h : Mirrors probes w store store') (hid : w.frames.Rel id id') :
    w.frames.Rel (store.root id) (store'.root id') := by
  have hchain := List.rel_reverse (h.forall₂_chain hid)
  unfold Store.root
  rw [List.getLast?_eq_head?_reverse, List.getLast?_eq_head?_reverse]
  generalize (store.chain id).reverse = ids, (store'.chain id').reverse = ids' at hchain ⊢
  cases hchain with
  | nil => exact hid
  | cons hroot _ => exact hroot

theorem rel_lookup? (h : Mirrors probes w store store') (hid : w.frames.Rel id id')
    (name : String) :
    Option.Rel (Alike probes w) (store.lookup? id name) (store'.lookup? id' name) := by
  have hchain := h.forall₂_chain hid
  unfold Store.lookup?
  generalize store.chain id = ids, store'.chain id' = ids' at hchain ⊢
  induction hchain with
  | nil => exact .none
  | @cons other other' _ _ hother _ ih =>
    have hlocal := h.rel_local? hother name
    rw [List.findSome?_cons, List.findSome?_cons]
    generalize store.local? other name = value, store'.local? other' name = value' at hlocal ⊢
    cases hlocal with
    | some hvalue => exact .some hvalue
    | none => exact ih

/-! ## Texts -/

/-- Matched frames have the same text. -/
theorem frameText_eq (h : Mirrors probes w store store') {depth : Nat}
    (htexts : Alike.Texts w (Printer.environmentText store depth)
      (Printer.environmentText store' depth)) (hid : w.frames.Rel id id') :
    Printer.frameText store depth id = Printer.frameText store' depth id' := by
  have hframe := h.frames hid
  unfold Printer.frameText
  generalize store.frame? id = frame, store'.frame? id' = frame' at hframe ⊢
  cases hframe with
  | none => rfl
  | some hframe =>
    exact Printer.varsText_eq
      (hframe.vars.imp fun _ _ hvar => ⟨hvar.1, hvar.2.sameText htexts .inspect⟩)

theorem texts (h : Mirrors probes w store store') (depth : Nat) :
    Alike.Texts w (Printer.environmentText store depth) (Printer.environmentText store' depth) := by
  induction depth with
  | zero => exact fun _ _ _ _ => rfl
  | succ depth ih =>
    intro style id id' hid
    have hchain := (h.forall₂_chain hid).imp fun _ _ hother => h.frameText_eq ih hother
    rw [Printer.environmentText_succ, Printer.environmentText_succ, h.isRoot_eq hid,
      h.frameText_eq ih hid, Printer.mapM_eq_of_forall₂ hchain]

/-- Alike values have the same text in stores that mirror each other: how deeply scopes are printed
within scopes depends on the sizes of the stores, but a greater bound changes nothing. -/
theorem print_eq (h : Mirrors probes w store store') {value value' : Value}
    (hvalue : Alike probes w value value') (style : Style) :
    store.print style value = store'.print style value' := by
  have hleft : store.size < store.size + store'.size + 1 := by omega
  have hright : store'.size < store.size + store'.size + 1 := by omega
  unfold Store.print
  rw [← Printer.environmentText_eq_of_lt store hleft,
    ← Printer.environmentText_eq_of_lt store' hright]
  exact hvalue.sameText (h.texts _) style

/-! ## The steps of a store -/

theorem write (h : Mirrors probes w store store') (hid : w.frames.Rel id id') (name : String)
    {value value' : Value} (hvalue : Alike probes w value value') (event event' : Event) :
    Mirrors probes w ((store.write id name value).record event)
      ((store'.write id' name value').record event') := by
  refine ⟨?_, ?_, ?_⟩
  · exact h.size.trans (Store.size_write store id name value).symm
  · exact h.size'.trans (Store.size_write store' id' name value').symm
  · intro other other' hother
    show Option.Rel _ ((store.write id name value).frame? other)
      ((store'.write id' name value').frame? other')
    have hframe := h.frames hother
    rw [Store.frame?_write, Store.frame?_write]
    simp only [Matching.rel_iff hid hother]
    generalize store.frame? other = frame, store'.frame? other' = frame' at hframe ⊢
    split
    · cases hframe with
      | none => exact .none
      | some hframe => exact .some (hframe.set name hvalue)
    · exact hframe

theorem push (h : Mirrors probes w store store') (hid : w.frames.Rel id id') :
    Mirrors probes { w with frames := w.frames.grow } (store.push (some id))
      (store'.push (some id')) := by
  have hle : w ≤ { w with frames := w.frames.grow } := ⟨Matching.extends_grow _, .refl _⟩
  have hlt : id < store.size ↔ id' < store'.size := by
    rw [← h.size, ← h.size']
    exact Matching.lt_iff hid
  refine ⟨?_, ?_, ?_⟩
  · rw [Store.size_push, ← h.size]
    rfl
  · rw [Store.size_push, ← h.size']
    rfl
  · intro other other' hother
    have hnew : other = store.size ↔ other' = store'.size := by
      rw [← h.size, ← h.size']
      exact Matching.rel_iff hother (.inr ⟨rfl, rfl⟩)
    rw [Store.frame?_push, Store.frame?_push]
    by_cases hsize : other = store.size
    · rw [if_pos hsize, if_pos (hnew.1 hsize)]
      refine .some ⟨?_, .nil⟩
      by_cases hid' : id < store.size
      · simp only [Option.filter_some, hid', hlt.1 hid', decide_true, if_true]
        exact .some (.inl hid)
      · simp only [Option.filter_some, hid', mt hlt.2 hid', decide_false]
        exact .none
    · rw [if_neg hsize, if_neg (mt hnew.2 hsize)]
      have hold : w.frames.Rel other other' := hother.resolve_right fun hgrown =>
        hsize (hgrown.1.trans h.size)
      exact FrameLike.rel_mono (within_of_le hle) (h.frames hold)

end Mirrors

/-! ## Machines -/

/-- How often the probe of a serial number has been called. -/
def timesCalled (calls : Array ProbeCall) (serial : Nat) : Nat :=
  (calls.filter fun call => call.serial == serial).size

theorem timesCalled_push (calls : Array ProbeCall) (call : ProbeCall) (serial : Nat) :
    timesCalled (calls.push call) serial =
      timesCalled calls serial + if call.serial = serial then 1 else 0 := by
  unfold timesCalled
  rw [Array.filter_push]
  by_cases h : call.serial = serial
  · simp [h]
  · simp [h]

/-- Calls of other probes do not count. -/
theorem timesCalled_eq_of_append {calls calls' : Array ProbeCall} {more : List ProbeCall}
    {serial : Nat} (hcalls : calls'.toList = calls.toList ++ more)
    (hmore : ∀ call ∈ more, call.serial ≠ serial) :
    timesCalled calls' serial = timesCalled calls serial := by
  have hlist : ∀ calls : Array ProbeCall, timesCalled calls serial =
      (calls.toList.filter fun call => call.serial == serial).length := fun calls => by
    rw [timesCalled, ← Array.length_toList, Array.toList_filter]
  have hnone : more.filter (fun call => call.serial == serial) = [] :=
    List.filter_eq_nil_iff.2 (by simpa using hmore)
  rw [hlist, hlist, hcalls, List.filter_append, hnone, List.append_nil]

section machines

variable (probes) (w)

/-- The calls are of matched probes, with alike arguments. -/
structure CallLike (call call' : ProbeCall) : Prop where
  probe : call.probe = call'.probe
  serial : probes call.serial call'.serial
  arguments : call.arguments.Forall₂ (Alike probes w) call'.arguments

/-- The machines have alike frames, and since two given machines they have written the same lines to
the log and recorded alike calls. -/
structure Twins (base base' m m' : Machine) : Prop where
  store : Mirrors probes w m.store m'.store
  serial : w.serials.size = m.serial
  serial' : w.serials.size' = m'.serial
  maker : w.serials.Rel 0 0
  verbose : m.verbose = m'.verbose
  verbose' : m'.verbose = base'.verbose
  probe : ∀ {serial serial'}, probes serial serial' → w.serials.Rel serial serial' ∧
    timesCalled m.calls serial = timesCalled m'.calls serial'
  log : ∃ lines : List String, m.log.toList = base.log.toList ++ lines ∧
    m'.log.toList = base'.log.toList ++ lines
  calls : ∃ calls calls' : List ProbeCall, m.calls.toList = base.calls.toList ++ calls ∧
    m'.calls.toList = base'.calls.toList ++ calls' ∧ calls.Forall₂ (CallLike probes w) calls'

end machines

theorem CallLike.mono (hw : w.Within w₂) {call call' : ProbeCall}
    (h : CallLike probes w call call') : CallLike probes w₂ call call' :=
  ⟨h.probe, h.serial, h.arguments.imp fun _ _ hargument => hargument.mono hw⟩

namespace Twins

variable {base base' m m' : Machine}

/-- New stores and serial numbers leave the rest as it is. -/
theorem update (h : Twins probes w base base' m m') (hle : w ≤ w₂) {store store' : Store}
    {serial serial' : Nat} (hstore : Mirrors probes w₂ store store')
    (hserial : w₂.serials.size = serial) (hserial' : w₂.serials.size' = serial') :
    Twins probes w₂ base base' { m with store := store, serial := serial }
      { m' with store := store', serial := serial' } := by
  obtain ⟨calls, calls', hcalls, hcalls', hlike⟩ := h.calls
  refine ⟨hstore, hserial, hserial', (within_of_le hle).serials h.maker, h.verbose, h.verbose', ?_,
    h.log, calls, calls', hcalls, hcalls', hlike.imp fun _ _ hcall => hcall.mono (within_of_le hle)⟩
  intro serial serial' hprobe
  exact ⟨(within_of_le hle).serials (h.probe hprobe).1, (h.probe hprobe).2⟩

/-- The machines may be seen from where they are now. -/
theorem rebase (h : Twins probes w base base' m m') : Twins probes w m m' m m' :=
  { h with
    verbose' := rfl
    log := ⟨[], by simp, by simp⟩
    calls := ⟨[], [], by simp, by simp, .nil⟩ }

theorem nextSerial (h : Twins probes w base base' m m') :
    Twins probes { w with serials := w.serials.grow } base base' { m with serial := m.serial + 1 }
      { m' with serial := m'.serial + 1 } := by
  have hle : w ≤ { w with serials := w.serials.grow } := ⟨.refl _, Matching.extends_grow _⟩
  refine h.update hle ⟨h.store.size, h.store.size', fun hid => ?_⟩ ?_ ?_
  · exact FrameLike.rel_mono (within_of_le hle) (h.store.frames hid)
  · rw [← h.serial]
    rfl
  · rw [← h.serial']
    rfl

theorem logLine (h : Twins probes w base base' m m') (line : String) :
    Twins probes w base base' { m with log := m.log.push line }
      { m' with log := m'.log.push line } := by
  obtain ⟨lines, hlines, hlines'⟩ := h.log
  refine { h with log := ⟨lines ++ [line], ?_, ?_⟩ }
  · rw [Array.toList_push, hlines, List.append_assoc]
  · rw [Array.toList_push, hlines', List.append_assoc]

theorem record (h : Twins probes w base base' m m') {serial serial' : Nat}
    (hprobe : probes serial serial') (name : String) {arguments arguments' : List Value}
    (harguments : arguments.Forall₂ (Alike probes w) arguments') :
    Twins probes w base base' { m with calls := m.calls.push ⟨serial, name, arguments⟩ }
      { m' with calls := m'.calls.push ⟨serial', name, arguments'⟩ } := by
  obtain ⟨calls, calls', hcalls, hcalls', hlike⟩ := h.calls
  refine { h with
    probe := ?_
    calls := ⟨calls ++ [⟨serial, name, arguments⟩], calls' ++ [⟨serial', name, arguments'⟩],
      ?_, ?_, ?_⟩ }
  · intro other other' hother
    obtain ⟨hrel, htimes⟩ := h.probe hother
    refine ⟨hrel, ?_⟩
    rw [timesCalled_push, timesCalled_push, htimes]
    simp only [Matching.rel_iff (h.probe hprobe).1 hrel]
  · rw [Array.toList_push, hcalls, List.append_assoc]
  · rw [Array.toList_push, hcalls', List.append_assoc]
  · exact List.rel_append hlike (.cons ⟨rfl, hprobe, harguments⟩ .nil)

end Twins

/-! ## Expansion -/

/-- Expanders make alike forms of alike operands. -/
theorem agree_expand (hmaker : w.serials.Rel 0 0) (expander : Expander)
    {operands operands' : List Value} (h : operands.Forall₂ (Alike probes w) operands') :
    Agree (Alike probes w) (Alike probes w) (expander.expand operands)
      (expander.expand operands') := by
  have hlikeness := Alike.likeness probes w
  have hfn : ∀ {params params' body body' : List Value}, params.Forall₂ (Alike probes w) params' →
      body.Forall₂ (Alike probes w) body' →
      Alike probes w (Expander.fnForm params body) (Expander.fnForm params' body') :=
    fun hparams hbody => hlikeness.list (.cons (.symbol _) (.cons (hlikeness.vector hparams) hbody))
  have hdef : ∀ (name : String) {value value' : Value}, Alike probes w value value' →
      Alike probes w (Expander.defForm name value) (Expander.defForm name value') :=
    fun name _ _ hvalue =>
      hlikeness.list (.cons (.symbol _) (.cons (.symbol _) (.cons hvalue .nil)))
  cases expander with
  | remark => exact .ok .nil
  | defineFunction =>
    refine (hlikeness.agree_parts .defineFunction h).bind ?_
    rintro ⟨name, params, body⟩ ⟨_, params', body'⟩ ⟨rfl, -, hparams, hbody⟩
    exact .ok (hdef name (hfn hparams hbody))
  | defineTransformer =>
    refine (hlikeness.agree_parts .defineTransformer h).bind ?_
    rintro ⟨name, params, body⟩ ⟨_, params', body'⟩ ⟨rfl, -, hparams, hbody⟩
    have htransformerMaker : Alike probes w Expander.transformerMaker Expander.transformerMaker :=
      .host hmaker nofun
    have hfunction := hfn (.cons (.symbol "&form") (.cons (.symbol "&env") hparams)) hbody
    exact .ok (hdef name (hlikeness.list (.cons htransformerMaker (.cons hfunction .nil))))

/-! ## The coupling -/

/-- A target is alike or one symbol, which is alike in any case. -/
theorem alike_of_target {pattern pattern' : Value}
    (h : Likeness.Target (Alike probes w) pattern pattern') : Alike probes w pattern pattern' := by
  rcases h with h | ⟨name, rfl, rfl⟩
  · exact h
  · exact .symbol name

/-- Runs whose machines correspond, seen from the machines that they began with. -/
def coupling (probes : Nat → Nat → Prop) (base base' : Machine) : Coupling Correspondence where
  Like := Alike probes
  Twins w := Twins probes w base base'
  Scope w := w.frames.Rel
  Opens w := w.frames.Rel
  Admits w _ := Alike probes w
  Fresh w := w.serials.Rel
  likeness := Alike.likeness probes
  like_mono hle h := h.mono (within_of_le hle)
  scope_mono hle h := (within_of_le hle).frames h
  opens_mono hle h := (within_of_le hle).frames h
  opens_scope h := h
  admits_mono hle h := h.mono (within_of_le hle)
  admits_of_like h := h
  verbose h := h.verbose
  push {w m m' _ _} h hscope := by
    have hle : w ≤ { w with frames := w.frames.grow } := ⟨Matching.extends_grow _, .refl _⟩
    refine ⟨_, hle, .inr ⟨h.store.size.symm, h.store.size'.symm⟩, ?_⟩
    exact h.update hle (h.store.push hscope) h.serial h.serial'
  guard {_ m m' id id'} h hopens name := by
    have hlocal := h.store.rel_local? hopens name
    rw [h.store.isRoot_eq hopens]
    generalize m.store.local? id name = value, m'.store.local? id' name = value' at hlocal ⊢
    cases hlocal <;> rfl
  extend h hopens hvalue :=
    h.update le_rfl (h.store.write hopens _ hvalue _ _) h.serial h.serial'
  enter h _ := h.update le_rfl ⟨h.store.size, h.store.size', h.store.frames⟩ h.serial h.serial'
  assign h hscope _ hvalue :=
    h.update le_rfl (h.store.write (h.store.rel_root hscope) _ hvalue _ _) h.serial h.serial'
  lookup h hscope _ := h.store.rel_lookup? hscope _
  print h hvalue style := h.store.print_eq hvalue style
  serial {w m m'} h := by
    have hle : w ≤ { w with serials := w.serials.grow } := ⟨.refl _, Matching.extends_grow _⟩
    exact ⟨_, hle, .inr ⟨h.serial.symm, h.serial'.symm⟩, h.nextSerial⟩
  logLine h line := h.logLine line
  record h hprobe harguments := by
    cases hprobe with
    | host _ hprobe => exact ⟨(h.probe (hprobe _ rfl)).2, h.record (hprobe _ rfl) _ harguments⟩
  function hfresh hparams hbody hscope := by
    have hvector := (Alike.likeness probes _).vector (hparams.imp fun _ _ => alike_of_target)
    obtain ⟨hlength, hforms⟩ := Alike.forall₂_iff.2 hbody
    exact .function hfresh hscope hvector hlength hforms
  function_inv {_ _ _ params params' _ _ _ _} h := by
    cases h with
    | function _ hhome hparams hlength hbody =>
      refine ⟨?_, Alike.forall₂_iff.1 ⟨hlength, hbody⟩, hhome⟩
      have helements := hparams.rel_elements?
      generalize params.elements? = elements, params'.elements? = elements' at helements ⊢
      cases helements with
      | none => exact .none
      | some hitems => exact .some (Likeness.forall₂_target hitems)
  transformer hfresh _ htarget := .transformer hfresh htarget
  expander h _ hoperands := agree_expand h.maker _ hoperands

/-- Calls of transformers couple: the scope that is handed over is matched too. -/
theorem transforms (probes : Nat → Nat → Prop) (base base' : Machine) :
    (coupling probes base base').Transforms := by
  intro depth hengine w m m' serial serial' target target' head head' operands operands' frame
    frame' htwins hscope hcallee hcall
  obtain ⟨-, htarget⟩ : w.serials.Rel serial serial' ∧ Alike probes w target target' := by
    cases hcallee with
    | transformer hserial htarget => exact ⟨hserial, htarget⟩
  have hlist := (Alike.likeness probes w).list hcall
  have hoperands := (List.forall₂_cons.1 hcall).2
  refine Coupling.couples_transform hengine htwins hscope hcall ?_ ?_
  · cases htarget with
    | @function _ _ params params' _ _ _ _ _ _ hparams =>
      have helements := hparams.rel_elements?
      show params.elements?.map List.length = params'.elements?.map List.length
      generalize params.elements? = elements, params'.elements? = elements' at helements ⊢
      cases helements with
      | none => rfl
      | some hitems => exact congrArg some hitems.length_eq
    | _ => rfl
  · exact hengine.apply htwins htarget (.cons hlist (.cons (.environment hscope) hoperands))

/-- **Evaluation keeps twins.** -/
theorem coupled (probes : Nat → Nat → Prop) (base base' : Machine) (depth : Nat) :
    (coupling probes base base').Coupled (.ofDepth depth) :=
  Coupling.coupled_ofDepth (transforms probes base base') depth

end Correspondence

end SmallLisp
