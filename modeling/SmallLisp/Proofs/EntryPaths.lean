import SmallLisp.Proofs.Depth
import SmallLisp.Proofs.ShapeSafety

/-!
# The ways into a session agree

A text can be evaluated as a program, form by form (`evalText`), or be read as one form, which is
then checked and evaluated: by the session (`evalForm`) or by the evaluator alone
(`Engine.evaluate`). Several forms are wrapped in a `do`, and none at all is `nil`, so the two ways
check and evaluate different things.

* `Validation.check_asProgram`: the one form passes the check exactly if the forms pass it together,
  and fails for the same reason. The walk passes on what it learns from form to form in both cases.
* `Engine.evalBody_asProgram`: the one form evaluates as the forms do one after the other. The `do`
  costs one level of depth, so this compares engines of two depths.
* **`Session.paths_agree`: the ways end alike.** Since they need different depths, it is said of how
  runs settle. A text that is not read or does not pass the check fails on all of them at once, and
  the machine stays as it is.
-/

namespace SmallLisp

/-! ## One form for several -/

theorem Validation.check_asProgram (bound : String → Bool) (forms : List Value) :
    check bound (Reader.asProgram forms) = checkAll bound forms := by
  match forms with
  | [] => rfl
  | [form] =>
    unfold check checkAll
    rw [Reader.asProgram, walkAll_singleton]
  | first :: second :: rest =>
    have hdo : SpecialForm.ofName? "do" = some .doForm := SpecialForm.ofName?_name .doForm
    unfold check checkAll
    rw [Reader.asProgram, walk, hdo]
    · rfl
    · simp
    · simp

/-- The forms of a program evaluate as the one form does, at a depth that is greater by the level
that a `do` or a lone `nil` costs. -/
theorem Engine.evalBody_asProgram (forms : List Value) (frame : FrameId) :
    ∃ levels, ∀ depth, (ofDepth (depth + levels)).eval (Reader.asProgram forms) frame =
      (ofDepth depth).evalBody forms frame := by
  match forms with
  | [] => exact ⟨1, fun _ => rfl⟩
  | [form] =>
    refine ⟨0, fun depth => ?_⟩
    rw [evalBody, List.foldlM_cons]
    exact (bind_pure _).symm
  | first :: second :: rest =>
    exact ⟨1, fun depth => rfl⟩

/-! ## Depth -/

namespace Engine

variable {α : Type}

/-- Runs that need so many levels more settle alike. -/
theorem settles_iff_of_levels {run run' : Engine → Run α} {m : Machine} {levels : Nat}
    (h : ∀ depth, run' (.ofDepth (depth + levels)) m = run (.ofDepth depth) m)
    (result : EStateM.Result Stop Machine α) : Settles run m result ↔ Settles run' m result := by
  constructor
  · rintro ⟨depth, hdepth⟩
    refine ⟨depth + levels, fun deeper hle => ?_⟩
    obtain ⟨more, rfl⟩ := Nat.exists_eq_add_of_le hle
    rw [Nat.add_right_comm, h]
    exact hdepth _ (Nat.le_add_right depth more)
  · rintro ⟨depth, hdepth⟩
    refine ⟨depth, fun deeper hle => ?_⟩
    rw [← h]
    exact hdepth _ (Nat.le_trans hle (Nat.le_add_right deeper levels))

end Engine

/-! ## Sessions -/

namespace Session

/-- Reads the text as one form and goes on with that form. -/
def withProgram (source : String) (next : Value → Run Value) : Run Value :=
  match Reader.readProgram source with
  | .error reason => Run.fail (.read reason)
  | .ok form => next form

/-- The ways to evaluate a text in a frame: as the forms of a program, or read as one form, which is
checked and evaluated by the session or by the evaluator alone. -/
def paths (frame : FrameId) (source : String) : List (Engine → Run Value) := [
  fun engine => evalText engine frame source,
  fun engine => withProgram source (evalForm engine frame),
  fun engine => withProgram source fun form => engine.evaluate form frame]

variable {frame : FrameId} {source : String} {m : Machine}

/-- A form is checked first, and evaluated if it passes. -/
theorem evalForm_eq (engine : Engine) (form : Value) :
    evalForm engine frame form m =
      match Validation.check (m.store.bindsTransformer frame) form with
      | .ok () => engine.eval form frame m
      | .error fault => .error (.fault fault) m := by
  show EStateM.bind (Run.ofExcept (Validation.check (m.store.bindsTransformer frame) form))
    (fun _ => engine.eval form frame) m = _
  unfold EStateM.bind
  cases Validation.check (m.store.bindsTransformer frame) form <;> rfl

/-- A text that is read is evaluated as one form if its forms pass the check together. -/
theorem withProgram_read {forms : List Value} (hread : Reader.readForms source = .ok forms)
    (engine : Engine) :
    withProgram source (evalForm engine frame) m =
      match Validation.checkAll (m.store.bindsTransformer frame) forms with
      | .ok () => engine.eval (Reader.asProgram forms) frame m
      | .error fault => .error (.fault fault) m := by
  have hprogram : withProgram source (evalForm engine frame) =
      evalForm engine frame (Reader.asProgram forms) := by
    unfold withProgram Reader.readProgram
    rw [hread]
    rfl
  rw [hprogram, evalForm_eq, Validation.check_asProgram]

/-- The session and the evaluator alone do the same with a form. -/
theorem forall_mem_paths {p : (Engine → Run Value) → Prop} :
    (∀ path ∈ paths frame source, p path) ↔
      p (fun engine => evalText engine frame source) ∧
        p fun engine => withProgram source (evalForm engine frame) := by
  have hevaluate : (fun engine : Engine => withProgram source fun form =>
      engine.evaluate form frame) = fun engine => withProgram source (evalForm engine frame) := rfl
  simp only [paths, List.forall_mem_cons, hevaluate]
  exact ⟨fun h => ⟨h.1, h.2.1⟩, fun h => ⟨h.1, h.2, h.2, by simp⟩⟩

/-- What is not read, or does not pass the check, fails at once and for one reason. -/
theorem paths_fail (h : ¬ Passes frame source m) :
    ∃ fault, ∀ path ∈ paths frame source, ∀ engine, path engine m = .error (.fault fault) m := by
  simp only [forall_mem_paths]
  cases hread : Reader.readForms source with
  | error reason =>
    refine ⟨.read reason, fun engine => evalText_unread hread, fun engine => ?_⟩
    unfold withProgram Reader.readProgram
    rw [hread]
    rfl
  | ok forms =>
    cases hcheck : Validation.checkAll (m.store.bindsTransformer frame) forms with
    | ok => exact absurd ⟨forms, hread, hcheck⟩ h
    | error fault =>
      refine ⟨fault, fun engine => ?_, fun engine => ?_⟩
      · rw [evalText_read hread, hcheck]
      · rw [withProgram_read hread, hcheck]

/-- Read as one form, a text is evaluated as its forms are one after the other, some levels
deeper. -/
theorem exists_levels (frame : FrameId) (source : String) (m : Machine) :
    ∃ levels, ∀ depth, withProgram source (evalForm (.ofDepth (depth + levels)) frame) m =
      evalText (.ofDepth depth) frame source m := by
  by_cases hpasses : Passes frame source m
  · obtain ⟨forms, hread, hcheck⟩ := hpasses
    obtain ⟨levels, hlevels⟩ := Engine.evalBody_asProgram forms frame
    refine ⟨levels, fun depth => ?_⟩
    rw [evalText_read hread, withProgram_read hread, hcheck, ← hlevels]
  · obtain ⟨fault, hfail⟩ := paths_fail hpasses
    obtain ⟨htext, hform⟩ := forall_mem_paths.1 hfail
    exact ⟨0, fun depth => (hform _).trans (htext _).symm⟩

/-- Evaluating a text reaches further with a deeper engine. -/
theorem monotone_evalText (frame : FrameId) (source : String) :
    Engine.Monotone fun engine => evalText engine frame source := by
  intro engine engine' h
  unfold evalText
  cases Reader.readForms source with
  | error reason => exact .refl _
  | ok forms => exact .bind_left _ fun _ => Engine.extends_evalBody h forms frame

theorem monotone_evalForm (frame : FrameId) (source : String) :
    Engine.Monotone fun engine => withProgram source (evalForm engine frame) := by
  intro engine engine' h
  unfold withProgram
  cases Reader.readProgram source with
  | error reason => exact .refl _
  | ok form => exact .bind_left _ fun _ => h.eval form frame

/-- **The ways to evaluate a text in a frame agree.** If the text cannot be read or does not pass
the check, they all fail for the same reason and leave the machine as it is, whatever the engine. In
any case they settle in the same way, that is with the same value or stop and with the same machine;
and as soon as one of them ends without giving up, all of them have settled as that one ended. -/
theorem paths_agree (frame : FrameId) (source : String) (m : Machine) :
    (¬ Passes frame source m → ∃ fault, ∀ path ∈ paths frame source, ∀ engine,
      path engine m = .error (.fault fault) m) ∧
    ∀ path ∈ paths frame source, ∀ path' ∈ paths frame source,
      (∀ result, Engine.Settles path m result ↔ Engine.Settles path' m result) ∧
      ∀ depth, ¬ (path (.ofDepth depth)).GivesUp m →
        Engine.Settles path' m (path (.ofDepth depth) m) := by
  refine ⟨paths_fail, ?_⟩
  obtain ⟨levels, hlevels⟩ := exists_levels frame source m
  -- every way settles as evaluating the forms one after the other does
  have hsettles : ∀ path ∈ paths frame source, ∀ result,
      Engine.Settles (fun engine => evalText engine frame source) m result ↔
        Engine.Settles path m result :=
    forall_mem_paths.2 ⟨fun _ => .rfl, Engine.settles_iff_of_levels hlevels⟩
  have hmonotone : ∀ path ∈ paths frame source, Engine.Monotone path :=
    forall_mem_paths.2 ⟨monotone_evalText frame source, monotone_evalForm frame source⟩
  intro path hpath path' hpath'
  have hiff : ∀ result, Engine.Settles path m result ↔ Engine.Settles path' m result :=
    fun result => (hsettles path hpath result).symm.trans (hsettles path' hpath' result)
  exact ⟨hiff, fun depth hends =>
    (hiff _).1 (Engine.settles_of_ends (hmonotone path hpath) hends)⟩

/-- A program that defines a transformer, with a remark behind it, and uses it settles to the same
number on every way. -/
theorem paths_agree_transformer :
    let source := "(defmacro twice [a] (list (quote do) a a)) ; twice\n (twice (def x 1)) x"
    ∃ value m', value.equal (.int 1) = true ∧
      ∀ path ∈ paths 0 source, Engine.Settles path (fresh true) (.ok value m') := by
  intro source
  have hvalue : ((evalText (.ofDepth 12) 0 source).outcome (fresh true)).toOption.any
      (·.equal (.int 1)) = true := by decide +kernel
  obtain ⟨value, m', hrun, hequal⟩ := Run.exists_ok_of_any hvalue
  refine ⟨value, m', hequal, fun path hpath => ?_⟩
  have hends : ¬ (evalText (.ofDepth 12) 0 source).GivesUp (fresh true) := by
    rintro ⟨m'', hgives⟩
    rw [hrun] at hgives
    cases hgives
  have hsettles := ((paths_agree 0 source (fresh true)).2 _ List.mem_cons_self path hpath).2 12
    hends
  rw [hrun] at hsettles
  exact hsettles

end Session

end SmallLisp
