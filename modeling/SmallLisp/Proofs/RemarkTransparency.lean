import SmallLisp.Proofs.EntryPaths
import SmallLisp.Proofs.RemarkedEvaluation

/-!
# Remarks are transparent

A program with remarks in it ends as the program without them does, as long as no name that it
mentions means a transformer that a program has made.

* `Store.Guarded`: what the code of a session can ask for. Where a name is bound to something else,
  it is one of the hidden names, or it is the library's own `comment` or `defn`.
* `Pairing.couples_of_tolerant`: runs that couple on tolerant engines couple on those of every depth
  behind one at which one of them has ended. A remark needs one level of depth at most, however many
  there are.
* **`Session.evalText_remarked`: what a session does with the two programs.**

The condition on names cannot be dropped: a transformer sees the remarks in a call that it is handed
(`Session.evalText_remarked_form`).
-/

namespace SmallLisp

/-! ## Two depths -/

namespace Pairing

variable {W α β : Type} [Preorder W] {c : Pairing W} {w : W} {m m' : Machine}
  {q : W → α → β → Prop}

/-- Of two runs that couple either both give up or neither does. -/
theorem Couples.givesUp_iff {run : Run α} {run' : Run β} (h : c.Couples w run run' m m' q) :
    run.GivesUp m ↔ run'.GivesUp m' := by
  unfold Couples at h
  unfold Run.GivesUp
  generalize run m = result, run' m' = result' at h ⊢
  cases h with
  | ok => simp
  | error _ _ hstop => cases hstop <;> simp

/-- If the runs couple on tolerant engines, and one of them ends at some depth, then they couple at
every greater depth. -/
theorem couples_of_tolerant {run : Engine → Run α} {run' : Engine → Run β}
    (hrun : Engine.Monotone run) (hrun' : Engine.Monotone run')
    (hcouples : ∀ depth, c.Couples w (run (.tolerant depth)) (run' (.tolerant depth)) m m' q)
    {depth deeper : Nat} (hlt : depth < deeper)
    (hends : ¬(run (.ofDepth depth)).GivesUp m ∨ ¬(run' (.ofDepth depth)).GivesUp m') :
    c.Couples w (run (.ofDepth deeper)) (run' (.ofDepth deeper)) m m' q := by
  -- what ends at a depth ends so on the tolerant engine of that depth
  have htolerant : ∀ {γ : Type} {run : Engine → Run γ} {m : Machine}, Engine.Monotone run →
      ¬(run (.ofDepth depth)).GivesUp m → ¬(run (.tolerant depth)).GivesUp m := by
    intro γ run m hrun hends
    have heq := (hrun _ _ (Engine.extends_tolerant depth) m).resolve_left hends
    rintro ⟨m', hgives⟩
    exact hends ⟨m', heq.symm.trans hgives⟩
  -- and what ends on that engine ends so at every greater depth
  have hdeeper : ∀ {γ : Type} {run : Engine → Run γ} {m : Machine}, Engine.Monotone run →
      ¬(run (.tolerant depth)).GivesUp m → run (.ofDepth deeper) m = run (.tolerant depth) m := by
    intro γ run m hrun hends
    have hsucc := (hrun _ _ (Engine.tolerant_extends depth) m).resolve_left hends
    refine (Eq.trans ?_ hsucc)
    refine (hrun _ _ (Engine.ofDepth_extends hlt) m).resolve_left ?_
    rintro ⟨m', hgives⟩
    exact hends ⟨m', hsucc.symm.trans hgives⟩
  have hcouple := hcouples depth
  have hboth : ¬(run (.tolerant depth)).GivesUp m ∧ ¬(run' (.tolerant depth)).GivesUp m' := by
    rcases hends with hends | hends
    · have hleft := htolerant hrun hends
      exact ⟨hleft, mt hcouple.givesUp_iff.2 hleft⟩
    · have hright := htolerant hrun' hends
      exact ⟨mt hcouple.givesUp_iff.1 hright, hright⟩
  unfold Couples at hcouple ⊢
  rw [hdeeper hrun hboth.1, hdeeper hrun' hboth.2]
  exact hcouple

end Pairing

/-! ## Sessions -/

/-- What the names of the store are bound to is clean, but for hidden names and the transformers of
the library that go by their own names. -/
def Store.Guarded (hidden : List String) (store : Store) : Prop :=
  ∀ frame ∈ store.frames.toList, ∀ var ∈ frame.vars,
    var.2.Clean hidden ∨ exempt hidden var.1 var.2 = true

instance (hidden : List String) (store : Store) : Decidable (store.Guarded hidden) :=
  inferInstanceAs (Decidable (∀ frame ∈ store.frames.toList, ∀ var ∈ frame.vars,
    var.2.Clean hidden ∨ exempt hidden var.1 var.2 = true))

namespace Remarks

variable {hidden : List String} {w : Sites} {m : Machine} {frame : FrameId}

/-- A machine with a guarded store is its own twin. -/
theorem Twins.self (hguarded : m.store.Guarded hidden)
    (hlibrary : ∀ id, w.Mem id → ∀ expander ∈ [Expander.remark, Expander.defineFunction],
      m.store.MeansLibrary id expander) : Twins hidden w m m := by
  refine ⟨⟨rfl, fun id => ?_, hlibrary⟩, rfl, rfl, ?_⟩
  · cases hframe : m.store.frame? id with
    | none => exact .none
    | some frame =>
      have hmem : frame ∈ m.store.frames.toList :=
        Array.mem_toList_iff.2 (Array.mem_of_getElem? hframe)
      refine .some ⟨rfl, List.forall₂_same.2 fun var hvar => ⟨rfl, ?_⟩⟩
      exact (hguarded frame hmem var hvar).imp Value.Resembles.self fun h => ⟨rfl, h⟩
  · exact List.forall₂_same.2 fun call _ =>
      ⟨rfl, rfl, List.forall₂_same.2 fun _ _ => .inl rfl⟩

end Remarks

/-- Just the frame. -/
def Sites.only (frame : FrameId) : Sites where
  Mem id := id = frame

namespace Session

open Remarks (Twins)

variable {hidden : List String} {m : Machine} {frame : FrameId}

/-- **Remarks are transparent.** In the frame let `comment` and `defn` mean the transformers of the
library, let the store be guarded, and let two texts read as programs of tidy code of which the
second has remarks put into it: before the last form of the program, or of bodies that stand where
they are evaluated. As soon as one of them has ended at some depth, whichever it is, both end at
every greater depth, and in the same way:

* the frames of the stores bind the same names to values that resemble each other, and probes have
  been called alike (`Twins`); what has been logged may differ;
* both have values, and these resemble each other, which is to say that they are the same but for
  remarks in the bodies of functions; or both have stopped, for the same reason, over values that
  resemble each other;
* what is shown of the value, or reported of the fault, is the same text. -/
theorem evalText_remarked {source source' : String} {forms forms' : List Value}
    (hremark : m.store.MeansLibrary frame .remark)
    (hdefn : m.store.MeansLibrary frame .defineFunction) (hguarded : m.store.Guarded hidden)
    (hread : Reader.readForms source = .ok forms) (hread' : Reader.readForms source' = .ok forms')
    (hforms : Strewn (Remarked hidden True) True forms forms') {depth deeper : Nat}
    (hends : ¬(evalText (.ofDepth depth) frame source).GivesUp m ∨
      ¬(evalText (.ofDepth depth) frame source').GivesUp m) (hlt : depth < deeper) :
    let run := evalText (.ofDepth deeper) frame source
    let run' := evalText (.ofDepth deeper) frame source'
    run.shown m = run'.shown m ∧ ∃ w, Twins hidden w (run.after m) (run'.after m) ∧
      ((∃ value value', run.outcome m = .ok value ∧ run'.outcome m = .ok value' ∧
          value.Resembles hidden w value') ∨
        ∃ stop stop', run.outcome m = .error stop ∧ run'.outcome m = .error stop' ∧
          Stop.Like (Value.Resembles hidden w) stop stop') := by
  intro run run'
  have htwins : Twins hidden (.only frame) m m := by
    refine .self hguarded ?_
    rintro id rfl expander hexpander
    rcases List.mem_pair.1 hexpander with rfl | rfl
    · exact hremark
    · exact hdefn
  have hcouples := Pairing.couples_of_tolerant (monotone_evalText frame source)
    (monotone_evalText frame source')
    (fun depth => Remarks.couples_evalText (Remarks.carries_tolerant depth) htwins hread hread'
      (Remarked.strewn_imp (fun _ => rfl) hforms)) hlt hends
  obtain ⟨w, -, htwins', hends'⟩ := hcouples.exists_twins
  exact ⟨hcouples.shown_eq, w, htwins', hends'⟩

/-- A function with remarks in all its bodies is defined and called. -/
theorem evalText_remarked_function :
    let hidden := ["macro", "defmacro"]
    let m := fresh false
    let source := "(defn f [x] (let [y x] y)) (f 42)"
    let source' := "(defn f [x] ; f\n (let [y x] ; y\n y)) ; ()\n (f 42)"
    let run := evalText (.ofDepth 13) 0 source
    let run' := evalText (.ofDepth 13) 0 source'
    m.store.MeansLibrary 0 .remark ∧ m.store.MeansLibrary 0 .defineFunction ∧
      m.store.Guarded hidden ∧
      (∃ forms forms', Reader.readForms source = .ok forms ∧ Reader.readForms source' = .ok forms' ∧
        Strewn (Remarked hidden True) True forms forms') ∧
      ((evalText (.ofDepth 12) 0 source).outcome m).toOption.any (·.equal (.int 42)) = true ∧
      run.shown m = run'.shown m ∧ ∃ w, Twins hidden w (run.after m) (run'.after m) := by
  intro hidden m source source' run run'
  let forms : List Value := [
    .list [.symbol "defn", .symbol "f", .vector [.symbol "x"],
      .list [.symbol "let", .vector [.symbol "y", .symbol "x"], .symbol "y"]],
    .list [.symbol "f", .number (.int 42)]]
  let forms' : List Value := [
    .list [.symbol "defn", .symbol "f", .vector [.symbol "x"], .remark " f",
      .list [.symbol "let", .vector [.symbol "y", .symbol "x"], .remark " y", .symbol "y"]],
    .remark " ()",
    .list [.symbol "f", .number (.int 42)]]
  have hread : Reader.readForms source = .ok forms := by
    simp only [source, forms]
    rfl
  have hread' : Reader.readForms source' = .ok forms' := by
    simp only [source', forms']
    rfl
  have hforms : Strewn (Remarked hidden True) True forms forms' := by
    have hlet : Remarked hidden True
        (.list [.symbol "let", .vector [.symbol "y", .symbol "x"], .symbol "y"])
        (.list [.symbol "let", .vector [.symbol "y", .symbol "x"], .remark " y", .symbol "y"]) :=
      .binding (.cons rfl (.same rfl) .nil) (.remark _ trivial nofun (.form (.same rfl) .nil))
    exact .form (.defn rfl rfl (.remark _ trivial nofun (.form hlet .nil)))
      (.remark _ trivial nofun (.form (.same rfl) .nil))
  obtain ⟨hremark, hdefn, hguarded, hvalue⟩ : m.store.MeansLibrary 0 .remark ∧
      m.store.MeansLibrary 0 .defineFunction ∧ m.store.Guarded hidden ∧
      ((evalText (.ofDepth 12) 0 source).outcome m).toOption.any (·.equal (.int 42)) = true := by
    decide +kernel
  have hends : ¬(evalText (.ofDepth 12) 0 source).GivesUp m := by
    obtain ⟨value, m', hrun, -⟩ := Run.exists_ok_of_any hvalue
    rintro ⟨m'', hgives⟩
    rw [hrun] at hgives
    cases hgives
  obtain ⟨hshown, w, htwins, -⟩ := evalText_remarked hremark hdefn hguarded hread hread' hforms
    (.inl hends) (Nat.lt_succ_self 12)
  exact ⟨hremark, hdefn, hguarded, ⟨forms, forms', hread, hread', hforms⟩, hvalue, hshown, w,
    htwins⟩

/-- The text that is shown of a value. -/
def textOf : Run.Shown → Option String
  | .text (.ok text) => some text
  | _ => none

/-- The code of a function is tidy. -/
def tidyFunction (hidden : List String) : Value → Bool
  | .function _ params body _ => params.Tidy hidden ∧ ∀ form ∈ body, form.Tidy hidden
  | _ => true

/-- It is not enough that no code mentions `macro` and `defmacro`. A transformer that an earlier
program has made is handed the whole call, and that holds the remarks in the head of the call. -/
theorem evalText_remarked_form :
    let hidden := ["macro", "defmacro"]
    let m := evalAll (.ofDepth 12) ["(defmacro form-of [] (list (quote quote) &form))"]
      (fresh false)
    let source := "((do form-of))"
    let source' := "((do (comment \"x\") form-of))"
    let run := evalText (.ofDepth 12) 0 source
    let run' := evalText (.ofDepth 12) 0 source'
    m.store.MeansLibrary 0 .remark ∧ m.store.MeansLibrary 0 .defineFunction ∧
      (∀ frame ∈ m.store.frames.toList, ∀ var ∈ frame.vars,
        ∀ callable ∈ var.2.capabilities, tidyFunction hidden callable = true) ∧
      (∃ forms forms', Reader.readForms source = .ok forms ∧ Reader.readForms source' = .ok forms' ∧
        Strewn (Remarked hidden True) True forms forms') ∧
      textOf (run.shown m) = some source ∧ textOf (run'.shown m) = some source' ∧
      run.shown m ≠ run'.shown m := by
  intro hidden m source source' run run'
  have hread : Reader.readForms source = .ok [.list [.list [.symbol "do", .symbol "form-of"]]] := by
    simp only [source]
    rfl
  have hread' : Reader.readForms source' =
      .ok [.list [.list [.symbol "do", .remark "x", .symbol "form-of"]]] := by
    simp only [source']
    rfl
  have hforms : Strewn (Remarked hidden True) True
      [.list [.list [.symbol "do", .symbol "form-of"]]]
      [.list [.list [.symbol "do", .remark "x", .symbol "form-of"]]] := by
    have hdo : Strewn (Remarked hidden True) True [.symbol "form-of"]
        [.remark "x", .symbol "form-of"] := .remark "x" trivial nofun (.form (.same rfl) .nil)
    exact .form (.call rfl (.sequence hdo) .nil) .nil
  obtain ⟨hremark, hdefn, hstored, hshown, hshown'⟩ : m.store.MeansLibrary 0 .remark ∧
      m.store.MeansLibrary 0 .defineFunction ∧
      (∀ frame ∈ m.store.frames.toList, ∀ var ∈ frame.vars,
        ∀ callable ∈ var.2.capabilities, tidyFunction hidden callable = true) ∧
      textOf (run.shown m) = some source ∧ textOf (run'.shown m) = some source' := by
    decide +kernel
  have hne : source ≠ source' := by decide
  refine ⟨hremark, hdefn, hstored, ⟨_, _, hread, hread', hforms⟩, hshown, hshown', fun heq => ?_⟩
  exact hne (Option.some.inj (hshown.symm.trans ((congrArg textOf heq).trans hshown')))

end Session

end SmallLisp
