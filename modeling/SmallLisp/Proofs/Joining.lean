import SmallLisp.Proofs.InShape
import SmallLisp.Proofs.ShapeSafety
import SmallLisp.Proofs.Spelling

/-!
# A program can be fed in pieces

A text can be cut where a line ends, and its two parts given to a session one after the other. What
could go wrong at the seam goes wrong nowhere:

* **cutting into tokens** (`Lexer.scan_join`): a newline ends every token that the end of a text
  ends. The tokens of the joined text are those of the parts, and a failure in the second part
  stands further on.
* **reading** (`Reader.readForms_join`): derivations are put one behind the other.
* **checking** (`Validation.checkAll_of_append`): a program that passes the check begins with
  programs that pass it, since what is known of the names behind a form never reaches back.
* **evaluating** (`Engine.evalBody_append`): the second part is evaluated where the first one ends.

**`Session.evalText_join`** puts them together. It asks for a check of the second part in the
session that the first part leaves, because the check of the joined text goes by the names that are
bound before the first part is run.
-/

namespace SmallLisp

/-! ## Cutting into tokens -/

/-- The failure in a text that stands so many characters further on. -/
def ReadError.shift (offset : Nat) : ReadError → ReadError
  | unexpectedChar position c => unexpectedChar (position + offset) c
  | reason => reason

namespace Lexer

/-- The mode in a text that stands so many characters further on. -/
def Mode.shift (offset : Nat) : Mode → Mode
  | string start seen => string (start + offset) seen
  | escape start seen => escape (start + offset) seen
  | broken start => broken (start + offset)
  | mode => mode

/-- The tokens of a text that stands so many characters further on. -/
def Scan.shift (offset : Nat) (scan : Scan) : Scan :=
  { scan with failure := scan.failure.map (·.shift offset) }

theorem Scan.shift_after (offset : Nat) (emitted : List Token) (scan : Scan) :
    (scan.after emitted).shift offset = (scan.shift offset).after emitted := rfl

theorem opening_shift (offset position : Nat) (c : Char) :
    opening (position + offset) c =
      ((opening position c).1.shift offset, (opening position c).2) := by
  unfold opening
  split
  · rfl
  · split
    · rfl
    · split
      · rfl
      · split <;> rfl

/-- A character does the same further on. -/
theorem step_shift (offset : Nat) (mode : Mode) (position : Nat) (c : Char) :
    step (mode.shift offset) (position + offset) c =
      match step mode position c with
      | .ok (next, emitted) => .ok (next.shift offset, emitted)
      | .error reason => .error (reason.shift offset) := by
  cases mode with
  | between => simp only [step, Mode.shift, opening_shift]
  | atom seen =>
    simp only [step, Mode.shift, opening_shift]
    split <;> rfl
  | comment | escape =>
    simp only [step, Mode.shift]
    split <;> rfl
  | string =>
    simp only [step, Mode.shift]
    split
    · rfl
    · split <;> rfl
  | broken => rfl

theorem finish_shift (offset : Nat) (mode : Mode) :
    finish (mode.shift offset) = (finish mode).shift offset := by
  cases mode <;> rfl

/-- Where a text stands shows only in the position of a failure. -/
theorem scanFrom_shift (offset : Nat) (mode : Mode) (position : Nat) (cs : List Char) :
    scanFrom (mode.shift offset) (position + offset) cs =
      (scanFrom mode position cs).shift offset := by
  induction cs generalizing mode position with
  | nil => exact finish_shift offset mode
  | cons c cs ih =>
    rw [scanFrom, scanFrom, step_shift]
    cases step mode position c with
    | error reason => rfl
    | ok result =>
      obtain ⟨next, emitted⟩ := result
      dsimp only
      rw [Nat.add_right_comm, ih, Scan.shift_after]

/-- A newline ends the token that the end of the text would end. -/
theorem scanFrom_newline {mode : Mode} (h : (finish mode).failure = none) (position : Nat)
    (rest : List Char) :
    scanFrom mode position ('\n' :: rest) =
      (scanFrom .between (position + 1) rest).after (finish mode).tokens := by
  cases mode with
  | between => rw [scanFrom_separator (by decide), finish, Scan.after_nil]
  | comment seen =>
    refine scanFrom_cons ?_ rest
    rw [step, if_pos rfl]
    rfl
  | atom seen =>
    have hopening : opening position '\n' = (.between, []) := by
      rw [opening, if_pos (by decide)]
    refine scanFrom_cons ?_ rest
    rw [step, if_neg (by decide), hopening]
    rfl
  | string | escape | broken => cases h

/-- A text that is cut to its end is cut alike in front of a newline. -/
theorem scanFrom_append_newline {mode : Mode} {position : Nat} {cs : List Char}
    (h : (scanFrom mode position cs).failure = none) (rest : List Char) :
    scanFrom mode position (cs ++ '\n' :: rest) =
      (scanFrom .between (position + cs.length + 1) rest).after
        (scanFrom mode position cs).tokens := by
  induction cs generalizing mode position with
  | nil => exact scanFrom_newline h position rest
  | cons c cs ih =>
    rw [List.cons_append, scanFrom]
    rw [scanFrom] at h ⊢
    cases hstep : step mode position c with
    | error reason =>
      rw [hstep] at h
      cases h
    | ok result =>
      obtain ⟨next, emitted⟩ := result
      rw [hstep] at h
      dsimp only at h ⊢
      rw [ih h, Scan.after_after, List.length_cons, Nat.add_right_comm position 1,
        Nat.add_assoc position]
      rfl

/-- The tokens of two texts with a newline between them. -/
theorem scan_join {first : String} (h : (scan first).failure = none) (second : String) :
    scan (first ++ "\n" ++ second) =
      ((scan second).shift (first.toList.length + 1)).after (scan first).tokens := by
  have hchars : (first ++ "\n" ++ second).toList = first.toList ++ '\n' :: second.toList := by
    simp
  have hshift := scanFrom_shift (first.toList.length + 1) .between 0 second.toList
  unfold scan at h ⊢
  rw [hchars, scanFrom_append_newline h, ← hshift, Nat.add_assoc]
  rfl

end Lexer

/-! ## Reading -/

namespace Reader

/-- If nothing is wrong with the forms, nothing is wrong behind the tokens. -/
theorem failure_of_drainFrom {stack : List Pending} {row : List Token}
    {failure : Option ReadError} (h : (drainFrom stack row failure).1.failure = none) :
    failure = none := by
  induction row generalizing stack with
  | nil => cases stack <;> simp_all [drainFrom]
  | cons token row ih =>
    rw [drainFrom_cons] at h
    cases haccept : accept token stack with
    | error reason => simp [haccept] at h
    | ok progress =>
      rw [haccept] at h
      cases progress with
      | more stack' => exact ih h
      | complete form => exact ih h

/-- A text that is read is cut to its end, and it has a derivation. -/
theorem derives_of_readForms {source : String} {forms : List Value}
    (h : readForms source = .ok forms) :
    (Lexer.scan source).failure = none ∧
      ∃ trees, Tree.Derives (Lexer.scan source).tokens trees ∧ forms = Tree.values trees := by
  have hread : readText source = ⟨forms, none⟩ := by
    unfold readForms at h
    split at h
    · rename_i forms' hread
      cases h
      exact hread
    · cases h
  have hfailure : (readText source).failure = none := by rw [hread]
  have hlex : (Lexer.scan source).failure = none := failure_of_drainFrom hfailure
  obtain ⟨hderives, hvalues, -⟩ := readText_grammar source hlex
  obtain ⟨trees, htrees⟩ := hderives.1 hfailure
  refine ⟨hlex, trees, htrees, ?_⟩
  rw [← (hvalues trees htrees).1, hread]

/-- Two texts that are read are read one after the other if a newline stands between them. -/
theorem readForms_join {first second : String} {forms forms' : List Value}
    (hfirst : readForms first = .ok forms) (hsecond : readForms second = .ok forms') :
    readForms (first ++ "\n" ++ second) = .ok (forms ++ forms') := by
  obtain ⟨hlex, trees, ⟨hvalid, htokens⟩, rfl⟩ := derives_of_readForms hfirst
  obtain ⟨hlex', trees', ⟨hvalid', htokens'⟩, rfl⟩ := derives_of_readForms hsecond
  have hscan := Lexer.scan_join hlex second
  have hfailure : (Lexer.scan (first ++ "\n" ++ second)).failure = none := by
    rw [hscan]
    show (Lexer.scan second).failure.map _ = none
    rw [hlex', Option.map_none]
  have hrow : (Lexer.scan (first ++ "\n" ++ second)).tokens =
      Tree.tokensAll (trees ++ trees') ++ [] := by
    rw [hscan, List.append_nil, Tree.tokensAll_append, htokens, htokens']
    rfl
  have hjoined := (readText_split hfailure
    ((Tree.validAll_append trees trees').2 ⟨hvalid, hvalid'⟩) hrow).1 rfl
  unfold readForms
  rw [hjoined, Tree.values_append]

end Reader

/-! ## Checking and evaluating -/

/-- A program that passes the check begins with programs that pass it. -/
theorem Validation.checkAll_of_append {bound : String → Bool} {forms forms' : List Value}
    (h : checkAll bound (forms ++ forms') = .ok ()) : checkAll bound forms = .ok () := by
  unfold checkAll at h ⊢
  rw [walkAll_append] at h
  cases hwalk : walkAll bound forms [] with
  | ok known => rfl
  | error fault =>
    rw [hwalk] at h
    cases h

/-- The value of a body is that of its last form, so what stands before the last part of it only
has to have been evaluated. -/
theorem Engine.evalBody_append (engine : Engine) (forms : List Value) {forms' : List Value}
    (hne : forms' ≠ []) (frame : FrameId) :
    engine.evalBody (forms ++ forms') frame =
      (engine.evalBody forms frame >>= fun _ => engine.evalBody forms' frame) := by
  obtain ⟨form, rest, rfl⟩ := List.exists_cons_of_ne_nil hne
  unfold evalBody
  rw [List.foldlM_append]
  rfl

/-! ## Sessions -/

namespace Session

/-- A text that passes is evaluated form by form. -/
theorem evalText_of_passes {engine : Engine} {frame : FrameId} {source : String}
    {forms : List Value} {m : Machine} (h : Passes frame source m)
    (hread : Reader.readForms source = .ok forms) :
    evalText engine frame source m = engine.evalBody forms frame m := by
  obtain ⟨forms', hread', hcheck⟩ := h
  rw [hread] at hread'
  cases hread'
  rw [evalText_read hread, hcheck]

/-- **A program can be fed in pieces.** Let two texts be read without error, the second one having
at least one form. If the joined text passes the check, the first text evaluates to a value, and
the second one passes the check in the session that this leaves, then evaluating the joined text
ends as evaluating the second text there does: with the same value or the same stop, and with the
same machine. -/
theorem evalText_join {engine : Engine} {root : FrameId} {first second : String}
    {forms forms' : List Value} {value : Value} {m m' : Machine}
    (hfirst : Reader.readForms first = .ok forms)
    (hsecond : Reader.readForms second = .ok forms') (hne : forms' ≠ [])
    (hpasses : Passes root (first ++ "\n" ++ second) m)
    (heval : evalText engine root first m = .ok value m') (hpasses' : Passes root second m') :
    evalText engine root (first ++ "\n" ++ second) m = evalText engine root second m' := by
  have hjoined := Reader.readForms_join hfirst hsecond
  have hbegins : Passes root first m := by
    obtain ⟨all, hread, hcheck⟩ := hpasses
    rw [hjoined] at hread
    cases hread
    exact ⟨forms, hfirst, Validation.checkAll_of_append hcheck⟩
  rw [evalText_of_passes hbegins hfirst] at heval
  rw [evalText_of_passes hpasses hjoined, evalText_of_passes hpasses' hsecond,
    engine.evalBody_append forms hne root]
  exact Run.bind_ok heval

/-- The first part defines a transformer and ends in a remark, in which a bracket and a quote stand;
the second part uses the transformer. -/
theorem evalText_join_remark :
    let first := "(defmacro twice [a] (list (quote do) a a)) ; (\""
    let second := "(twice (def x 1)) (+ x 1)"
    let m := fresh true
    let m' := (evalText (.ofDepth 12) 0 first).after m
    Passes 0 (first ++ "\n" ++ second) m ∧ Passes 0 second m' ∧
      evalText (.ofDepth 12) 0 (first ++ "\n" ++ second) m =
        evalText (.ofDepth 12) 0 second m' := by
  intro first second m m'
  have hrun : Passes 0 first m ∧ Passes 0 (first ++ "\n" ++ second) m ∧ Passes 0 second m' ∧
      (Reader.readForms second).toOption.any (!·.isEmpty) = true ∧
      ((evalText (.ofDepth 12) 0 first).outcome m).toOption.any (fun _ => true) = true := by
    decide +kernel
  obtain ⟨⟨forms, hfirst, -⟩, hpasses, hpasses', hforms, hvalue⟩ := hrun
  have hreads := hpasses'
  obtain ⟨forms', hsecond, -⟩ := hreads
  have hne : forms' ≠ [] := by
    rintro rfl
    rw [hsecond] at hforms
    cases hforms
  obtain ⟨value, n, heval, -⟩ := Run.exists_ok_of_any hvalue
  have hm' : m' = n := by
    simp only [m', Run.after, heval]
  refine ⟨hpasses, hpasses', ?_⟩
  rw [hm'] at hpasses' ⊢
  exact evalText_join hfirst hsecond hne hpasses heval hpasses'

end Session

end SmallLisp
