import SmallLisp.Proofs.Reading

/-!
# No token is lost or read twice

A stream can be looked at, taken from, and read off form by form or as a whole, in any order and
whatever goes wrong on the way. At every point of such a run the tokens taken so far, with those
still to come behind them, are the tokens there were in the beginning, in their order
(**`TokenStream.Origin.conserves`**).

* `TokenStream.Moves stream taken left`: peeks and advances lead from the one stream to the other,
  and the advances have answered the tokens `taken`. This is what it is to take tokens. The reader
  does nothing else to a stream (`Reader.moves_readFrom`), so that what it has taken when it fails
  is accounted for like any other token.
* `Reader.drain_eq`: reading all forms is looking for a token and reading one form, in turn, so that
  it adds no new way to treat a stream.
* `TokenStream.Reports`: the failure behind the tokens stays there until there are no tokens in
  front of it, and is gone when it has been reported. The reader has no failure of that kind of its
  own (`Reader.not_lexical_of_accept`).
-/

namespace SmallLisp

namespace TokenStream

variable {stream left : TokenStream} {token : Token} {taken rest : List Token}

/-! ## Taking tokens -/

/-- A stream at its end. -/
def spent : TokenStream := ⟨none, [], none⟩

/-- The token that an advance has answered. -/
def received : Except ReadError (Option Token) → List Token
  | .ok (some token) => [token]
  | .ok none => []
  | .error _ => []

/-- Peeks and advances lead from one stream to another, and these are the tokens taken, in order. -/
inductive Moves : TokenStream → List Token → TokenStream → Prop
  | stay (stream : TokenStream) : Moves stream [] stream
  | peek {stream left : TokenStream} {taken : List Token} : Moves stream.peek.2 taken left →
      Moves stream taken left
  | advance {stream left : TokenStream} {taken : List Token} : Moves stream.advance.2 taken left →
      Moves stream (received stream.advance.1 ++ taken) left

/-- Where no token is pending, only the failure is left. -/
theorem eq_of_pending_nil (h : stream.pending = []) : stream = ⟨none, [], stream.failure⟩ := by
  rcases stream with ⟨_ | looked, _ | ⟨next, rest⟩, failure⟩ <;> simp_all [pending]

/-- The first token pending is the one that is seen. -/
theorem peek_of_pending (h : stream.pending = token :: rest) :
    stream.peek = (.ok (some token), ⟨some token, rest, stream.failure⟩) := by
  rcases stream with ⟨_ | looked, _ | ⟨next, rest'⟩, failure⟩ <;> simp_all [pending, peek]

/-- It is also the one that is taken. -/
theorem advance_of_pending (h : stream.pending = token :: rest) :
    stream.advance = (.ok (some token), ⟨none, rest, stream.failure⟩) := by
  rcases stream with ⟨_ | looked, _ | ⟨next, rest'⟩, failure⟩ <;> simp_all [pending, advance]

/-- What is seen is what an advance answers next, be it a token or the end. -/
theorem advance_of_peek {answer : Option Token} (h : stream.peek.1 = .ok answer) :
    stream.peek.2.advance.1 = .ok answer := by
  cases hpending : stream.pending with
  | nil =>
    rw [eq_of_pending_nil hpending] at h ⊢
    cases hfailure : stream.failure <;> rw [hfailure] at h <;> cases h
    rfl
  | cons token rest =>
    rw [peek_of_pending hpending] at h ⊢
    exact h

/-- What is taken was the first token pending, or there was none. -/
theorem received_advance (stream : TokenStream) :
    received stream.advance.1 ++ stream.advance.2.pending = stream.pending := by
  cases hpending : stream.pending with
  | nil =>
    rw [eq_of_pending_nil hpending]
    cases stream.failure <;> rfl
  | cons token rest =>
    rw [advance_of_pending hpending]
    rfl

/-- **No token is lost or taken twice.** -/
theorem Moves.pending_eq (h : Moves stream taken left) : taken ++ left.pending = stream.pending := by
  induction h with
  | stay => rfl
  | @peek stream _ _ _ ih => rw [ih, pending_peek]
  | @advance stream _ _ _ ih => rw [List.append_assoc, ih, received_advance]

theorem Moves.trans {middle : TokenStream} {taken' : List Token} (h : Moves stream taken middle)
    (h' : Moves middle taken' left) : Moves stream (taken ++ taken') left := by
  induction h with
  | stay => exact h'
  | peek _ ih => exact .peek (ih h')
  | advance _ ih =>
    rw [List.append_assoc]
    exact .advance (ih h')

/-- Looking at the first token pending. -/
theorem Moves.look (h : stream.pending = token :: rest)
    (hmoves : Moves ⟨some token, rest, stream.failure⟩ taken left) : Moves stream taken left :=
  .peek (by rwa [peek_of_pending h])

/-- Taking the first token pending. -/
theorem Moves.take (h : stream.pending = token :: rest)
    (hmoves : Moves ⟨none, rest, stream.failure⟩ taken left) :
    Moves stream (token :: taken) left := by
  have hadvance := advance_of_pending h
  have hmoves' : Moves stream.advance.2 taken left := by rwa [hadvance]
  have htaken := hmoves'.advance
  rwa [hadvance] at htaken

/-- Finding that there is none. -/
theorem Moves.find (h : stream.pending = []) : Moves stream [] spent := by
  have hadvance : received stream.advance.1 = [] ∧ stream.advance.2 = spent := by
    rw [eq_of_pending_nil h]
    cases stream.failure <;> exact ⟨rfl, rfl⟩
  have hmoves := (Moves.stay stream.advance.2).advance
  rwa [hadvance.1, hadvance.2] at hmoves

/-- The failure behind the tokens does not change, but it may be gone. -/
theorem Moves.failure_eq (h : Moves stream taken left) :
    left.failure = stream.failure ∨ left.failure = none := by
  have hpeek (stream : TokenStream) :
      stream.peek.2.failure = stream.failure ∨ stream.peek.2.failure = none := by
    rcases stream with ⟨_ | looked, _ | ⟨next, rest⟩, _ | reason⟩ <;> simp [TokenStream.peek]
  have hadvance (stream : TokenStream) :
      stream.advance.2.failure = stream.failure ∨ stream.advance.2.failure = none := by
    rcases stream with ⟨_ | looked, _ | ⟨next, rest⟩, _ | reason⟩ <;> simp [TokenStream.advance]
  induction h with
  | stay => exact .inl rfl
  | @peek stream _ _ _ ih => rcases hpeek stream with h | h <;> simp_all
  | @advance stream _ _ _ ih => rcases hadvance stream with h | h <;> simp_all

/-! ## The failure behind the tokens -/

/-- What is wrong behind the tokens, if anything, is what the lexer reports. -/
def FromLexer (stream : TokenStream) : Prop :=
  ∀ reason, stream.failure = some reason → reason.IsLexical

theorem FromLexer.moves (h : stream.FromLexer) (hmoves : Moves stream taken left) :
    left.FromLexer := by
  intro reason hreason
  rcases hmoves.failure_eq with hsame | hnone
  · exact h reason (hsame ▸ hreason)
  · rw [hnone] at hreason
    cases hreason

theorem FromLexer.ne_dangling (h : stream.FromLexer) :
    stream.failure ≠ some .danglingEscape := by
  intro hfailure
  cases h _ hfailure

/-- What a step does to the failure behind the tokens, and what it may be refused for: the failure
is still to come, and is not what the step was refused for, or the step was refused for it and there
is nothing left. -/
inductive Reports (failure refused : Option ReadError) (left : TokenStream) : Prop
  | later : left.failure = failure → (∀ reason, refused = some reason → ¬ reason.IsLexical) →
      Reports failure refused left
  | now {reason : ReadError} : failure = some reason → refused = some reason → left = spent →
      Reports failure refused left

theorem Reports.answered {failure : Option ReadError} (h : left.failure = failure) :
    Reports failure none left :=
  .later h fun _ hrefused => by cases hrefused

/-- The reason why something was not answered. -/
def refusal? {α : Type} : Except ReadError α → Option ReadError
  | .error reason => some reason
  | .ok _ => none

theorem reports_peek (stream : TokenStream) :
    Reports stream.failure (refusal? stream.peek.1) stream.peek.2 := by
  rcases stream with ⟨_ | looked, _ | ⟨next, rest⟩, _ | reason⟩ <;>
    first
    | exact .now rfl rfl rfl
    | exact .answered rfl

theorem reports_advance (stream : TokenStream) :
    Reports stream.failure (refusal? stream.advance.1) stream.advance.2 := by
  rcases stream with ⟨_ | looked, _ | ⟨next, rest⟩, _ | reason⟩ <;>
    first
    | exact .now rfl rfl rfl
    | exact .answered rfl

end TokenStream

namespace Reader

open TokenStream (spent Moves Reports refusal? eq_of_pending_nil peek_of_pending
  advance_of_pending)
open SmallLisp.Tree (ValidAll values tokensAll)

variable {stack : List Pending} {form : Value} {stream left : TokenStream} {reason : ReadError}

/-! ## One form -/

/-- Whatever becomes of the form, each token that is gone was taken, and no token is left that was
looked at. -/
theorem moves_readFrom (stack : List Pending) (stream : TokenStream) :
    ∃ taken, Moves stream taken (readFrom stack stream.pending stream.failure).2 ∧
      (readFrom stack stream.pending stream.failure).2.lookahead = none := by
  induction hpending : stream.pending generalizing stack stream with
  | nil => exact ⟨[], .find hpending, rfl⟩
  | cons token rest ih =>
    rw [readFrom]
    cases accept token stack with
    | error reason => exact ⟨[token], .take hpending (.stay _), rfl⟩
    | ok progress =>
      cases progress with
      | complete form => exact ⟨[token], .take hpending (.stay _), rfl⟩
      | more stack' =>
        obtain ⟨taken, hmoves, hlooked⟩ := ih stack' ⟨none, rest, stream.failure⟩ rfl
        exact ⟨token :: taken, .take hpending hmoves, hlooked⟩

theorem moves_readForm {answer : Except ReadError Value} (h : readForm stream = (answer, left)) :
    ∃ taken, Moves stream taken left ∧ left.lookahead = none := by
  have hmoves := moves_readFrom [] stream
  change ∃ taken, Moves stream taken (readForm stream).2 ∧ (readForm stream).2.lookahead = none
    at hmoves
  rwa [h] at hmoves

/-- A form that is read takes the tokens of its tree. -/
theorem moves_tree (h : readForm stream = (.ok form, left)) :
    ∃ tree : Tree, tree.Valid ∧ tree.value = form ∧ Moves stream tree.tokens left := by
  obtain ⟨tree, rest, hvalid, hvalue, htokens, rfl⟩ := readFrom_sound .nil h
  obtain ⟨taken, hmoves, -⟩ := moves_readForm h
  have htaken : taken ++ rest = tree.tokens ++ rest := hmoves.pending_eq.trans htokens
  rw [List.append_cancel_right htaken] at hmoves
  exact ⟨tree, hvalid, hvalue, hmoves⟩

theorem reports_readFrom (stack : List Pending) (row : List Token) (failure : Option ReadError) :
    Reports failure (refusal? (readFrom stack row failure).1) (readFrom stack row failure).2 := by
  induction row generalizing stack with
  | nil =>
    cases failure with
    | some reason => exact .now rfl rfl rfl
    | none =>
      refine .later rfl fun reason hreason => ?_
      cases hreason
      exact not_lexical_atEnd stack
  | cons token row ih =>
    rw [readFrom]
    cases haccept : accept token stack with
    | error reason =>
      refine .later rfl fun reason' hreason => ?_
      cases hreason
      exact not_lexical_of_accept haccept
    | ok progress =>
      cases progress with
      | complete form => exact .answered rfl
      | more stack' => exact ih stack'

/-! ## All forms -/

/-- Reading all forms looks for a token, reads one form and goes on, up to the first thing that is
wrong. -/
theorem drain_eq {stream : TokenStream} (hstream : stream.FromLexer) :
    drain stream =
      match stream.peek with
      | (.ok (some _), left) =>
        match readForm left with
        | (.ok form, left) =>
          (⟨form :: (drain left).1.forms, (drain left).1.failure⟩, (drain left).2)
        | (.error reason, left) => (⟨[], some (interrupting reason)⟩, left)
      | (.ok none, left) => (⟨[], none⟩, left)
      | (.error reason, left) => (⟨[], some reason⟩, left) := by
  cases hpending : stream.pending with
  | nil =>
    rw [eq_of_pending_nil hpending]
    cases stream.failure <;> rfl
  | cons token rest =>
    have hform : readForm ⟨some token, rest, stream.failure⟩ =
        readFrom [] (token :: rest) stream.failure := rfl
    rw [peek_of_pending hpending, drain, hpending,
      drainFrom_eq (.inr (by simp)) _ hstream.ne_dangling]
    dsimp only
    rw [hform]
    rcases hread : readFrom [] (token :: rest) stream.failure with ⟨reason | form, left⟩
    · rfl
    · obtain ⟨tree, behind, -, -, -, rfl⟩ := readFrom_sound .nil hread
      rfl

theorem reports_drainFrom (stack : List Pending) (row : List Token) (failure : Option ReadError) :
    Reports failure (drainFrom stack row failure).1.failure (drainFrom stack row failure).2 := by
  induction row generalizing stack with
  | nil =>
    cases failure with
    | some reason => cases stack <;> exact .now rfl rfl rfl
    | none =>
      cases stack with
      | nil => exact .answered rfl
      | cons construct stack =>
        refine .later rfl fun reason hreason => ?_
        cases hreason
        exact not_lexical_atEnd _
  | cons token row ih =>
    rw [drainFrom_cons]
    cases haccept : accept token stack with
    | error reason =>
      refine .later rfl fun reason' hreason => ?_
      have hlexical := not_lexical_of_accept haccept
      cases hreason
      cases reason with
      | danglingEscape => rintro ⟨⟩
      | _ => exact hlexical
    | ok progress =>
      cases progress with
      | complete form => exact ih []
      | more stack' => exact ih stack'

/-- The forms that are read are the values of trees whose tokens are taken one tree after the other.
More tokens are taken only if something is wrong with them. -/
theorem moves_drain (hstream : stream.FromLexer) :
    ∃ trees taken, ValidAll trees ∧ values trees = (drain stream).1.forms ∧
      Moves stream (tokensAll trees ++ taken) (drain stream).2 ∧
      (drain stream).2.lookahead = none ∧
      ((drain stream).1.failure = none → taken = [] ∧ (drain stream).2.pending = []) := by
  induction hlength : stream.pending.length using Nat.strongRecOn generalizing stream with
  | _ length ih =>
    cases hpending : stream.pending with
    | nil =>
      have hleft : (drain stream).1.forms = [] ∧ (drain stream).2 = spent := by
        rw [eq_of_pending_nil hpending]
        exact ⟨rfl, rfl⟩
      rw [hleft.1, hleft.2]
      exact ⟨[], [], trivial, rfl, .find hpending, rfl, fun _ => ⟨rfl, rfl⟩⟩
    | cons token rest =>
      rw [drain_eq hstream, peek_of_pending hpending]
      dsimp only
      rcases hread : readForm ⟨some token, rest, stream.failure⟩ with ⟨reason | form, left⟩
      · obtain ⟨taken, hmoves, hlooked⟩ := moves_readForm hread
        exact ⟨[], taken, trivial, rfl, .look hpending hmoves, hlooked,
          fun hnone => absurd hnone (Option.some_ne_none _)⟩
      · obtain ⟨tree, hvalid, hvalue, hmoves⟩ := moves_tree hread
        have hrow : tree.tokens ++ left.pending = stream.pending :=
          hmoves.pending_eq.trans hpending.symm
        have hlt : left.pending.length < length := by
          have hpos := List.length_pos_iff.2 tree.tokens_ne_nil
          rw [← hlength, ← hrow, List.length_append]
          omega
        have hfirst := Moves.look hpending hmoves
        obtain ⟨trees, taken, hvalids, hvalues, hmoves', hlooked, hend⟩ :=
          ih _ hlt (hstream.moves hfirst) rfl
        refine ⟨tree :: trees, taken, ⟨hvalid, hvalids⟩, ?_, ?_, hlooked, hend⟩
        · rw [values, hvalue, hvalues]
        · rw [tokensAll, List.append_assoc]
          exact hfirst.trans hmoves'

end Reader

namespace TokenStream

variable {stream : TokenStream}

/-! ## Steps -/

/-- What can be done with a stream. -/
inductive Step
  /-- To look at the next token. -/
  | peek
  /-- To take the next token. -/
  | advance
  /-- To read one form. -/
  | form
  /-- To read all forms. -/
  | forms
deriving DecidableEq, Repr

/-- What a step answers. -/
inductive Answer
  /-- A token, or none at the end. -/
  | token (answer : Except ReadError (Option Token))
  /-- A form. -/
  | form (answer : Except ReadError Value)
  /-- Forms, and what is wrong behind them. -/
  | forms (reading : Reading)

/-- The reason for which a step was refused. -/
def Answer.refused? : Answer → Option ReadError
  | token answer => refusal? answer
  | form answer => refusal? answer
  | forms reading => reading.failure

/-- What a step answers, and the stream behind it. -/
def perform (stream : TokenStream) : Step → Answer × TokenStream
  | .peek => (.token stream.peek.1, stream.peek.2)
  | .advance => (.token stream.advance.1, stream.advance.2)
  | .form => (.form (Reader.readForm stream).1, (Reader.readForm stream).2)
  | .forms => (.forms (Reader.drain stream).1, (Reader.drain stream).2)

/-- The stream behind steps that are made one after the other. -/
def run (stream : TokenStream) (steps : List Step) : TokenStream :=
  steps.foldl (fun stream step => (stream.perform step).2) stream

/-- The end of the input, as a step reports it. -/
def Step.ended : Step → Answer
  | peek => .token (.ok none)
  | advance => .token (.ok none)
  | form => .form (.error .endOfInput)
  | forms => .forms ⟨[], none⟩

/-- **A step takes tokens and does nothing else.** -/
theorem moves_perform (h : stream.FromLexer) (step : Step) :
    ∃ taken, Moves stream taken (stream.perform step).2 := by
  cases step with
  | peek => exact ⟨_, .peek (.stay _)⟩
  | advance => exact ⟨_, .advance (.stay _)⟩
  | form =>
    obtain ⟨taken, hmoves, -⟩ := Reader.moves_readForm (Prod.eta (Reader.readForm stream)).symm
    exact ⟨taken, hmoves⟩
  | forms =>
    obtain ⟨trees, taken, -, -, hmoves, -⟩ := Reader.moves_drain h
    exact ⟨_, hmoves⟩

theorem moves_run (h : stream.FromLexer) (steps : List Step) :
    ∃ taken, Moves stream taken (stream.run steps) := by
  induction steps generalizing stream with
  | nil => exact ⟨[], .stay _⟩
  | cons step steps ih =>
    obtain ⟨taken, hmoves⟩ := moves_perform h step
    obtain ⟨taken', hmoves'⟩ := ih (h.moves hmoves)
    exact ⟨taken ++ taken', hmoves.trans hmoves'⟩

theorem reports_perform (stream : TokenStream) (step : Step) :
    Reports stream.failure (stream.perform step).1.refused? (stream.perform step).2 := by
  cases step with
  | peek => exact reports_peek stream
  | advance => exact reports_advance stream
  | form => exact Reader.reports_readFrom [] _ _
  | forms => exact Reader.reports_drainFrom [] _ _

/-- Only looking leaves a token that was looked at. -/
theorem lookahead_perform (h : stream.FromLexer) {step : Step} (hstep : step ≠ .peek) :
    (stream.perform step).2.lookahead = none := by
  cases step with
  | peek => exact absurd rfl hstep
  | advance => rcases stream with ⟨_ | looked, _ | ⟨next, rest⟩, _ | reason⟩ <;> rfl
  | form =>
    obtain ⟨_, -, hlooked⟩ := Reader.moves_readForm (Prod.eta (Reader.readForm stream)).symm
    exact hlooked
  | forms =>
    obtain ⟨_, _, -, -, -, hlooked, -⟩ := Reader.moves_drain h
    exact hlooked

theorem perform_spent (step : Step) : spent.perform step = (step.ended, spent) := by
  cases step <;> rfl

theorem run_spent (steps : List Step) : spent.run steps = spent := by
  induction steps with
  | nil => rfl
  | cons step steps ih =>
    rw [run, List.foldl_cons, perform_spent]
    exact ih

/-! ## Where streams come from -/

/-- Where the tokens of a stream come from. -/
inductive Origin
  /-- They were made by hand, one by one. -/
  | hand (row : List Token)
  /-- They are those of a text, which may not be cut to its end. -/
  | text (source : String)

/-- The stream before the first step. -/
def Origin.start : Origin → TokenStream
  | hand row => ofTokens row
  | text source => ofScan (Lexer.scan source)

theorem Origin.fromLexer (origin : Origin) : origin.start.FromLexer := by
  intro reason hreason
  cases origin with
  | hand row => cases hreason
  | text source => exact Lexer.lexical_of_scanFrom .between 0 source.toList hreason

/-! ## The statement -/

/-- What holds of a stream at every point of what is done with it, and of the step that comes
next. -/
structure Conserves (origin stream : TokenStream) : Prop where
  /-- The tokens taken so far and those still to come are the tokens that there were, in order. -/
  accounted : ∃ taken, Moves origin taken stream ∧ taken ++ stream.pending = origin.pending
  /-- No more than one token was looked at and not taken, and none if the last step was not to
  look. -/
  looked : stream.lookahead.toList.length ≤ 1 ∧
    ∀ step, step ≠ .peek → (stream.perform step).2.lookahead = none
  /-- To look takes nothing, and what is seen is what an advance answers next. -/
  peeked : stream.peek.2.pending = stream.pending ∧
    ∀ answer, stream.peek.1 = .ok answer → stream.peek.2.advance.1 = .ok answer
  /-- Whatever was refused before, the first token not taken is the one that comes next. -/
  resumed : ∀ token rest, stream.pending = token :: rest →
    stream.peek.1 = .ok (some token) ∧ stream.advance.1 = .ok (some token) ∧
      stream.advance.2.pending = rest
  /-- A form that is read takes the tokens of one tree, which denotes it. -/
  read : ∀ form left, Reader.readForm stream = (.ok form, left) →
    ∃ tree : Tree, tree.Valid ∧ tree.value = form ∧ Moves stream tree.tokens left ∧
      tree.tokens ++ left.pending = stream.pending
  /-- A form that is refused takes the first of the tokens, and leaves the others. -/
  refused : ∀ reason left, Reader.readForm stream = (.error reason, left) →
    ∃ taken, Moves stream taken left ∧ taken ++ left.pending = stream.pending
  /-- All forms take the tokens of one tree after the other, and the tokens of what is refused behind
  them. -/
  drained : ∃ trees taken, Tree.ValidAll trees ∧
    Tree.values trees = (Reader.drain stream).1.forms ∧
    Moves stream (Tree.tokensAll trees ++ taken) (Reader.drain stream).2 ∧
    ((Reader.drain stream).1.failure = none → taken = [] ∧ (Reader.drain stream).2.pending = [])
  /-- A step leaves the failure of the lexer where it is, or reports it. -/
  kept : ∀ step reason, stream.failure = some reason →
    (stream.perform step).2.failure = some reason ∨
      (stream.perform step).1.refused? = some reason
  /-- It reports it where no token is left. -/
  due : ∀ step reason, stream.failure = some reason → stream.pending = [] →
    (stream.perform step).1.refused? = some reason
  /-- There is no other failure of that kind, and behind a step that reports it every step finds the
  end of the input. -/
  once : ∀ step reason, (stream.perform step).1.refused? = some reason → reason.IsLexical →
    origin.failure = some reason ∧ ∀ steps next,
      ((stream.perform step).2.run steps).perform next = (next.ended, spent)

/-- **The stream neither loses nor repeats tokens**, wherever they come from, and whatever steps are
made, those that are refused among them. -/
theorem Origin.conserves (origin : Origin) (steps : List Step) :
    Conserves origin.start (origin.start.run steps) := by
  obtain ⟨taken, hmoves⟩ := moves_run origin.fromLexer steps
  have hstream := origin.fromLexer.moves hmoves
  generalize origin.start.run steps = stream at hmoves hstream
  refine
    { accounted := ⟨taken, hmoves, hmoves.pending_eq⟩
      looked := ⟨?_, fun step => lookahead_perform hstream⟩
      peeked := ⟨pending_peek stream, fun answer => advance_of_peek⟩
      resumed := fun token rest hpending => ?_
      read := fun form left hread => ?_
      refused := fun reason left hrefused => ?_
      drained := ?_
      kept := fun step reason hfailure => ?_
      due := fun step reason hfailure hpending => ?_
      once := fun step reason hrefused hlexical => ?_ }
  · cases stream.lookahead <;> simp
  · rw [peek_of_pending hpending, advance_of_pending hpending]
    exact ⟨rfl, rfl, rfl⟩
  · obtain ⟨tree, hvalid, hvalue, hmoves⟩ := Reader.moves_tree hread
    exact ⟨tree, hvalid, hvalue, hmoves, hmoves.pending_eq⟩
  · obtain ⟨taken, hmoves, -⟩ := Reader.moves_readForm hrefused
    exact ⟨taken, hmoves, hmoves.pending_eq⟩
  · obtain ⟨trees, taken, hvalid, hvalues, hmoves, -, hend⟩ := Reader.moves_drain hstream
    exact ⟨trees, taken, hvalid, hvalues, hmoves, hend⟩
  · cases reports_perform stream step with
    | later hsame _ => exact .inl (hsame.trans hfailure)
    | now hbehind hreported _ => exact .inr (by rw [hreported, ← hbehind, hfailure])
  · rw [eq_of_pending_nil hpending, hfailure]
    cases step <;> rfl
  · cases reports_perform stream step with
    | later _ hother => exact absurd hlexical (hother reason hrefused)
    | @now reported hbehind hreported hleft =>
      have hreason : stream.failure = some reason := by rw [hbehind, ← hreported, hrefused]
      have horigin : origin.start.failure = some reason := by
        rcases hmoves.failure_eq with h | h
        · rw [← h, hreason]
        · rw [hreason] at h
          cases h
      refine ⟨horigin, fun steps next => ?_⟩
      rw [hleft, run_spent, perform_spent]

end TokenStream

end SmallLisp
