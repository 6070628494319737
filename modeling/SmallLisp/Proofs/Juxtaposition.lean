import SmallLisp.Proofs.Joining

/-!
# Reading one text behind another

A text that is read to its end can be put in front of any text whatever, with a newline between
them, and disturbs nothing in it (**`Reader.readText_behind`**): the forms of both come in order,
and what was wrong with the second text is still wrong with it, in the same words. Only the position
of a character that starts no token is counted from further back.

The second text may be wrong anywhere, so that it has no derivation to speak of. What carries over
is how its tokens are read, with whatever is wrong behind them: `Reader.drainFrom_shift`.
-/

namespace SmallLisp.Reader

/-! ## Where a text stands -/

/-- The end of the tokens is the end of them wherever they stand. -/
theorem atEnd_shift (offset : Nat) (stack : List Pending) :
    (atEnd stack).shift offset = atEnd stack := by
  rcases stack with _ | ⟨_ | _, _⟩ <;> rfl

/-- A token is refused for itself, and not for the place where it stands. -/
theorem shift_of_accept {token : Token} {stack : List Pending} {reason : ReadError}
    (h : accept token stack = .error reason) (offset : Nat) : reason.shift offset = reason := by
  have hlexical := not_lexical_of_accept h
  cases reason with
  | unexpectedChar position c => exact absurd (.unexpectedChar position c) hlexical
  | _ => rfl

/-- An interruption is one wherever it happens. -/
theorem interrupting_shift {reason : ReadError} {offset : Nat} (h : reason.shift offset = reason) :
    (interrupting reason).shift offset = interrupting reason := by
  cases reason with
  | danglingEscape => rfl
  | _ => exact h

/-- What is wrong behind the tokens shows only if they end, and is reported as it is. -/
theorem drainFrom_shift (offset : Nat) (stack : List Pending) (row : List Token)
    (failure : Option ReadError) :
    (drainFrom stack row (failure.map (·.shift offset))).1 =
      ⟨(drainFrom stack row failure).1.forms,
        (drainFrom stack row failure).1.failure.map (·.shift offset)⟩ := by
  induction row generalizing stack with
  | nil =>
    cases stack with
    | nil => rfl
    | cons construct stack =>
      cases failure with
      | none =>
        show Reading.mk [] (some (atEnd _)) = ⟨[], some ((atEnd _).shift offset)⟩
        rw [atEnd_shift]
      | some reason => rfl
  | cons token row ih =>
    rw [drainFrom_cons, drainFrom_cons]
    cases haccept : accept token stack with
    | error reason =>
      have hsame := interrupting_shift (shift_of_accept haccept offset)
      simp only [Option.map_some, hsame]
    | ok progress =>
      cases progress with
      | more stack' => exact ih stack'
      | complete form =>
        simp only [ih []]

/-! ## Two texts -/

/-- **Reading is compositional.** If a text is read to its end, then behind it and a newline every
text has the forms that it has alone, and the same is wrong with it; the position of a character
that starts no token is counted from the beginning of the first text. -/
theorem readText_behind {first : String} {forms : List Value}
    (hfirst : readForms first = .ok forms) (second : String) :
    readText (first ++ "\n" ++ second) =
      ⟨forms ++ (readText second).forms,
        (readText second).failure.map (·.shift (first.toList.length + 1))⟩ := by
  obtain ⟨hlex, trees, ⟨hvalid, htokens⟩, rfl⟩ := derives_of_readForms hfirst
  have hscan := Lexer.scan_join hlex second
  have hrow : (Lexer.scan (first ++ "\n" ++ second)).tokens =
      Tree.tokensAll trees ++ (Lexer.scan second).tokens := by
    rw [hscan, htokens]
    rfl
  have hbehind : (Lexer.scan (first ++ "\n" ++ second)).failure =
      (Lexer.scan second).failure.map (·.shift (first.toList.length + 1)) := by
    rw [hscan]
    rfl
  have hfailure : (Lexer.scan (first ++ "\n" ++ second)).failure ≠ some .danglingEscape := by
    intro h
    have hkind := Lexer.kind_of_scanFrom .between 0 (first ++ "\n" ++ second).toList h
    cases hkind
  calc readText (first ++ "\n" ++ second)
      = (drainFrom [] (Tree.tokensAll trees ++ (Lexer.scan second).tokens)
          (Lexer.scan (first ++ "\n" ++ second)).failure).1 := by rw [← hrow]; rfl
    _ = ⟨Tree.values trees ++ (drainFrom [] (Lexer.scan second).tokens
            (Lexer.scan (first ++ "\n" ++ second)).failure).1.forms,
          (drainFrom [] (Lexer.scan second).tokens
            (Lexer.scan (first ++ "\n" ++ second)).failure).1.failure⟩ :=
        drainFrom_tokensAll hvalid _ _ hfailure
    _ = _ := by
      rw [hbehind, drainFrom_shift]
      rfl

/-- The first text ends in a remark in which a string is opened, and a backslash at the end of a
line breaks a string of the second one: the fault stands where it stood, with the first text and the
newline in front of it. -/
theorem readText_behind_remark :
    let first := "(def x 1) ; a \"quote"
    let second := "x \"broken\\\nstring\""
    (readText second).failure = some (.unexpectedChar 2 '"') ∧
      ∃ forms, readForms first = .ok forms ∧
        readText (first ++ "\n" ++ second) =
          ⟨forms ++ (readText second).forms, some (.unexpectedChar 23 '"')⟩ := by
  intro first second
  obtain ⟨hread, hsecond, hlength⟩ : (readForms first).toOption.isSome = true ∧
      (readText second).failure = some (.unexpectedChar 2 '"') ∧ first.toList.length = 20 := by
    decide
  cases hfirst : readForms first with
  | error reason =>
    rw [hfirst] at hread
    cases hread
  | ok forms =>
    refine ⟨hsecond, forms, rfl, ?_⟩
    rw [readText_behind hfirst, hsecond, hlength]
    rfl

end SmallLisp.Reader
