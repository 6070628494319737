import SmallLisp.Token.Lexer

/-!
# What a token cut out of a text looks like

The lexer is a machine of modes, and a mode says nothing about the text behind it. This file says
which texts a token of each kind can carry, without speaking of modes:

* `Inside cs`: the characters can stand between the quotes of a string token. A backslash takes the
  next character with it, that character is not a newline, and no other quote stands there.
* `Lexeme token`: the text of the token is one of its kind. A remark is a semicolon and the rest of
  a line, an atom is a row of atom characters, a string is `Inside` between two quotes, and every
  other token is the one character that it is named for.
* `Mode.Begun mode`: what the lexer has seen of the token at hand can still become one. This is the
  invariant, and `begun_step` is its step.
* `lexeme_of_mem_scan`: every token of every text is a `Lexeme`, also of a text that cannot be cut
  to its end.
-/

namespace SmallLisp.Lexer

/-! ## Texts of tokens -/

/-- The characters can stand between the quotes of a string token. -/
inductive Inside : List Char → Prop
  /-- Nothing at all. -/
  | nil : Inside []
  /-- A character that is neither a quote nor a backslash. -/
  | plain {c : Char} {cs : List Char} (quote : c ≠ '"') (backslash : c ≠ '\\') :
      Inside cs → Inside (c :: cs)
  /-- A backslash and the character that it takes with it. -/
  | pair {c : Char} {cs : List Char} (newline : c ≠ '\n') : Inside cs → Inside ('\\' :: c :: cs)

/-- What can stand inside a string can be continued by what can. -/
theorem Inside.append {cs ds : List Char} (hcs : Inside cs) (hds : Inside ds) :
    Inside (cs ++ ds) := by
  induction hcs with
  | nil => exact hds
  | plain quote backslash _ ih => exact .plain quote backslash ih
  | pair newline _ ih => exact .pair newline ih

/-- The text of the token is one of its kind. -/
def Lexeme (token : Token) : Prop :=
  match token.kind with
  | .comment => ∃ cs, token.text.toList = ';' :: cs ∧ '\n' ∉ cs
  | .string => ∃ cs, token.text.toList = '"' :: (cs ++ ['"']) ∧ Inside cs
  | .atom => token.text.toList ≠ [] ∧ ∀ c ∈ token.text.toList, isAtomChar c = true
  | .other _ => False
  | kind => ∃ c, token.text.toList = [c] ∧ soleKind? c = some kind

/-! ## The invariant of the modes -/

/-- The characters seen, from the last one back to the first, can become a token. -/
def Mode.Begun : Mode → Prop
  | .between => True
  | .comment seen => ∃ cs, seen.reverse = ';' :: cs ∧ '\n' ∉ cs
  | .atom seen => seen ≠ [] ∧ ∀ c ∈ seen, isAtomChar c = true
  | .string _ seen => ∃ cs, seen.reverse = '"' :: cs ∧ Inside cs
  | .escape _ seen => ∃ cs, seen.reverse = '"' :: (cs ++ ['\\']) ∧ Inside cs
  | .broken _ => True

@[simp] theorem toList_token_text (kind : TokenKind) (seen : List Char) :
    (token kind seen).text.toList = seen.reverse := by
  simp [token]

/-- A finished remark is one. -/
theorem lexeme_comment {seen : List Char} (h : Mode.Begun (.comment seen)) :
    Lexeme (token .comment seen) := by
  obtain ⟨cs, hseen, hcs⟩ := h
  exact ⟨cs, by rw [toList_token_text, hseen], hcs⟩

/-- A finished atom is one. -/
theorem lexeme_atom {seen : List Char} (h : Mode.Begun (.atom seen)) :
    Lexeme (token .atom seen) := by
  obtain ⟨hne, hseen⟩ := h
  refine ⟨by simpa using hne, ?_⟩
  intro c hc
  rw [toList_token_text, List.mem_reverse] at hc
  exact hseen c hc

/-- A string that meets its closing quote is one. -/
theorem lexeme_string {start : Nat} {seen : List Char} (h : Mode.Begun (.string start seen)) :
    Lexeme (token .string ('"' :: seen)) := by
  obtain ⟨cs, hseen, hcs⟩ := h
  exact ⟨cs, by rw [toList_token_text, List.reverse_cons, hseen]; rfl, hcs⟩

/-- A character that is a token by itself never makes a remark, a string, an atom or a token of an
unknown kind. -/
theorem lexeme_sole {c : Char} {kind : TokenKind} (h : soleKind? c = some kind) :
    Lexeme (token kind [c]) := by
  have htext : (token kind [c]).text.toList = [c] := by simp
  unfold soleKind? at h
  split at h <;> cases h <;> exact ⟨_, htext, rfl⟩

/-- A character that begins an atom can stand in one. -/
theorem isAtomChar_of_opening {c : Char} (hsep : isSeparator c = false) (hsemi : c ≠ ';')
    (hquote : c ≠ '"') (hsole : soleKind? c = none) : isAtomChar c = true := by
  have hdelim : isDelimiter c = false := by
    unfold soleKind? at hsole
    unfold isDelimiter
    split at hsole <;> simp_all
  simp [isAtomChar, hsep, hdelim]

/-- What begins between two tokens can become one, and what is complete at once is one. -/
theorem begun_opening (position : Nat) (c : Char) :
    (opening position c).1.Begun ∧ ∀ token ∈ (opening position c).2, Lexeme token := by
  unfold opening
  split
  · exact ⟨trivial, by simp⟩
  · rename_i hsep
    split
    · rename_i hsemi
      exact ⟨⟨[], by simp [hsemi], by simp⟩, by simp⟩
    · rename_i hsemi
      split
      · rename_i hquote
        exact ⟨⟨[], by simp [hquote], .nil⟩, by simp⟩
      · rename_i hquote
        cases hsole : soleKind? c with
        | some kind => exact ⟨trivial, by simpa using lexeme_sole hsole⟩
        | none =>
          have hatom := isAtomChar_of_opening (by simpa using hsep) hsemi hquote hsole
          exact ⟨⟨by simp, by simpa using hatom⟩, by simp⟩

/-- One character keeps the invariant, and every token that it completes is a lexeme. -/
theorem begun_step {mode next : Mode} {position : Nat} {c : Char} {emitted : List Token}
    (hmode : mode.Begun) (h : step mode position c = .ok (next, emitted)) :
    next.Begun ∧ ∀ token ∈ emitted, Lexeme token := by
  cases mode with
  | between =>
    have hopening := begun_opening position c
    simp only [step, Except.ok.injEq] at h
    rw [h] at hopening
    exact hopening
  | comment seen =>
    simp only [step] at h
    split at h <;> cases h
    · exact ⟨trivial, by simpa using lexeme_comment hmode⟩
    · rename_i hnewline
      obtain ⟨cs, hseen, hcs⟩ := hmode
      refine ⟨⟨cs ++ [c], by simp [hseen], ?_⟩, by simp⟩
      simp [hcs, Ne.symm hnewline]
  | atom seen =>
    simp only [step] at h
    split at h <;> cases h
    · rename_i hatom
      refine ⟨⟨by simp, ?_⟩, by simp⟩
      intro d hd
      rcases List.mem_cons.1 hd with rfl | hd
      · exact hatom
      · exact hmode.2 d hd
    · have hopening := begun_opening position c
      refine ⟨hopening.1, ?_⟩
      intro token htoken
      rcases List.mem_cons.1 htoken with rfl | htoken
      · exact lexeme_atom hmode
      · exact hopening.2 token htoken
  | string start seen =>
    simp only [step] at h
    split at h
    · rename_i hquote
      cases h
      subst hquote
      exact ⟨trivial, by simpa using lexeme_string hmode⟩
    · rename_i hquote
      obtain ⟨cs, hseen, hcs⟩ := hmode
      split at h <;> cases h
      · rename_i hbackslash
        exact ⟨⟨cs, by simp [hseen, hbackslash], hcs⟩, by simp⟩
      · rename_i hbackslash
        exact ⟨⟨cs ++ [c], by simp [hseen], hcs.append (.plain hquote hbackslash .nil)⟩, by simp⟩
  | escape start seen =>
    simp only [step] at h
    split at h <;> cases h
    · exact ⟨trivial, by simp⟩
    · rename_i hnewline
      obtain ⟨cs, hseen, hcs⟩ := hmode
      exact ⟨⟨cs ++ ['\\', c], by simp [hseen], hcs.append (.pair hnewline .nil)⟩, by simp⟩
  | broken start => cases h

/-- A token that only the end of the text completes is a lexeme. -/
theorem lexeme_of_mem_finish {mode : Mode} (hmode : mode.Begun) :
    ∀ token ∈ (finish mode).tokens, Lexeme token := by
  cases mode with
  | comment seen => simpa [finish] using lexeme_comment hmode
  | atom seen => simpa [finish] using lexeme_atom hmode
  | between | string | escape | broken => simp [finish]

/-- Every token cut from a mode that keeps the invariant is a lexeme. -/
theorem lexeme_of_mem_scanFrom {mode : Mode} (hmode : mode.Begun) (position : Nat)
    (cs : List Char) : ∀ token ∈ (scanFrom mode position cs).tokens, Lexeme token := by
  induction cs generalizing mode position with
  | nil => exact lexeme_of_mem_finish hmode
  | cons c cs ih =>
    unfold scanFrom
    cases hstep : step mode position c with
    | error reason => simp
    | ok result =>
      obtain ⟨next, emitted⟩ := result
      obtain ⟨hnext, hemitted⟩ := begun_step hmode hstep
      intro token htoken
      rcases List.mem_append.1 htoken with htoken | htoken
      · exact hemitted token htoken
      · exact ih hnext (position + 1) token htoken

/-- **Every token of a text is a lexeme.** -/
theorem lexeme_of_mem_scan (source : String) :
    ∀ token ∈ (scan source).tokens, Lexeme token := by
  have hbetween : Mode.Begun .between := trivial
  exact lexeme_of_mem_scanFrom hbetween 0 source.toList

end SmallLisp.Lexer
