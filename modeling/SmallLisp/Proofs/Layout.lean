import Mathlib.Data.List.TakeWhile
import SmallLisp.Proofs.Joining

/-!
# Cutting a text loses nothing

A text is its tokens with separators between them, and **`Lexer.scan_lossless`** says so: put back
where they stood, the tokens spell the text. If the text cannot be cut to its end, they spell it up
to a double quote whose string is not closed, and how it fails to be closed is how the failure is
reported. Written one to a line, the tokens are cut out again as they were.

* `Lexer.Laid left tokens cs`: the characters are laid out as the tokens, in their order, with
  nothing but separators around them and with `left` behind. Each token is one of its kind
  (`Lexeme`) and ends where its kind makes it end (`Maximal`).
* `Lexer.Closes`, `Lexer.RunsOff`, `Lexer.Breaks`: what becomes of the characters behind an opening
  quote. It is one of the three (`Lexer.exists_halt`), and only one of them (`Lexer.inside_unique`).
* `Lexer.scanFrom_first`: what the lexer does up to the first token. The layout follows from it by
  induction on the text, one token at a time.
-/

namespace SmallLisp.Lexer

/-! ## Layouts -/

/-- What stands behind the token does not belong to it. An atom ends in front of a character that
cannot stand in one, and a remark at the end of its line. -/
def Maximal (token : Token) (behind : List Char) : Prop :=
  match token.kind with
  | .atom => Parted behind
  | .comment => ∀ c ∈ behind.head?, c = '\n'
  | _ => True

/-- The characters are the texts of the tokens, with separators around them and the rest left. -/
inductive Laid (left : List Char) : List Token → List Char → Prop
  /-- No more tokens in front of the rest. -/
  | done {separators : List Char} (blank : separators.all isSeparator = true) :
      Laid left [] (separators ++ left)
  /-- One more token in front. -/
  | token {separators behind : List Char} {token : Token} {tokens : List Token}
      (blank : separators.all isSeparator = true) (lexeme : Lexeme token)
      (maximal : Maximal token behind) : Laid left tokens behind →
      Laid left (token :: tokens) (separators ++ (token.text.toList ++ behind))

/-! ## Behind an opening quote -/

/-- The characters come to a closing quote. -/
def Closes (body : List Char) : Prop :=
  ∃ cs behind, Inside cs ∧ body = cs ++ '"' :: behind

/-- The characters run to the end of the text, up to a backslash that nothing but a last newline
stands behind. -/
def RunsOff (body : List Char) : Prop :=
  ∃ cs, Inside cs ∧ (body = cs ∨ body = cs ++ ['\\'] ∨ body = cs ++ ['\\', '\n'])

/-- The characters come to a backslash at the end of a line that is not the last one. -/
def Breaks (body : List Char) : Prop :=
  ∃ cs more, Inside cs ∧ more ≠ [] ∧ body = cs ++ '\\' :: '\n' :: more

/-- Nothing from here on can stand inside a string. -/
inductive Halt : List Char → Prop
  | ended : Halt []
  | quote (behind : List Char) : Halt ('"' :: behind)
  | lone : Halt ['\\']
  | newline (more : List Char) : Halt ('\\' :: '\n' :: more)

/-- Every row of characters can stand inside a string up to some point. -/
theorem exists_halt (body : List Char) : ∃ cs rest, Inside cs ∧ Halt rest ∧ body = cs ++ rest := by
  match body with
  | [] => exact ⟨[], [], .nil, .ended, rfl⟩
  | c :: body =>
    by_cases hquote : c = '"'
    · subst hquote
      exact ⟨[], _, .nil, .quote body, rfl⟩
    · by_cases hbackslash : c = '\\'
      · subst hbackslash
        match body with
        | [] => exact ⟨[], _, .nil, .lone, rfl⟩
        | d :: body =>
          by_cases hnewline : d = '\n'
          · subst hnewline
            exact ⟨[], _, .nil, .newline body, rfl⟩
          · obtain ⟨cs, rest, hcs, hrest, rfl⟩ := exists_halt body
            exact ⟨_, rest, .pair hnewline hcs, hrest, rfl⟩
      · obtain ⟨cs, rest, hcs, hrest, rfl⟩ := exists_halt body
        exact ⟨_, rest, .plain hquote hbackslash hcs, hrest, rfl⟩

theorem Inside.eq_nil_of_halt {cs rest : List Char} (hcs : Inside cs) (h : Halt (cs ++ rest)) :
    cs = [] := by
  cases hcs with
  | nil => rfl
  | @plain c cs quote backslash =>
    rw [List.cons_append] at h
    generalize cs ++ rest = row at h
    cases h with
    | quote => exact absurd rfl quote
    | lone | newline => exact absurd rfl backslash
  | @pair c cs newline =>
    rw [List.cons_append, List.cons_append] at h
    generalize cs ++ rest = row at h
    cases h
    exact absurd rfl newline

/-- That point is determined by the characters. -/
theorem inside_unique {cs ds rest rest' : List Char} (hcs : Inside cs) (hds : Inside ds)
    (hrest : Halt rest) (hrest' : Halt rest') (h : cs ++ rest = ds ++ rest') :
    cs = ds ∧ rest = rest' := by
  induction hcs generalizing ds with
  | nil =>
    rw [List.nil_append] at h
    obtain rfl := hds.eq_nil_of_halt (h ▸ hrest)
    exact ⟨rfl, h⟩
  | @plain c cs quote backslash hcs ih =>
    cases hds with
    | nil =>
      rw [List.nil_append] at h
      cases (hcs.plain quote backslash).eq_nil_of_halt (h ▸ hrest')
    | plain quote' backslash' hds =>
      rw [List.cons_append, List.cons_append, List.cons.injEq] at h
      obtain ⟨rfl, rfl⟩ := ih hds h.2
      exact ⟨by rw [h.1], rfl⟩
    | pair newline' =>
      rw [List.cons_append, List.cons_append, List.cons.injEq] at h
      exact absurd h.1 backslash
  | @pair c cs newline hcs ih =>
    cases hds with
    | nil =>
      rw [List.nil_append] at h
      cases (hcs.pair newline).eq_nil_of_halt (h ▸ hrest')
    | plain quote' backslash' =>
      simp only [List.cons_append, List.cons.injEq] at h
      exact absurd h.1.symm backslash'
    | pair newline' hds =>
      simp only [List.cons_append, List.cons.injEq, true_and] at h
      obtain ⟨rfl, rfl⟩ := ih hds h.2
      exact ⟨by rw [h.1], rfl⟩

/-- What becomes of the characters behind an opening quote is one of three things. -/
theorem closes_or (body : List Char) : Closes body ∨ RunsOff body ∨ Breaks body := by
  obtain ⟨cs, rest, hcs, hrest, rfl⟩ := exists_halt body
  cases hrest with
  | ended => exact .inr (.inl ⟨cs, hcs, .inl (List.append_nil cs)⟩)
  | quote behind => exact .inl ⟨cs, behind, hcs, rfl⟩
  | lone => exact .inr (.inl ⟨cs, hcs, .inr (.inl rfl)⟩)
  | newline more =>
    cases more with
    | nil => exact .inr (.inl ⟨cs, hcs, .inr (.inr rfl)⟩)
    | cons c more => exact .inr (.inr ⟨cs, c :: more, hcs, by simp, rfl⟩)

theorem RunsOff.exists_halt {body : List Char} (h : RunsOff body) :
    ∃ cs rest, Inside cs ∧ Halt rest ∧ body = cs ++ rest ∧
      (rest = [] ∨ rest = ['\\'] ∨ rest = ['\\', '\n']) := by
  obtain ⟨cs, hcs, rfl | rfl | rfl⟩ := h
  · exact ⟨body, [], hcs, .ended, (List.append_nil _).symm, .inl rfl⟩
  · exact ⟨cs, _, hcs, .lone, rfl, .inr (.inl rfl)⟩
  · exact ⟨cs, _, hcs, .newline [], rfl, .inr (.inr rfl)⟩

theorem RunsOff.not_closes {body : List Char} (h : RunsOff body) : ¬ Closes body := by
  obtain ⟨cs, rest, hcs, hrest, rfl, hends⟩ := h.exists_halt
  rintro ⟨ds, behind, hds, heq⟩
  obtain ⟨-, rfl⟩ := inside_unique hcs hds hrest (.quote behind) heq
  simp at hends

theorem RunsOff.not_breaks {body : List Char} (h : RunsOff body) : ¬ Breaks body := by
  obtain ⟨cs, rest, hcs, hrest, rfl, hends⟩ := h.exists_halt
  rintro ⟨ds, more, hds, hmore, heq⟩
  obtain ⟨-, rfl⟩ := inside_unique hcs hds hrest (.newline more) heq
  simp [hmore] at hends

theorem Breaks.not_closes {body : List Char} (h : Breaks body) : ¬ Closes body := by
  obtain ⟨cs, more, hcs, hmore, rfl⟩ := h
  rintro ⟨ds, behind, hds, heq⟩
  have hrest := (inside_unique hcs hds (.newline more) (.quote behind) heq).2
  simp at hrest

/-! ## The first token -/

/-- A string that runs off the end of the text is not finished. -/
theorem scanFrom_of_runsOff {body : List Char} (h : RunsOff body) (start : Nat)
    (seen : List Char) (position : Nat) :
    scanFrom (.string start seen) position body = ⟨[], some .endOfString⟩ := by
  obtain ⟨cs, rest, hcs, -, rfl, hends⟩ := h.exists_halt
  rw [scanFrom_string_append hcs]
  rcases hends with rfl | rfl | rfl <;> rfl

/-- A string that is broken is reported where it was opened. -/
theorem scanFrom_of_breaks {body : List Char} (h : Breaks body) (start : Nat)
    (seen : List Char) (position : Nat) :
    scanFrom (.string start seen) position body = ⟨[], some (.unexpectedChar start '"')⟩ := by
  obtain ⟨cs, more, hcs, hmore, rfl⟩ := h
  obtain ⟨c, more, rfl⟩ := List.exists_cons_of_ne_nil hmore
  rw [scanFrom_string_append hcs]
  rfl

/-- A remark goes on to the end of its line. -/
theorem scanFrom_comment {line behind : List Char} (hline : '\n' ∉ line)
    (hbehind : ∀ c ∈ behind.head?, c = '\n') (seen : List Char) (position : Nat) :
    scanFrom (.comment seen) position (line ++ behind) =
      (scanFrom .between (position + line.length) behind).after
        [token .comment (line.reverse ++ seen)] := by
  induction line generalizing seen position with
  | nil =>
    cases behind with
    | nil => rfl
    | cons c behind =>
      obtain rfl := hbehind c rfl
      rw [List.nil_append, scanFrom_separator (by decide)]
      exact scanFrom_cons rfl behind
  | cons c line ih =>
    rw [List.mem_cons, not_or] at hline
    have hstep : step (.comment seen) position c = .ok (.comment (c :: seen), []) := by
      rw [step, if_neg (Ne.symm hline.1)]
    rw [List.cons_append, scanFrom_cons hstep, ih hline.2, Scan.after_nil, List.reverse_cons,
      List.append_assoc, List.length_cons, Nat.add_right_comm, Nat.add_assoc]
    rfl

/-- A token that ends where its kind makes it end is cut out. -/
theorem scanFrom_lexeme {token : Token} {behind : List Char} (hlexeme : Lexeme token)
    (hmaximal : Maximal token behind) (position : Nat) :
    scanFrom .between position (token.text.toList ++ behind) =
      (scanFrom .between (position + token.text.toList.length) behind).after [token] := by
  obtain ⟨kind, text⟩ := token
  have htext {cs : List Char} (h : text.toList = cs) : String.ofList cs = text := by
    rw [← h, String.ofList_toList]
  cases kind with
  | comment =>
    obtain ⟨line, hline, hnewline⟩ := hlexeme
    have hstep : step .between position ';' = .ok (.comment [';'], []) := rfl
    have htoken : Lexer.token .comment (line.reverse ++ [';']) = ⟨.comment, text⟩ := by
      rw [Lexer.token, List.reverse_append, List.reverse_reverse, List.reverse_singleton,
        List.singleton_append, htext hline]
    dsimp only at hline ⊢
    rw [hline, List.cons_append, scanFrom_cons hstep, scanFrom_comment hnewline hmaximal, htoken,
      Scan.after_nil, List.length_cons, Nat.add_right_comm, Nat.add_assoc]
  | string =>
    obtain ⟨cs, hcs, hinside⟩ := hlexeme
    exact scanFrom_string hcs hinside position behind
  | atom => exact spells_atom hlexeme.1 hlexeme.2 position behind hmaximal
  | other name => exact hlexeme.elim
  | quote | opening | closing =>
    obtain ⟨c, hc, hsole⟩ := hlexeme
    dsimp only at hc ⊢
    rw [hc, List.singleton_append, scanFrom_sole hsole, htext hc]
    rfl

/-- A row of characters begins with those of a class, as many as there are. -/
theorem exists_span (p : Char → Bool) (cs : List Char) : ∃ row behind, cs = row ++ behind ∧
    (∀ c ∈ row, p c = true) ∧ ∀ c ∈ behind.head?, p c = false := by
  refine ⟨cs.takeWhile p, cs.dropWhile p, List.takeWhile_append_dropWhile.symm,
    fun c hc => List.mem_takeWhile_imp hc, fun c hc => ?_⟩
  have hhead := List.head?_dropWhile_not p cs
  rwa [Option.mem_def.1 hc] at hhead

/-- A character that is no separator begins a token, or a string that is not closed. -/
theorem exists_lexeme {c : Char} (hc : isSeparator c = false) (cs : List Char) :
    (∃ token behind, Lexeme token ∧ Maximal token behind ∧
      c :: cs = token.text.toList ++ behind) ∨
    c = '"' ∧ (RunsOff cs ∨ Breaks cs) := by
  by_cases hsemi : c = ';'
  · subst hsemi
    obtain ⟨line, behind, rfl, hline, hbehind⟩ := exists_span (· != '\n') cs
    refine .inl ⟨⟨.comment, .ofList (';' :: line)⟩, behind,
      ⟨line, String.toList_ofList, fun hmem => ?_⟩, fun d hd => ?_, by simp⟩
    · exact absurd (hline _ hmem) (by decide)
    · simpa using hbehind d hd
  by_cases hquote : c = '"'
  · subst hquote
    rcases closes_or cs with ⟨ds, behind, hds, rfl⟩ | hopen
    · exact .inl ⟨⟨.string, .ofList ('"' :: (ds ++ ['"']))⟩, behind,
        ⟨ds, String.toList_ofList, hds⟩, trivial, by simp⟩
    · exact .inr ⟨rfl, hopen⟩
  refine .inl ?_
  cases hsole : soleKind? c with
  | some kind =>
    refine ⟨token kind [c], cs, lexeme_sole hsole, ?_, by simp⟩
    unfold soleKind? at hsole
    split at hsole <;> cases hsole <;> trivial
  | none =>
    have hatom := isAtomChar_of_opening hc hsemi hquote hsole
    obtain ⟨row, behind, rfl, hrow, hbehind⟩ := exists_span isAtomChar cs
    refine ⟨⟨.atom, .ofList (c :: row)⟩, behind, ⟨by simp, ?_⟩, hbehind, by simp⟩
    simpa using ⟨hatom, hrow⟩

/-! ## The whole text -/

/-- How the cutting ends in front of what is left: there is nothing left, or a quote whose string is
not closed, for one of the two reasons. -/
inductive Stops (position : Nat) : List Char → Option ReadError → Prop
  | ended : Stops position [] none
  | runsOff {body : List Char} : RunsOff body → Stops position ('"' :: body) (some .endOfString)
  | breaks {body : List Char} : Breaks body →
      Stops position ('"' :: body) (some (.unexpectedChar position '"'))

/-- A string that is not closed stops the cutting at its quote. -/
theorem scanFrom_open {body : List Char} (h : RunsOff body ∨ Breaks body) (position : Nat) :
    (scanFrom .between position ('"' :: body)).tokens = [] ∧
      Stops position ('"' :: body) (scanFrom .between position ('"' :: body)).failure := by
  have hstep : step .between position '"' = .ok (.string position ['"'], []) := rfl
  rw [scanFrom_cons hstep, Scan.after_nil]
  rcases h with hruns | hbreaks
  · rw [scanFrom_of_runsOff hruns]
    exact ⟨rfl, .runsOff hruns⟩
  · rw [scanFrom_of_breaks hbreaks]
    exact ⟨rfl, .breaks hbreaks⟩

/-- A token of each kind has a character. -/
theorem Lexeme.ne_nil {token : Token} (h : Lexeme token) : token.text.toList ≠ [] := by
  obtain ⟨kind, text⟩ := token
  cases kind with
  | comment | string =>
    obtain ⟨cs, hcs, -⟩ := h
    simp [hcs]
  | atom => exact h.1
  | other name => exact h.elim
  | quote | opening | closing =>
    obtain ⟨c, hc, -⟩ := h
    simp [hc]

/-- From between two tokens, characters are laid out as the tokens that are cut out of them, up to
where the cutting stops. -/
theorem laid_scanFrom (position : Nat) (cs : List Char) :
    ∃ before left, cs = before ++ left ∧
      Laid left (scanFrom .between position cs).tokens cs ∧
      Stops (position + before.length) left (scanFrom .between position cs).failure := by
  induction hlength : cs.length using Nat.strongRecOn generalizing position cs with
  | _ length ih =>
    obtain ⟨separators, rest, rfl, hseparators, hrest⟩ := exists_span isSeparator cs
    have hblank : separators.all isSeparator = true := List.all_eq_true.2 hseparators
    rw [scanFrom_separators hblank]
    cases rest with
    | nil => exact ⟨separators, [], rfl, .done hblank, .ended⟩
    | cons c rest =>
      rcases exists_lexeme (hrest c rfl) rest with
        ⟨token, behind, hlexeme, hmaximal, hsplit⟩ | ⟨rfl, hopen⟩
      · have hpos := List.length_pos_iff.2 hlexeme.ne_nil
        rw [hsplit] at hlength ⊢
        rw [scanFrom_lexeme hlexeme hmaximal]
        have hlt : behind.length < length := by
          rw [← hlength, List.length_append, List.length_append]
          omega
        obtain ⟨before, left, rfl, hlaid, hstops⟩ :=
          ih behind.length hlt (position + separators.length + token.text.toList.length) behind rfl
        refine ⟨separators ++ (token.text.toList ++ before), left, by simp,
          .token hblank hlexeme hmaximal hlaid, ?_⟩
        rw [List.length_append, List.length_append, ← Nat.add_assoc, ← Nat.add_assoc]
        exact hstops
      · obtain ⟨htokens, hstops⟩ := scanFrom_open hopen (position + separators.length)
        refine ⟨separators, '"' :: rest, rfl, ?_, hstops⟩
        rw [htokens]
        exact .done hblank

/-! ## Cutting again -/

theorem scan_lexeme {token : Token} (h : Lexeme token) : scan token.text = ⟨[token], none⟩ := by
  have hmaximal : Maximal token [] := by
    unfold Maximal
    split <;> simp [Parted]
  have hscan := scanFrom_lexeme h hmaximal 0
  rw [List.append_nil] at hscan
  exact hscan

/-- Tokens that are written one to a line are cut out as they are. -/
theorem scan_lines {tokens : List Token} (h : ∀ token ∈ tokens, Lexeme token) :
    scan ("\n".intercalate (tokens.map (·.text))) = ⟨tokens, none⟩ := by
  induction tokens with
  | nil => rfl
  | cons token tokens ih =>
    obtain ⟨htoken, htokens⟩ := List.forall_mem_cons.1 h
    have hscan := scan_lexeme htoken
    cases tokens with
    | nil =>
      rw [List.map_singleton, String.intercalate_singleton]
      exact hscan
    | cons next tokens =>
      rw [List.map_cons, List.map_cons, String.intercalate_cons_cons, ← List.map_cons,
        scan_join (by rw [hscan]), hscan, ih htokens]
      rfl

/-! ## The statement -/

/-- What cutting a text comes to. -/
structure Lossless (source : String) : Prop where
  /-- No token is empty, and each is one of its kind. -/
  tokens : ∀ token ∈ (scan source).tokens, token.text ≠ "" ∧ Lexeme token
  /-- If the text is cut to its end, it is laid out as the tokens. -/
  whole : (scan source).failure = none → Laid [] (scan source).tokens source.toList
  /-- Otherwise the part of it is that stands in front of a double quote, and no string that is
  closed begins there. It is reported that the text ends inside the string if the string runs off
  the end of the text, and that the quote is out of place if the string breaks in front of it. -/
  stuck : ∀ reason, (scan source).failure = some reason →
    ∃ before body, source.toList = before ++ '"' :: body ∧
      Laid ('"' :: body) (scan source).tokens source.toList ∧ ¬ Closes body ∧
      (reason = .endOfString ∨ reason = .unexpectedChar before.length '"') ∧
      (reason = .endOfString ↔ RunsOff body) ∧
      (reason = .unexpectedChar before.length '"' ↔ Breaks body)
  /-- Written one to a line, the tokens are cut out again as they are. -/
  stable : scan ("\n".intercalate ((scan source).tokens.map (·.text))) =
    ⟨(scan source).tokens, none⟩

/-- **Cutting a text is lossless and stable.** -/
theorem scan_lossless (source : String) : Lossless source := by
  obtain ⟨before, left, hsplit, hlaid, hstops⟩ := laid_scanFrom 0 source.toList
  rw [Nat.zero_add] at hstops
  change Laid left (scan source).tokens source.toList at hlaid
  change Stops before.length left (scan source).failure at hstops
  refine ⟨fun token htoken => ?_, fun hfailure => ?_, fun reason hfailure => ?_,
    scan_lines (lexeme_of_mem_scan source)⟩
  · have hlexeme := lexeme_of_mem_scan source token htoken
    refine ⟨fun hempty => hlexeme.ne_nil ?_, hlexeme⟩
    rw [hempty]
    rfl
  · rw [hfailure] at hstops
    cases hstops
    exact hlaid
  · rw [hfailure] at hstops
    cases hstops with
    | @runsOff body hruns =>
      exact ⟨before, body, hsplit, hlaid, hruns.not_closes, .inl rfl,
        iff_of_true rfl hruns, iff_of_false (by simp) hruns.not_breaks⟩
    | @breaks body hbreaks =>
      exact ⟨before, body, hsplit, hlaid, hbreaks.not_closes, .inr rfl,
        iff_of_false (by simp) fun hruns => hruns.not_breaks hbreaks, iff_of_true rfl hbreaks⟩

end SmallLisp.Lexer
