import SmallLisp.Fault.Report
import SmallLisp.Proofs.Grammar
import SmallLisp.Proofs.Inversion
import SmallLisp.Proofs.Lexeme

/-!
# The reader accepts exactly its grammar

Two statements tie the reader to the trees of `SmallLisp.Proofs.Grammar`:

* **complete** (`readFrom_tokens`): on the tokens of a valid tree, whatever constructs are open and
  whatever comes behind, the reader delivers the value of the tree and goes on behind it.
* **sound** (`readFrom_sound`): whenever the reader completes a form, the tokens that it has taken
  are those of a valid tree with that value. The invariant is `Explains taken stack`: the open
  constructs stand for the tokens taken so far. `accounts_accept` is its step.

Both are about one form. From them follows what reading everything does (`readText_split`): it reads
off trees as long as the tokens begin with one, and fails if it is left with tokens that begin with
none.
-/

namespace SmallLisp

/-! ## Leaves -/

namespace Atom

theorem splitSign_of_isNumeral {digits : List Char} (h : isNumeral digits = true) :
    splitSign digits = (false, digits) := by
  cases digits with
  | nil => rfl
  | cons c cs =>
    have hc : Text.isDecimal c = true := by
      simp only [isNumeral, List.all_cons, Bool.and_eq_true] at h
      exact h.2.1
    have hne : c ≠ '-' := by
      rintro rfl
      exact absurd hc (by decide)
    unfold splitSign
    split
    · rename_i heq
      exact absurd (List.cons.inj heq).1 hne
    · rfl

/-- An atom is too long when its size, without a sign, is a numeral that is too long. -/
theorem tooLong_iff (text : String) :
    TooLong text ↔ isNumeral (splitSign (withoutNewline text.toList)).2 = true ∧
      Numeral.maxDigits < (splitSign (withoutNewline text.toList)).2.length := by
  constructor
  · rintro ⟨digits, htext | htext, hnumeral, hlong⟩
    · rw [htext, splitSign_of_isNumeral hnumeral]
      exact ⟨hnumeral, hlong⟩
    · rw [htext]
      exact ⟨hnumeral, hlong⟩
  · rintro ⟨hnumeral, hlong⟩
    refine ⟨_, ?_, hnumeral, hlong⟩
    unfold splitSign
    split
    · exact .inr (by assumption)
    · exact .inl rfl

/-- The characters denote a number that is not read exactly if they are a numeral too long. -/
theorem readNumber?_eq_error_iff (text : String) (reason : ReadError) :
    readNumber? text.toList = some (.error reason) ↔ TooLong text ∧ reason = .longNumeral := by
  rw [tooLong_iff]
  rcases hsplit : splitSign (withoutNewline text.toList) with ⟨negative, size⟩
  simp only [readNumber?, hsplit]
  by_cases hnumeral : isNumeral size = true
  · unfold Numeral.readDigits?
    by_cases hshort : size.length ≤ Numeral.maxDigits
    · have hnot : ¬ Numeral.maxDigits < size.length := by omega
      simp [hnumeral, hshort, hnot]
    · have hlong : Numeral.maxDigits < size.length := by omega
      simp [hnumeral, hshort, hlong, eq_comm]
  · simp [hnumeral]

/-- None of the three literals is a number. -/
theorem not_tooLong_literal {text : String} (h : text = "nil" ∨ text = "true" ∨ text = "false") :
    ¬ TooLong text := by
  rw [tooLong_iff]
  rintro ⟨hnumeral, -⟩
  rcases h with rfl | rfl | rfl <;> exact absurd hnumeral (by decide)

/-- Reading an atom fails exactly on a whole number that is too long. -/
theorem read_eq_error_iff (text : String) (reason : ReadError) :
    read text = .error reason ↔ TooLong text ∧ reason = .longNumeral := by
  by_cases hlit : text = "nil" ∨ text = "true" ∨ text = "false"
  · have hshort := not_tooLong_literal hlit
    rcases hlit with rfl | rfl | rfl <;> simp [read, hshort]
  · rw [← readNumber?_eq_error_iff]
    simp only [not_or] at hlit
    simp only [read, hlit.1, hlit.2.1, hlit.2.2, if_false]
    cases hnum : readNumber? text.toList with
    | some number => cases number <;> simp [Except.map]
    | none => cases keywordName? text.toList <;> simp

/-- An atom that is not too long is read as its value. -/
theorem read_eq_value {text : String} (h : ¬ TooLong text) : read text = .ok (value text) := by
  cases hread : read text with
  | error reason => exact absurd ((read_eq_error_iff text reason).1 hread).1 h
  | ok form => simp [value, hread, Except.toOption]

/-- An atom that is read is not too long, and it is read as its value. -/
theorem eq_value_of_read {text : String} {form : Value} (h : read text = .ok form) :
    ¬ TooLong text ∧ form = value text := by
  refine ⟨?_, by simp [value, h, Except.toOption]⟩
  intro hlong
  have herror := (read_eq_error_iff text .longNumeral).2 ⟨hlong, rfl⟩
  rw [h] at herror
  cases herror

end Atom

namespace Text

/-- Escapes can be resolved if they are known ones. -/
theorem unescape_of_escaped {cs : List Char} (h : Escaped cs) :
    unescape cs = .ok (unescaped cs) := by
  suffices hok : ∃ ds, unescape cs = .ok ds by
    obtain ⟨ds, hds⟩ := hok
    simp [unescaped, hds, Except.toOption]
  induction h with
  | nil => exact ⟨[], rfl⟩
  | plain backslash _ ih =>
    obtain ⟨ds, hds⟩ := ih
    exact ⟨_, by rw [unescape_plain backslash, hds]; rfl⟩
  | pair known _ ih =>
    obtain ⟨ds, hds⟩ := ih
    exact ⟨_, by rw [unescape_escaped known, hds]; rfl⟩

/-- Escapes that can be resolved are known ones. -/
theorem escaped_of_unescape {cs ds : List Char} (h : unescape cs = .ok ds) : Escaped cs := by
  induction cs using unescape.induct generalizing ds with
  | case1 => exact .nil
  | case2 => simp [unescape] at h
  | case3 c hc => exact .plain hc .nil
  | case4 d cs hd ih =>
    rw [unescape_escaped hd] at h
    obtain ⟨es, hes, -⟩ := exists_of_map_eq_ok h
    exact .pair hd (ih hes)
  | case5 d cs hd => simp [unescape, hd] at h
  | case6 c d cs hc ih =>
    rw [unescape_plain hc] at h
    obtain ⟨es, hes, -⟩ := exists_of_map_eq_ok h
    exact .plain hc (ih hes)

/-- What stands between the quotes of a string never ends inside an escape. -/
theorem unescape_ne_dangling {cs : List Char} (h : Lexer.Inside cs) :
    unescape cs ≠ .error .dangling := by
  induction h with
  | nil => simp [unescape]
  | plain _ backslash _ ih =>
    rw [unescape_plain backslash]
    exact fun hmap => ih (eq_error_of_map_eq_error hmap)
  | @pair c cs _ _ ih =>
    by_cases hc : c = '"' ∨ c = '\\'
    · rw [unescape_escaped hc]
      exact fun hmap => ih (eq_error_of_map_eq_error hmap)
    · simp [unescape, hc]

end Text

/-- The reason is one for which a text is not cut to its end. -/
inductive ReadError.IsLexical : ReadError → Prop
  | endOfString : IsLexical .endOfString
  | unexpectedChar (position : Nat) (c : Char) : IsLexical (.unexpectedChar position c)

/-- The lexer reports no other reasons. -/
theorem Lexer.lexical_of_scanFrom (mode : Mode) (position : Nat) (cs : List Char)
    {reason : ReadError} (h : (scanFrom mode position cs).failure = some reason) :
    reason.IsLexical := by
  induction cs generalizing mode position with
  | nil => cases mode <;> cases h <;> exact .endOfString
  | cons c cs ih =>
    rw [scanFrom] at h
    cases hstep : step mode position c with
    | ok result =>
      rw [hstep] at h
      exact ih _ _ h
    | error reason' =>
      rw [hstep] at h
      cases h
      cases mode with
      | broken start =>
        cases hstep
        exact .unexpectedChar start _
      | between => cases hstep
      | comment | atom | escape =>
        simp only [step] at hstep
        split at hstep <;> cases hstep
      | string =>
        simp only [step] at hstep
        split at hstep
        · cases hstep
        · split at hstep <;> cases hstep

/-- A text that cannot be cut to its end is malformed. -/
theorem Lexer.kind_of_scanFrom (mode : Mode) (position : Nat) (cs : List Char) {reason : ReadError}
    (h : (scanFrom mode position cs).failure = some reason) : reason.kind = .malformed := by
  cases lexical_of_scanFrom mode position cs h <;> rfl

namespace Reader

open SmallLisp.Tree

theorem stringValue_of_escaped {text : String} (h : Text.Escaped text.toList.tail.dropLast) :
    stringValue text = .ok (String.ofList (Text.unescaped text.toList.tail.dropLast)) := by
  rw [stringValue, Text.unescape_of_escaped h]

theorem escaped_of_stringValue {text content : String} (h : stringValue text = .ok content) :
    Text.Escaped text.toList.tail.dropLast ∧
      content = String.ofList (Text.unescaped text.toList.tail.dropLast) := by
  have hescaped : Text.Escaped text.toList.tail.dropLast := by
    unfold stringValue at h
    split at h
    · exact Text.escaped_of_unescape (by assumption)
    · cases h
    · cases h
  rw [stringValue_of_escaped hescaped] at h
  exact ⟨hescaped, (Except.ok.inj h).symm⟩

theorem ofFlat?_of_even {flat : List Value} (h : flat.length % 2 = 0) :
    Entries.ofFlat? flat = some (Entries.ofFlat flat) := by
  have hsome : (Entries.ofFlat? flat).isSome = true := by
    rw [Entries.ofFlat?, Option.isSome_map, Entries.pairUp?_isSome_iff]
    exact h
  unfold Entries.ofFlat
  rw [Option.eq_some_of_isSome hsome, Option.getD_some]

theorem even_of_ofFlat? {flat : List Value} {entries : Entries}
    (h : Entries.ofFlat? flat = some entries) : flat.length % 2 = 0 := by
  rw [← Entries.pairUp?_isSome_iff, ← Option.isSome_map (f := Entries.ofPairs)]
  show (Entries.ofFlat? flat).isSome = true
  rw [h]
  rfl

/-- Items are collected exactly if they are even in number between curly brackets. -/
theorem collect_eq_ok_iff (bracket : Bracket) (items : List Value) (form : Value) :
    collect bracket items = .ok form ↔
      (bracket = .curly → items.length % 2 = 0) ∧ form = bracket.collection items := by
  cases bracket with
  | round => simp [collect, Bracket.collection, eq_comm]
  | square => simp [collect, Bracket.collection, eq_comm]
  | curly =>
    simp only [collect, Bracket.collection, true_implies]
    constructor
    · intro h
      split at h
      · rename_i entries hentries
        have heven := even_of_ofFlat? hentries
        rw [ofFlat?_of_even heven] at hentries
        rw [Option.some.inj hentries]
        exact ⟨heven, (Except.ok.inj h).symm⟩
      · cases h
    · rintro ⟨heven, rfl⟩
      rw [ofFlat?_of_even heven]

/-! ## Complete -/

/-- Goes on reading one form behind a token. -/
def resume (failure : Option ReadError) (rest : List Token) :
    Progress → Except ReadError Value × TokenStream
  | .complete form => (.ok form, ⟨none, rest, failure⟩)
  | .more stack => readFrom stack rest failure

/-- What one token does to the reading of a form. -/
theorem readFrom_cons (stack : List Pending) (token : Token) (rest : List Token)
    (failure : Option ReadError) :
    readFrom stack (token :: rest) failure =
      match accept token stack with
      | .ok progress => resume failure rest progress
      | .error reason => (.error reason, ⟨none, rest, failure⟩) := by
  rw [readFrom]
  rcases accept token stack with reason | (form | stack) <;> rfl

mutual

/-- On the tokens of a valid tree the reader delivers its value to the open constructs. -/
theorem readFrom_tokens : ∀ (tree : Tree) (_ : tree.Valid) (stack : List Pending)
    (rest : List Token) (failure : Option ReadError),
    readFrom stack (tree.tokens ++ rest) failure =
      resume failure rest (deliver tree.value stack)
  | .atom text, h, stack, rest, failure => by
    simp only [tokens, List.singleton_append, value]
    rw [readFrom_cons, accept, Atom.read_eq_value h]
    rfl
  | .string text, h, stack, rest, failure => by
    simp only [tokens, List.singleton_append, value]
    rw [readFrom_cons, accept, stringValue_of_escaped h]
    rfl
  | .remark text, h, stack, rest, failure => by
    simp only [tokens, List.singleton_append, value]
    rw [readFrom_cons, accept]
    rfl
  | .quoted mark tree, h, stack, rest, failure => by
    simp only [tokens, List.cons_append, value]
    rw [readFrom_cons, accept]
    show readFrom (.quote :: stack) (tree.tokens ++ rest) failure = _
    rw [readFrom_tokens tree h, deliver]
  | .group bracket o c trees, h, stack, rest, failure => by
    obtain ⟨heven, hvalid⟩ := h
    simp only [tokens, List.cons_append, List.append_assoc, value]
    rw [readFrom_cons, accept]
    show readFrom (.group bracket o [] :: stack) (tokensAll trees ++ _) failure = _
    have hcollect : collect bracket (values trees) = .ok (bracket.collection (values trees)) := by
      rw [collect_eq_ok_iff, length_values]
      exact ⟨heven, rfl⟩
    have haccept : accept ⟨.closing bracket, c⟩
        (.group bracket o (values trees).reverse :: stack) =
          .ok (deliver (bracket.collection (values trees)) stack) := by
      simp only [accept, close, if_true, List.reverse_reverse, hcollect]
      rfl
    rw [readFrom_tokensAll trees hvalid, List.append_nil, List.nil_append, readFrom_cons, haccept]

/-- Between brackets the values of valid trees are put to the items so far. -/
theorem readFrom_tokensAll : ∀ (trees : List Tree) (_ : ValidAll trees) (bracket : Bracket)
    (o : String) (items : List Value) (stack : List Pending) (rest : List Token)
    (failure : Option ReadError),
    readFrom (.group bracket o items :: stack) (tokensAll trees ++ rest) failure =
      readFrom (.group bracket o ((values trees).reverse ++ items) :: stack) rest failure
  | [], _, bracket, o, items, stack, rest, failure => by
    simp only [tokensAll, values, List.nil_append, List.reverse_nil]
  | tree :: trees, h, bracket, o, items, stack, rest, failure => by
    simp only [tokensAll, values, List.append_assoc, List.reverse_cons]
    rw [readFrom_tokens tree h.1, deliver]
    show readFrom (.group bracket o (tree.value :: items) :: stack) _ failure = _
    rw [readFrom_tokensAll trees h.2, List.singleton_append]

end

/-! ## Sound -/

/-- The open constructs stand for the tokens taken so far. -/
inductive Explains : List Token → List Pending → Prop
  /-- Nothing is open, and nothing was taken. -/
  | nil : Explains [] []
  /-- The last token is a quotation mark. -/
  | quote {taken : List Token} {stack : List Pending} (mark : String) :
      Explains taken stack → Explains (taken ++ [⟨.quote, mark⟩]) (.quote :: stack)
  /-- An opening bracket, and behind it the trees whose values are the items so far. -/
  | group {taken : List Token} {stack : List Pending} (bracket : Bracket) (o : String)
      {trees : List Tree} (valid : ValidAll trees) :
      Explains taken stack → Explains (taken ++ ⟨.opening bracket, o⟩ :: tokensAll trees)
        (.group bracket o (values trees).reverse :: stack)

/-- Where the reader stands is explained by the tokens taken: a complete form is the value of a
valid tree with exactly these tokens. -/
def Accounts (taken : List Token) : Progress → Prop
  | .complete form => ∃ tree : Tree, tree.Valid ∧ tree.tokens = taken ∧ tree.value = form
  | .more stack => Explains taken stack

/-- Delivering the value of a valid tree accounts for its tokens. -/
theorem accounts_deliver {taken : List Token} {stack : List Pending} (h : Explains taken stack)
    (tree : Tree) (hvalid : tree.Valid) :
    Accounts (taken ++ tree.tokens) (deliver tree.value stack) := by
  induction h generalizing tree with
  | nil => exact ⟨tree, hvalid, rfl, rfl⟩
  | @quote taken stack mark _ ih =>
    rw [deliver, List.append_assoc]
    exact ih (.quoted mark tree) hvalid
  | @group taken stack bracket o trees valid hstack _ =>
    rw [deliver]
    have hgroup := Explains.group bracket o
      ((validAll_append trees [tree]).2 ⟨valid, hvalid, trivial⟩) hstack
    rw [tokensAll_append, values_append, List.reverse_append] at hgroup
    simpa [tokensAll, values, Accounts] using hgroup

/-- A token that is accepted keeps the account. -/
theorem accounts_accept {taken : List Token} {stack : List Pending} (h : Explains taken stack)
    {token : Token} {progress : Progress} (haccept : accept token stack = .ok progress) :
    Accounts (taken ++ [token]) progress := by
  obtain ⟨kind, text⟩ := token
  cases kind with
  | atom =>
    obtain ⟨form, hread, rfl⟩ := exists_of_map_eq_ok haccept
    obtain ⟨hshort, rfl⟩ := Atom.eq_value_of_read hread
    exact accounts_deliver h (.atom text) hshort
  | string =>
    obtain ⟨content, hread, rfl⟩ := exists_of_map_eq_ok haccept
    obtain ⟨hescaped, rfl⟩ := escaped_of_stringValue hread
    exact accounts_deliver h (.string text) hescaped
  | comment =>
    cases haccept
    exact accounts_deliver h (.remark text) trivial
  | quote =>
    cases haccept
    exact .quote text h
  | opening bracket =>
    cases haccept
    have hvalid : ValidAll [] := trivial
    exact .group bracket text hvalid h
  | closing bracket =>
    simp only [accept] at haccept
    cases h with
    | nil => cases haccept
    | quote => cases haccept
    | @group taken stack innermost o trees valid hstack =>
      simp only [close] at haccept
      split at haccept
      · rename_i hbracket
        subst hbracket
        rw [List.reverse_reverse] at haccept
        obtain ⟨form, hcollect, hprogress⟩ := exists_of_bind_eq_ok haccept
        obtain ⟨heven, rfl⟩ := (collect_eq_ok_iff _ _ _).1 hcollect
        cases hprogress
        rw [length_values] at heven
        have hdeliver := accounts_deliver hstack (.group innermost o text trees) ⟨heven, valid⟩
        simpa [tokens, value] using hdeliver
      · cases haccept
  | other name => cases haccept

/-- A form that the reader completes is the value of a valid tree, whose tokens are those that the
reader has taken. -/
theorem readFrom_sound {stack : List Pending} {taken tokens : List Token}
    {failure : Option ReadError} {form : Value} {left : TokenStream}
    (hstack : Explains taken stack) (h : readFrom stack tokens failure = (.ok form, left)) :
    ∃ (tree : Tree) (rest : List Token), tree.Valid ∧ tree.value = form ∧
      taken ++ tokens = tree.tokens ++ rest ∧ left = ⟨none, rest, failure⟩ := by
  induction tokens generalizing stack taken with
  | nil => simp [readFrom] at h
  | cons token tokens ih =>
    rw [readFrom_cons] at h
    cases haccept : accept token stack with
    | error reason => simp [haccept] at h
    | ok progress =>
      have haccounts := accounts_accept hstack haccept
      simp only [haccept] at h
      cases progress with
      | complete form' =>
        obtain ⟨tree, hvalid, htokens, hvalue⟩ := haccounts
        cases h
        exact ⟨tree, tokens, hvalid, hvalue, by rw [htokens]; simp, rfl⟩
      | more stack' =>
        obtain ⟨tree, rest, hvalid, hvalue, htokens, hleft⟩ := ih haccounts h
        exact ⟨tree, rest, hvalid, hvalue, by rw [← htokens]; simp, hleft⟩

/-- Every form that reading everything delivers is the value of a valid tree, whose tokens are among
those that were read. -/
theorem drainFrom_sound {stack : List Pending} {taken tokens : List Token}
    {failure : Option ReadError} {form : Value} (hstack : Explains taken stack)
    (h : form ∈ (drainFrom stack tokens failure).1.forms) :
    ∃ tree : Tree, tree.Valid ∧ tree.value = form ∧
      ∀ token ∈ tree.tokens, token ∈ taken ++ tokens := by
  induction tokens generalizing stack taken with
  | nil => cases stack <;> simp [drainFrom] at h
  | cons token tokens ih =>
    have htail : ∀ {taken' : List Token} {stack' : List Pending}, Explains taken' stack' →
        (∀ t ∈ taken', t ∈ taken ++ [token]) →
        form ∈ (drainFrom stack' tokens failure).1.forms →
        ∃ tree : Tree, tree.Valid ∧ tree.value = form ∧
          ∀ t ∈ tree.tokens, t ∈ taken ++ token :: tokens := by
      intro taken' stack' hstack' htaken hmem
      obtain ⟨tree, hvalid, hvalue, htokens⟩ := ih hstack' hmem
      refine ⟨tree, hvalid, hvalue, fun t ht => ?_⟩
      have hsplit : taken ++ token :: tokens = taken ++ [token] ++ tokens := by simp
      rw [hsplit, List.mem_append]
      exact (List.mem_append.1 (htokens t ht)).imp_left (htaken t)
    rw [drainFrom_cons] at h
    cases haccept : accept token stack with
    | error reason => simp [haccept] at h
    | ok progress =>
      have haccounts := accounts_accept hstack haccept
      simp only [haccept] at h
      cases progress with
      | more stack' => exact htail haccounts (fun _ ht => ht) h
      | complete form' =>
        obtain ⟨tree, hvalid, htokens, hvalue⟩ := haccounts
        rcases List.mem_cons.1 h with rfl | h
        · refine ⟨tree, hvalid, hvalue, fun t ht => ?_⟩
          rw [htokens] at ht
          simpa [or_assoc] using List.mem_append_left tokens ht
        · exact htail .nil (by simp) h

/-! ## What can be wrong -/

/-- The reasons for which tokens cut out of a text are refused: their order, their escapes, or a
whole number among them that is too long. -/
def Refusal (row : List Token) (reason : ReadError) : Prop :=
  reason.kind = .malformed ∨
    reason = .longNumeral ∧ ∃ token ∈ row, token.kind = .atom ∧ Atom.TooLong token.text

theorem Refusal.cons {row : List Token} {reason : ReadError} (token : Token)
    (h : Refusal row reason) : Refusal (token :: row) reason := by
  rcases h with hkind | ⟨hlong, t, ht, htoken⟩
  · exact .inl hkind
  · exact .inr ⟨hlong, t, List.mem_cons_of_mem _ ht, htoken⟩

/-- A refusal is reported as it is. -/
theorem Refusal.interrupting_eq {row : List Token} {reason : ReadError}
    (h : Refusal row reason) : interrupting reason = reason := by
  cases reason <;> first | rfl | (rcases h with h | ⟨h, -⟩ <;> cases h)

theorem refusal_atEnd (row : List Token) (stack : List Pending) : Refusal row (atEnd stack) := by
  rcases stack with _ | ⟨_ | _, _⟩ <;> exact .inl rfl

/-- A string token never ends inside an escape. -/
theorem refusal_stringValue {text : String} {reason : ReadError}
    (hlexeme : Lexer.Lexeme ⟨.string, text⟩) (h : stringValue text = .error reason) :
    reason.kind = .malformed := by
  obtain ⟨cs, htext, hinside⟩ := hlexeme
  have hcs : text.toList.tail.dropLast = cs := by
    rw [htext, List.tail_cons, List.dropLast_concat]
  have hne := Text.unescape_ne_dangling hinside
  unfold stringValue at h
  rw [hcs] at h
  split at h
  · cases h
  · cases h
    rfl
  · exact absurd (by assumption) hne

theorem refusal_close {bracket : Bracket} {text : String} {stack : List Pending}
    {reason : ReadError} (h : close bracket text stack = .error reason) :
    reason.kind = .malformed := by
  rcases stack with _ | ⟨_ | ⟨innermost, o, items⟩, stack⟩
  · cases h
    rfl
  · cases h
    rfl
  · simp only [close] at h
    split at h
    · rcases error_or_exists_of_bind_eq_error h with hcollect | ⟨form, -, hdeliver⟩
      · unfold collect at hcollect
        split at hcollect
        · cases hcollect
        · cases hcollect
        · split at hcollect <;> cases hcollect
          rfl
      · cases hdeliver
    · cases h
      rfl

/-- What the end of the tokens means is not the lexer's reason. -/
theorem not_lexical_atEnd (stack : List Pending) : ¬ (atEnd stack).IsLexical := by
  rcases stack with _ | ⟨_ | _, _⟩ <;> rintro ⟨⟩

/-- No token is refused for a reason of the lexer. -/
theorem not_lexical_of_accept {token : Token} {stack : List Pending} {reason : ReadError}
    (h : accept token stack = .error reason) : ¬ reason.IsLexical := by
  obtain ⟨kind, text⟩ := token
  cases kind with
  | atom =>
    have hread : Atom.read text = .error reason := eq_error_of_map_eq_error h
    rw [((Atom.read_eq_error_iff _ _).1 hread).2]
    rintro ⟨⟩
  | string =>
    have hread : stringValue text = .error reason := eq_error_of_map_eq_error h
    unfold stringValue at hread
    split at hread <;> cases hread <;> rintro ⟨⟩
  | closing bracket =>
    rcases stack with _ | ⟨_ | ⟨innermost, opening, items⟩, stack⟩
    · cases h
      rintro ⟨⟩
    · cases h
      rintro ⟨⟩
    · simp only [accept, close] at h
      split at h
      · unfold collect at h
        cases bracket with
        | round | square => cases h
        | curly =>
          dsimp only at h
          split at h <;> cases h
          rintro ⟨⟩
      · cases h
        rintro ⟨⟩
  | comment | quote | opening => cases h
  | other name =>
    cases h
    rintro ⟨⟩

/-- A token cut out of a text is refused for one of these reasons. -/
theorem refusal_accept {token : Token} {stack : List Pending} {reason : ReadError}
    (hlexeme : Lexer.Lexeme token) (h : accept token stack = .error reason) :
    Refusal [token] reason := by
  obtain ⟨kind, text⟩ := token
  cases kind with
  | atom =>
    have hread : Atom.read text = .error reason := eq_error_of_map_eq_error h
    obtain ⟨hlong, rfl⟩ := (Atom.read_eq_error_iff _ _).1 hread
    exact .inr ⟨rfl, _, List.mem_singleton.2 rfl, rfl, hlong⟩
  | string =>
    have hread : stringValue text = .error reason := eq_error_of_map_eq_error h
    exact .inl (refusal_stringValue hlexeme hread)
  | closing bracket => exact .inl (refusal_close h)
  | comment | quote | opening => cases h
  | other name => exact hlexeme.elim

/-- Tokens cut out of a text, with nothing wrong behind them, are refused for one of these
reasons. -/
theorem refusal_readFrom {stack : List Pending} {row : List Token} {reason : ReadError}
    {left : TokenStream} (hlexeme : ∀ token ∈ row, Lexer.Lexeme token)
    (h : readFrom stack row none = (.error reason, left)) : Refusal row reason := by
  induction row generalizing stack with
  | nil =>
    cases h
    exact refusal_atEnd [] stack
  | cons token row ih =>
    rw [readFrom_cons] at h
    have hrow : ∀ token ∈ row, Lexer.Lexeme token :=
      fun t ht => hlexeme t (List.mem_cons_of_mem _ ht)
    cases haccept : accept token stack with
    | error reason' =>
      rw [haccept] at h
      cases h
      rcases refusal_accept (hlexeme token List.mem_cons_self) haccept with hkind | ⟨hlong, t, ht⟩
      · exact .inl hkind
      · rw [List.mem_singleton] at ht
        exact .inr ⟨hlong, t, by rw [ht.1]; exact List.mem_cons_self, ht.2⟩
    | ok progress =>
      rw [haccept] at h
      cases progress with
      | complete form => cases h
      | more stack' => exact (ih hrow h).cons token

/-- Tokens cut out of a text are read, or refused for one of these reasons, if what is wrong behind
them is malformed. -/
theorem refusal_drainFrom {stack : List Pending} {row : List Token} {failure : Option ReadError}
    {reason : ReadError} (hlexeme : ∀ token ∈ row, Lexer.Lexeme token)
    (hfailure : ∀ behind, failure = some behind → behind.kind = .malformed)
    (h : (drainFrom stack row failure).1.failure = some reason) : Refusal row reason := by
  induction row generalizing stack with
  | nil =>
    rcases stack with _ | ⟨construct, stack⟩
    · exact .inl (hfailure reason h)
    · cases failure with
      | none =>
        cases h
        exact refusal_atEnd [] _
      | some behind =>
        cases h
        exact .inl (hfailure _ rfl)
  | cons token row ih =>
    rw [List.forall_mem_cons] at hlexeme
    rw [drainFrom_cons] at h
    cases haccept : accept token stack with
    | error reason' =>
      have hrefusal := refusal_accept hlexeme.1 haccept
      rw [haccept] at h
      cases h
      rw [hrefusal.interrupting_eq]
      rcases hrefusal with hkind | ⟨hlong, t, ht, htoken⟩
      · exact .inl hkind
      · rw [List.mem_singleton] at ht
        exact .inr ⟨hlong, t, ht ▸ List.mem_cons_self, htoken⟩
    | ok progress =>
      rw [haccept] at h
      cases progress with
      | more stack' => exact (ih hlexeme.2 h).cons token
      | complete form => exact (ih hlexeme.2 h).cons token

/-! ## All forms -/

/-- A form that is delivered and completes nothing lies in a construct that stays open. -/
theorem deliver_ne_more_nil (form : Value) (stack : List Pending) :
    deliver form stack ≠ .more [] := by
  induction stack generalizing form with
  | nil => simp [deliver]
  | cons construct stack ih =>
    cases construct with
    | quote => exact ih _
    | group => simp [deliver]

/-- A token that is accepted completes a form or leaves something open. -/
theorem accept_ne_more_nil (token : Token) (stack : List Pending) :
    accept token stack ≠ .ok (.more []) := by
  obtain ⟨kind, text⟩ := token
  cases kind with
  | atom =>
    simp only [accept]
    cases Atom.read text <;> simp [Except.map, deliver_ne_more_nil]
  | string =>
    simp only [accept]
    cases stringValue text <;> simp [Except.map, deliver_ne_more_nil]
  | closing bracket =>
    simp only [accept]
    unfold close
    split
    · split
      · cases collect bracket _ <;>
          simp [bind, Except.bind, pure, Except.pure, deliver_ne_more_nil]
      · simp
    · simp
  | comment => simp [accept, deliver_ne_more_nil]
  | quote | opening | other => simp [accept]

/-- Reading everything reads one form and then everything behind it. -/
theorem drainFrom_eq {stack : List Pending} {row : List Token}
    (h : stack ≠ [] ∨ row ≠ []) (failure : Option ReadError)
    (hfailure : failure ≠ some .danglingEscape) :
    drainFrom stack row failure =
      match readFrom stack row failure with
      | (.ok form, left) =>
        (⟨form :: (drainFrom [] left.rest failure).1.forms,
          (drainFrom [] left.rest failure).1.failure⟩, (drainFrom [] left.rest failure).2)
      | (.error reason, left) => (⟨[], some (interrupting reason)⟩, left) := by
  induction row generalizing stack with
  | nil =>
    have hne : stack ≠ [] := by simpa using h
    obtain ⟨construct, constructs, rfl⟩ := List.exists_cons_of_ne_nil hne
    have hreport : interrupting (failure.getD (atEnd (construct :: constructs))) =
        failure.getD (atEnd (construct :: constructs)) := by
      rcases failure with _ | reason
      · exact (refusal_atEnd [] _).interrupting_eq
      · cases reason <;> first | rfl | exact absurd rfl hfailure
    simp only [drainFrom, readFrom, hreport]
  | cons token row ih =>
    rw [drainFrom_cons, readFrom_cons]
    cases haccept : accept token stack with
    | error reason => rfl
    | ok progress =>
      cases progress with
      | complete form => rfl
      | more stack' =>
        simp only [resume]
        by_cases hboth : stack' ≠ [] ∨ row ≠ []
        · exact ih hboth
        · have hstack : stack' = [] := by simp_all
          rw [hstack] at haccept
          exact absurd haccept (accept_ne_more_nil token stack)

/-- Behind valid trees, reading everything has their values and goes on. -/
theorem drainFrom_tokensAll {trees : List Tree} (hvalid : ValidAll trees) (rest : List Token)
    (failure : Option ReadError) (hfailure : failure ≠ some .danglingEscape) :
    (drainFrom [] (tokensAll trees ++ rest) failure).1 =
      ⟨values trees ++ (drainFrom [] rest failure).1.forms,
        (drainFrom [] rest failure).1.failure⟩ := by
  induction trees with
  | nil => rfl
  | cons tree trees ih =>
    have hne : tokensAll (tree :: trees) ++ rest ≠ [] := by
      simp [tokensAll, tree.tokens_ne_nil]
    rw [drainFrom_eq (.inr hne) failure hfailure, tokensAll, List.append_assoc,
      readFrom_tokens tree hvalid.1, deliver]
    simp only [resume, values, List.cons_append]
    rw [ih hvalid.2]

/-- Tokens that are stuck give no form and are refused. -/
theorem drainFrom_stuck {row : List Token} (hstuck : Stuck row)
    (hlexeme : ∀ token ∈ row, Lexer.Lexeme token) :
    ∃ reason, (drainFrom [] row none).1 = ⟨[], some reason⟩ ∧ Refusal row reason := by
  rw [drainFrom_eq (.inr hstuck.1) none (by simp)]
  rcases hread : readFrom [] row none with ⟨reason | form, left⟩
  · have hrefusal := refusal_readFrom hlexeme hread
    exact ⟨reason, by simp only [hrefusal.interrupting_eq], hrefusal⟩
  · obtain ⟨tree, rest, hvalid, -, htokens, -⟩ := readFrom_sound .nil hread
    exact absurd ⟨rest, htokens.symm⟩ (hstuck.2 tree hvalid)

/-! ## Texts -/

/-- What reading a text does when its tokens are a derived row with a rest behind it that is stuck
or empty. -/
theorem readText_split {source : String} (hlex : (Lexer.scan source).failure = none)
    {trees : List Tree} {rest : List Token} (hvalid : ValidAll trees)
    (hrow : (Lexer.scan source).tokens = tokensAll trees ++ rest) :
    (rest = [] → readText source = ⟨values trees, none⟩) ∧
      (Stuck rest → ∃ reason, readText source = ⟨values trees, some reason⟩ ∧
        Refusal rest reason) := by
  have hread : readText source = ⟨values trees ++ (drainFrom [] rest none).1.forms,
      (drainFrom [] rest none).1.failure⟩ := by
    rw [← drainFrom_tokensAll hvalid rest none (by simp), ← hrow, ← hlex]
    rfl
  constructor
  · rintro rfl
    rw [hread]
    simp [drainFrom]
  · intro hstuck
    have hlexeme : ∀ token ∈ rest, Lexer.Lexeme token := by
      intro token htoken
      apply Lexer.lexeme_of_mem_scan source token
      rw [hrow]
      exact List.mem_append_right _ htoken
    obtain ⟨reason, hdrain, hrefusal⟩ := drainFrom_stuck hstuck hlexeme
    exact ⟨reason, by rw [hread, hdrain]; simp, hrefusal⟩

/-- A text that is not read is malformed, or a whole number in it is too long. -/
theorem refusal_of_readForms {source : String} {reason : ReadError}
    (h : readForms source = .error reason) : Refusal (Lexer.scan source).tokens reason := by
  have hfailure : (readText source).failure = some reason := by
    unfold readForms at h
    split at h
    · cases h
    · rename_i forms reason' hread
      cases h
      exact congrArg Reading.failure hread
  exact @refusal_drainFrom [] _ _ _ (Lexer.lexeme_of_mem_scan source)
    (fun behind => Lexer.kind_of_scanFrom .between 0 source.toList) hfailure

/-- Every form of a text is the value of a valid tree, whose tokens stand in the text. -/
theorem exists_tree_of_mem_readText {source : String} {form : Value}
    (h : form ∈ (readText source).forms) :
    ∃ tree : Tree, tree.Valid ∧ tree.value = form ∧
      ∀ token ∈ tree.tokens, token ∈ (Lexer.scan source).tokens :=
  drainFrom_sound .nil h

/-- **The reader accepts exactly its grammar.** Let a text be cut into tokens to its end.

* Nothing is wrong with it exactly if its tokens have a derivation.
* There is at most one derivation, and the forms of the text are the values of its trees.
* Otherwise the tokens are in exactly one way a derived row with a stuck one behind it. The forms
  of the text are the values of the trees of the derived row, and the text is refused, as malformed
  or because of a whole number in the stuck row that is too long. -/
theorem readText_grammar (source : String) (hlex : (Lexer.scan source).failure = none) :
    ((readText source).failure = none ↔
      ∃ trees, Derives (Lexer.scan source).tokens trees) ∧
    (∀ trees, Derives (Lexer.scan source).tokens trees →
      (readText source).forms = values trees ∧
        ∀ others, Derives (Lexer.scan source).tokens others → others = trees) ∧
    ((¬ ∃ trees, Derives (Lexer.scan source).tokens trees) →
      ∃ derived stuck, ((Lexer.scan source).tokens = derived ++ stuck ∧
        (∃ trees, Derives derived trees ∧ (readText source).forms = values trees) ∧ Stuck stuck ∧
        (∃ reason, (readText source).failure = some reason ∧ Refusal stuck reason)) ∧
        ∀ derived' stuck', (Lexer.scan source).tokens = derived' ++ stuck' →
          (∃ trees, Derives derived' trees) → Stuck stuck' →
            derived' = derived ∧ stuck' = stuck) := by
  have hderived : ∀ trees, Derives (Lexer.scan source).tokens trees →
      readText source = ⟨values trees, none⟩ := by
    rintro trees ⟨hvalid, htokens⟩
    exact (readText_split hlex hvalid (by rw [htokens, List.append_nil])).1 rfl
  obtain ⟨trees, rest, hvalid, hrow, hrest⟩ := exists_split (Lexer.scan source).tokens
  refine ⟨⟨?_, ?_⟩, ?_, ?_⟩
  · intro hfailure
    rcases hrest with rfl | hstuck
    · exact ⟨trees, hvalid, by rw [hrow, List.append_nil]⟩
    · obtain ⟨reason, hread, -⟩ := (readText_split hlex hvalid hrow).2 hstuck
      rw [hread] at hfailure
      cases hfailure
  · rintro ⟨trees', htrees'⟩
    rw [hderived trees' htrees']
  · intro trees' htrees'
    exact ⟨by rw [hderived trees' htrees'], fun others hothers => hothers.unique htrees'⟩
  · intro hnone
    rcases hrest with rfl | hstuck
    · exact absurd ⟨trees, hvalid, by rw [hrow, List.append_nil]⟩ hnone
    · obtain ⟨reason, hread, hrefusal⟩ := (readText_split hlex hvalid hrow).2 hstuck
      refine ⟨tokensAll trees, rest, ⟨hrow, ⟨trees, ⟨hvalid, rfl⟩, by rw [hread]⟩, hstuck, reason,
        by rw [hread], hrefusal⟩, ?_⟩
      rintro derived' stuck' hrow' ⟨trees', hvalid', rfl⟩ hstuck'
      have hunique := split_unique hvalid' hvalid hstuck' hstuck (hrow'.symm.trans hrow)
      exact ⟨by rw [hunique.1], hunique.2⟩

/-- Behind a symbol and a quoted symbol stands a list that is not closed: the text is refused there,
and has the forms before it. -/
theorem readText_grammar_unclosed :
    (Lexer.scan "x 'y (z").failure = none ∧
    (readText "x 'y (z").failure ≠ none ∧
    ∃ derived stuck, (Lexer.scan "x 'y (z").tokens = derived ++ stuck ∧
      (∃ trees, Derives derived trees ∧ (readText "x 'y (z").forms = values trees) ∧
      Stuck stuck := by
  have hlex : (Lexer.scan "x 'y (z").failure = none := by decide
  have hfailure : ¬ (readText "x 'y (z").failure = none := by decide
  obtain ⟨haccepts, -, hrefuses⟩ := readText_grammar "x 'y (z" hlex
  have hnone := fun hderives => hfailure (haccepts.2 hderives)
  obtain ⟨derived, stuck, ⟨hrow, hforms, hstuck, -⟩, -⟩ := hrefuses hnone
  exact ⟨hlex, hfailure, derived, stuck, hrow, hforms, hstuck⟩

end Reader

end SmallLisp
