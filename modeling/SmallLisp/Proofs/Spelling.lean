import SmallLisp.Proofs.Lexeme
import SmallLisp.Proofs.NumberText
import SmallLisp.Printer

/-!
# Texts that are cut as they were put together

A text that is put together out of the texts of tokens is cut into these tokens again, if no atom
runs into another one.

* `Lexer.Parted rest`: what stands behind a text does not lengthen an atom at its end.
* `Lexer.Spells cs tokens`: wherever the characters stand, with something parted behind them, the
  lexer cuts them into the tokens and goes on between two tokens.
* `spells_atom`, `spells_int`, `spells_float`, `spells_quoted`: one token.
* `Spells.separated`, `Spells.enclosed`, `SpellsRow.intercalate`: several of them, between
  separators and between brackets.

The statement is about every rest, so that texts can be put together without looking into them. Only
an atom needs the rest to be parted; a bracket can be followed by anything, and so `enclosed` asks
nothing of what stands behind the opening bracket.
-/

namespace SmallLisp.Lexer

/-- The characters do not begin with one that can stand in an atom. -/
def Parted (rest : List Char) : Prop :=
  ∀ c ∈ rest.head?, isAtomChar c = false

/-- The characters are cut into the tokens, whatever parted characters stand behind them. -/
def Spells (cs : List Char) (tokens : List Token) : Prop :=
  ∀ position rest, Parted rest →
    scanFrom .between position (cs ++ rest) =
      (scanFrom .between (position + cs.length) rest).after tokens

theorem parted_nil : Parted [] := by
  intro c hc
  cases hc

theorem parted_cons {c : Char} (hc : isAtomChar c = false) (rest : List Char) :
    Parted (c :: rest) := by
  intro d hd
  cases hd
  exact hc

theorem Scan.after_after (scan : Scan) (first second : List Token) :
    (scan.after second).after first = scan.after (first ++ second) := by
  simp [Scan.after]

theorem Scan.after_nil (scan : Scan) : scan.after [] = scan := rfl

/-! ## Characters between tokens -/

theorem scanFrom_cons {mode next : Mode} {position : Nat} {c : Char} {emitted : List Token}
    (h : step mode position c = .ok (next, emitted)) (rest : List Char) :
    scanFrom mode position (c :: rest) = (scanFrom next (position + 1) rest).after emitted := by
  rw [scanFrom, h]

/-- A separator makes no token. -/
theorem scanFrom_separator {c : Char} (hc : isSeparator c = true) (position : Nat)
    (rest : List Char) :
    scanFrom .between position (c :: rest) = scanFrom .between (position + 1) rest := by
  have hstep : step .between position c = .ok (.between, []) := by
    simp [step, opening, hc]
  rw [scanFrom_cons hstep, Scan.after_nil]

/-- A character that is a token by itself makes that token, whatever stands behind it. -/
theorem scanFrom_sole {c : Char} {kind : TokenKind} (hc : soleKind? c = some kind) (position : Nat)
    (rest : List Char) :
    scanFrom .between position (c :: rest) =
      (scanFrom .between (position + 1) rest).after [⟨kind, String.ofList [c]⟩] := by
  have hstep : step .between position c = .ok (.between, [token kind [c]]) := by
    unfold soleKind? at hc
    split at hc <;> cases hc <;> rfl
  rw [scanFrom_cons hstep]
  rfl

/-! ## Atoms -/

theorem opening_atom {c : Char} (hc : isAtomChar c = true) (position : Nat) :
    opening position c = (.atom [c], []) := by
  obtain ⟨hseparator, hdelimiter⟩ := Bool.and_eq_true_iff.1 hc
  rw [Bool.not_eq_true'] at hseparator hdelimiter
  have hne : ∀ d, isDelimiter d = true → c ≠ d := by
    rintro d hd rfl
    rw [hd] at hdelimiter
    cases hdelimiter
  have hsole : soleKind? c = none := by
    unfold soleKind?
    split <;> first | rfl | exact absurd rfl (hne _ (by decide))
  unfold opening
  rw [if_neg (by rw [hseparator]; decide), if_neg (hne ';' (by decide)),
    if_neg (hne '"' (by decide)), hsole]

/-- A row of atom characters with nothing behind it that belongs to it ends the atom at hand. -/
theorem scanFrom_atom {cs rest : List Char} (hcs : ∀ c ∈ cs, isAtomChar c = true)
    (hrest : Parted rest) (seen : List Char) (position : Nat) :
    scanFrom (.atom seen) position (cs ++ rest) =
      (scanFrom .between (position + cs.length) rest).after [token .atom (cs.reverse ++ seen)] := by
  induction cs generalizing seen position with
  | nil =>
    cases rest with
    | nil => rfl
    | cons c rest =>
      have hc : isAtomChar c = false := hrest c rfl
      have hstep : step (.atom seen) position c =
          .ok ((opening position c).1, token .atom seen :: (opening position c).2) := by
        simp [step, hc]
      rw [List.nil_append, scanFrom_cons hstep, scanFrom_cons rfl, Scan.after_after]
      rfl
  | cons c cs ih =>
    obtain ⟨hc, hcs⟩ := List.forall_mem_cons.1 hcs
    have hstep : step (.atom seen) position c = .ok (.atom (c :: seen), []) := by
      simp [step, hc]
    rw [List.cons_append, scanFrom_cons hstep, ih hcs, Scan.after_nil, List.reverse_cons,
      List.append_assoc, List.length_cons, Nat.add_right_comm]
    rfl

theorem spells_atom {text : String} (hne : text.toList ≠ [])
    (hall : ∀ c ∈ text.toList, isAtomChar c = true) : Spells text.toList [⟨.atom, text⟩] := by
  intro position rest hrest
  obtain ⟨c, cs, hcs⟩ := List.exists_cons_of_ne_nil hne
  have htext : token .atom (cs.reverse ++ [c]) = ⟨.atom, text⟩ := by
    rw [token, List.reverse_append, List.reverse_reverse, List.reverse_singleton,
      List.singleton_append, ← hcs, String.ofList_toList]
  rw [hcs] at hall ⊢
  obtain ⟨hc, hall⟩ := List.forall_mem_cons.1 hall
  have hstep : step .between position c = .ok (.atom [c], []) :=
    congrArg Except.ok (opening_atom hc position)
  rw [List.cons_append, scanFrom_cons hstep, scanFrom_atom hall hrest, Scan.after_nil, htext,
    List.length_cons, Nat.add_right_comm]
  rfl

/-! ## Numbers -/

theorem spells_int (n : Int) : Spells (toString n).toList [⟨.atom, toString n⟩] := by
  have hdigits : ∀ c ∈ Nat.toDigits 10 n.natAbs, isAtomChar c = true :=
    Numeral.forall_mem_toDigits (by decide)
  refine spells_atom ?_ ?_
  · rw [Numeral.toList_toString_int]
    intro hnil
    have hmem := List.head_mem (Nat.toDigits_ne_nil (n := n.natAbs) (b := 10))
    exact List.not_mem_nil (hnil ▸ (Atom.mem_withSign _).2 (.inr hmem))
  · intro c hc
    rw [Numeral.toList_toString_int, Atom.mem_withSign] at hc
    rcases hc with ⟨-, rfl⟩ | hc
    · decide
    · exact hdigits c hc

theorem spells_float (x : Binary64) : Spells x.text.toList [⟨.atom, x.text⟩] := by
  apply spells_atom x.toList_text_ne_nil
  cases x with
  | nan => exact List.all_eq_true.1 (by decide)
  | infinite negative => cases negative <;> exact List.all_eq_true.1 (by decide)
  | finite negative rank =>
    exact Binary64.forall_mem_text_finite (by decide) (by decide) negative rank

/-! ## Strings -/

/-- What can stand inside a string is taken in. -/
theorem scanFrom_string_append {cs : List Char} (hcs : Inside cs) (start : Nat)
    (seen rest : List Char) (position : Nat) :
    scanFrom (.string start seen) position (cs ++ rest) =
      scanFrom (.string start (cs.reverse ++ seen)) (position + cs.length) rest := by
  induction hcs generalizing seen position with
  | nil => rfl
  | @plain c cs quote backslash _ ih =>
    have hstep : step (.string start seen) position c = .ok (.string start (c :: seen), []) := by
      simp [step, quote, backslash]
    rw [List.cons_append, scanFrom_cons hstep, ih, Scan.after_nil, List.reverse_cons,
      List.append_assoc, List.length_cons, Nat.add_right_comm, Nat.add_assoc]
    rfl
  | @pair c cs newline _ ih =>
    have hstep : step (.string start seen) position '\\' =
        .ok (.escape start ('\\' :: seen), []) := rfl
    have hstep' : step (.escape start ('\\' :: seen)) (position + 1) c =
        .ok (.string start (c :: '\\' :: seen), []) := by
      simp [step, newline]
    have hlength : position + 1 + 1 + cs.length = position + ('\\' :: c :: cs).length := by
      simp only [List.length_cons]
      omega
    rw [List.cons_append, List.cons_append, scanFrom_cons hstep, scanFrom_cons hstep', ih,
      Scan.after_nil, Scan.after_nil, hlength, List.reverse_cons, List.reverse_cons,
      List.append_assoc, List.append_assoc]
    rfl

/-- What can stand inside a string is taken up to the quote behind it. -/
theorem scanFrom_inside {cs : List Char} (hcs : Inside cs) (start : Nat) (seen rest : List Char)
    (position : Nat) :
    scanFrom (.string start seen) position (cs ++ '"' :: rest) =
      (scanFrom .between (position + cs.length + 1) rest).after
        [token .string ('"' :: (cs.reverse ++ seen))] := by
  rw [scanFrom_string_append hcs]
  exact scanFrom_cons rfl rest

theorem scanFrom_string {text : String} {cs : List Char}
    (htext : text.toList = '"' :: (cs ++ ['"'])) (hcs : Inside cs) (position : Nat)
    (rest : List Char) :
    scanFrom .between position (text.toList ++ rest) =
      (scanFrom .between (position + text.toList.length) rest).after [⟨.string, text⟩] := by
  have hstep : step .between position '"' = .ok (.string position ['"'], []) := rfl
  have htoken : token .string ('"' :: (cs.reverse ++ ['"'])) = ⟨.string, text⟩ := by
    rw [token, List.reverse_cons, List.reverse_append, List.reverse_reverse,
      List.reverse_singleton, List.singleton_append, List.cons_append, ← htext,
      String.ofList_toList]
  have hlength : position + 1 + cs.length + 1 = position + ('"' :: (cs ++ ['"'])).length := by
    simp only [List.length_cons, List.length_append, List.length_nil]
    omega
  rw [htext, List.cons_append, List.append_assoc, List.singleton_append, scanFrom_cons hstep,
    scanFrom_inside hcs, Scan.after_nil, htoken, hlength]

/-- A string needs nothing of what stands behind it. -/
theorem spells_string {text : String} {cs : List Char} (htext : text.toList = '"' :: (cs ++ ['"']))
    (hcs : Inside cs) : Spells text.toList [⟨.string, text⟩] :=
  fun position rest _ => scanFrom_string htext hcs position rest

/-- Escaped characters can stand inside a string. -/
theorem inside_escape (cs : List Char) : Inside (Text.escape cs) := by
  induction cs with
  | nil => exact .nil
  | cons c cs ih =>
    unfold Text.escape
    split
    · rename_i hspecial
      refine .pair ?_ ih
      rintro rfl
      exact absurd hspecial (by decide)
    · rename_i hplain
      rw [not_or] at hplain
      exact .plain hplain.1 hplain.2 ih

theorem toList_quoted (text : String) :
    (Printer.quoted text).toList = '"' :: (Text.escape text.toList ++ ['"']) := by
  rw [Printer.quoted, String.toList_ofList, List.cons_append]

/-- A quoted text is one token. -/
theorem spells_quoted (text : String) :
    Spells (Printer.quoted text).toList [⟨.string, Printer.quoted text⟩] :=
  spells_string (toList_quoted text) (inside_escape text.toList)

/-! ## Several tokens -/

theorem isAtomChar_separator {c : Char} (hc : isSeparator c = true) : isAtomChar c = false := by
  simp [isAtomChar, hc]

theorem isAtomChar_sole {c : Char} {kind : TokenKind} (hc : soleKind? c = some kind) :
    isAtomChar c = false := by
  unfold soleKind? at hc
  split at hc <;> cases hc <;> decide

theorem spells_nil : Spells [] [] := by
  intro position rest _
  rfl

theorem scanFrom_separators {separators : List Char}
    (hseparators : separators.all isSeparator = true) (position : Nat) (rest : List Char) :
    scanFrom .between position (separators ++ rest) =
      scanFrom .between (position + separators.length) rest := by
  induction separators generalizing position with
  | nil => rfl
  | cons c separators ih =>
    rw [List.all_cons, Bool.and_eq_true] at hseparators
    obtain ⟨hc, hseparators⟩ := hseparators
    rw [List.cons_append, scanFrom_separator hc, ih hseparators, List.length_cons,
      Nat.add_right_comm]
    rfl

/-- Two texts with something between them that only separates. -/
theorem Spells.separated {as bs : List Char} {xs ys : List Token} (ha : Spells as xs)
    (hb : Spells bs ys) {separators : List Char} (hne : separators ≠ [])
    (hseparators : separators.all isSeparator = true) :
    Spells (as ++ separators ++ bs) (xs ++ ys) := by
  intro position rest hrest
  have hparted : Parted (separators ++ (bs ++ rest)) := by
    obtain ⟨c, cs, rfl⟩ := List.exists_cons_of_ne_nil hne
    rw [List.all_cons, Bool.and_eq_true] at hseparators
    exact parted_cons (isAtomChar_separator hseparators.1) _
  rw [List.append_assoc, List.append_assoc, ha position _ hparted,
    scanFrom_separators hseparators, hb _ rest hrest, Scan.after_after, List.length_append,
    List.length_append, Nat.add_assoc, Nat.add_assoc, Nat.add_assoc]

/-- A text between two characters that are tokens by themselves. -/
theorem Spells.enclosed {cs : List Char} {tokens : List Token} (h : Spells cs tokens)
    {first last : Char} {kind kind' : TokenKind} (hfirst : soleKind? first = some kind)
    (hlast : soleKind? last = some kind') :
    Spells (first :: (cs ++ [last]))
      (⟨kind, String.ofList [first]⟩ :: (tokens ++ [⟨kind', String.ofList [last]⟩])) := by
  intro position rest _
  have hparted : Parted (last :: rest) := parted_cons (isAtomChar_sole hlast) rest
  have hlength : position + 1 + cs.length + 1 = position + (first :: (cs ++ [last])).length := by
    simp only [List.length_cons, List.length_append, List.length_nil]
    omega
  rw [List.cons_append, List.append_assoc, List.singleton_append, scanFrom_sole hfirst,
    h _ _ hparted, scanFrom_sole hlast, Scan.after_after, Scan.after_after, hlength]
  rfl

/-- Each text spells some of the tokens, one text after the other. -/
inductive SpellsRow : List String → List Token → Prop
  /-- No texts spell no tokens. -/
  | nil : SpellsRow [] []
  /-- One more text in front. -/
  | cons {text : String} {texts : List String} {tokens more : List Token} :
      Spells text.toList tokens → SpellsRow texts more → SpellsRow (text :: texts) (tokens ++ more)

/-- Texts in a row spell their tokens if there is a separator between any two. -/
theorem SpellsRow.intercalate {texts : List String} {tokens : List Token}
    (h : SpellsRow texts tokens) (separator : String) (hne : separator.toList ≠ [])
    (hseparator : separator.toList.all isSeparator = true) :
    Spells (separator.intercalate texts).toList tokens := by
  induction h with
  | nil =>
    rw [String.intercalate_nil]
    exact spells_nil
  | @cons text texts tokens more htext hrest ih =>
    cases hrest with
    | nil =>
      rw [String.intercalate_singleton, List.append_nil]
      exact htext
    | cons =>
      rw [String.intercalate_cons_cons, String.toList_append, String.toList_append]
      exact htext.separated ih hne hseparator

/-- A text that spells tokens is cut into them to its end. -/
theorem Spells.scan_eq {text : String} {tokens : List Token} (h : Spells text.toList tokens) :
    scan text = ⟨tokens, none⟩ := by
  have hscan := h 0 [] parted_nil
  rw [List.append_nil] at hscan
  rw [scan, hscan]
  simp [scanFrom, finish, Scan.after]

end SmallLisp.Lexer
