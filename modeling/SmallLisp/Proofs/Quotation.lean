import Mathlib.Data.Set.Function
import SmallLisp.Proofs.Joining

/-!
# Every string is one token, and every token one string

A string is written between quotes with its quotes and backslashes escaped (`Printer.quoted`), and a
string token is read by taking the quotes off and resolving the escapes (`Reader.stringValue`).
**`Reader.quoted_bijOn`** says that the two undo one another:

* What the lexer cuts out as a string token never ends inside an escape. It denotes a string exactly
  if it is the written form of that string; it denotes none only if it escapes a character that
  needs no escape.
* A written string in front of any text whatever is cut out as one token that denotes the string.
  The tokens behind it are those of the text, and what is wrong with the text stands further on.
* So writing is a bijection from the strings to the string tokens that denote one.

That reading undoes writing is a fact about escapes alone (`Text.unescape_escape`). The other way
around it is not, since a bare quote reads as itself and is written with a backslash: what is
between the quotes has to be `Lexer.Inside` (`Text.escape_of_unescape`).
-/

namespace SmallLisp

/-! ## Escapes -/

namespace Text

theorem escape_special {c : Char} (h : c = '"' ∨ c = '\\') (cs : List Char) :
    escape (c :: cs) = '\\' :: c :: escape cs :=
  if_pos h

theorem escape_plain {c : Char} (h : ¬(c = '"' ∨ c = '\\')) (cs : List Char) :
    escape (c :: cs) = c :: escape cs :=
  if_neg h

/-- What stands inside a string is what is written for the characters that it stands for. -/
theorem escape_of_unescape {cs ds : List Char} (hcs : Lexer.Inside cs)
    (h : unescape cs = .ok ds) : escape ds = cs := by
  induction hcs generalizing ds with
  | nil =>
    cases h
    rfl
  | plain quote backslash _ ih =>
    rw [unescape_plain backslash] at h
    obtain ⟨es, hes, rfl⟩ := exists_of_map_eq_ok h
    rw [escape_plain (by simp [quote, backslash]), ih hes]
  | @pair c cs _ _ ih =>
    by_cases hc : c = '"' ∨ c = '\\'
    · rw [unescape_escaped hc] at h
      obtain ⟨es, hes, rfl⟩ := exists_of_map_eq_ok h
      rw [escape_special hc, ih hes]
    · simp [unescape, hc] at h

end Text

/-! ## Tokens -/

/-- A written string is cut out whatever stands behind it. -/
theorem Lexer.scan_quoted (text behind : String) :
    scan (Printer.quoted text ++ behind) =
      ((scan behind).shift (Printer.quoted text).toList.length).after
        [⟨.string, Printer.quoted text⟩] := by
  have hshift := scanFrom_shift (Printer.quoted text).toList.length .between 0 behind.toList
  rw [Nat.zero_add] at hshift
  unfold scan
  rw [String.toList_append,
    scanFrom_string (toList_quoted text) (inside_escape text.toList), Nat.zero_add,
    ← hshift]
  rfl

namespace Reader

open SmallLisp.Printer

/-- A written string denotes the string. -/
theorem stringValue_quoted (text : String) : stringValue (quoted text) = .ok text := by
  rw [stringValue, Lexer.toList_quoted, List.tail_cons, List.dropLast_concat, Text.unescape_escape]
  exact congrArg Except.ok String.ofList_toList

theorem quoted_injective : Function.Injective quoted := by
  intro text text' h
  have hvalue := stringValue_quoted text
  rw [h, stringValue_quoted] at hvalue
  exact (Except.ok.inj hvalue).symm

/-- A string token is the written form of what it denotes, or escapes a character that needs no
escape. -/
theorem stringValue_cases {text : String} (h : Lexer.Lexeme ⟨.string, text⟩) :
    (∃ content, stringValue text = .ok content ∧ quoted content = text) ∨
      stringValue text = .error .unsupportedEscape := by
  obtain ⟨cs, htext, hinside⟩ := h
  dsimp only at htext
  have hcs : text.toList.tail.dropLast = cs := by
    rw [htext, List.tail_cons, List.dropLast_concat]
  unfold stringValue
  rw [hcs]
  cases hread : Text.unescape cs with
  | ok ds =>
    refine .inl ⟨String.ofList ds, rfl, ?_⟩
    rw [← String.toList_inj, Lexer.toList_quoted, String.toList_ofList,
      Text.escape_of_unescape hinside hread, htext]
  | error reason =>
    cases reason with
    | unsupported => exact .inr rfl
    | dangling => exact absurd hread (Text.unescape_ne_dangling hinside)

/-- A string token denotes the string that it is the written form of, and no other. -/
theorem stringValue_eq_ok_iff {text content : String} (h : Lexer.Lexeme ⟨.string, text⟩) :
    stringValue text = .ok content ↔ quoted content = text := by
  constructor
  · intro hread
    rcases stringValue_cases h with ⟨content', hread', hquoted⟩ | hfailed
    · rw [hread, Except.ok.injEq] at hread'
      rw [hread', hquoted]
    · rw [hread] at hfailed
      cases hfailed
  · rintro rfl
    exact stringValue_quoted content

/-- The texts of string tokens that denote a string. -/
def stringTexts : Set String :=
  {text | (∃ source, ⟨.string, text⟩ ∈ (Lexer.scan source).tokens) ∧
    ∃ content, stringValue text = .ok content}

/-- **Escaping is a bijection.**

* The reading of a string token never fails inside an escape, and if it gives a string, then the
  token is what is written for that string.
* What is written for a string is, in front of any text, one token that is read as the string; then
  come the tokens of the text.
* So the strings and the string tokens that are read without an error correspond. -/
theorem quoted_bijOn :
    (∀ source, ∀ token ∈ (Lexer.scan source).tokens, token.kind = .string →
      ((∃ content, stringValue token.text = .ok content) ∨
        stringValue token.text = .error .unsupportedEscape) ∧
      ∀ content, stringValue token.text = .ok content ↔ quoted content = token.text) ∧
    (∀ content behind : String,
      stringValue (quoted content) = .ok content ∧
      Lexer.scan (quoted content ++ behind) =
        ⟨⟨.string, quoted content⟩ :: (Lexer.scan behind).tokens,
          (Lexer.scan behind).failure.map (·.shift (quoted content).toList.length)⟩) ∧
    Set.BijOn quoted Set.univ stringTexts := by
  refine ⟨fun source token htoken hkind => ?_,
    fun content behind => ⟨stringValue_quoted content, Lexer.scan_quoted content behind⟩,
    fun content _ => ⟨⟨quoted content ++ "", ?_⟩, content, stringValue_quoted content⟩,
    quoted_injective.injOn, fun text htext => ?_⟩
  · have hlexeme := Lexer.lexeme_of_mem_scan source token htoken
    obtain ⟨kind, text⟩ := token
    obtain rfl : kind = .string := hkind
    refine ⟨?_, fun content => stringValue_eq_ok_iff hlexeme⟩
    exact (stringValue_cases hlexeme).imp_left fun ⟨content, hread, _⟩ => ⟨content, hread⟩
  · rw [Lexer.scan_quoted]
    exact List.mem_cons_self
  · obtain ⟨⟨source, hmem⟩, content, hread⟩ := htext
    have hlexeme := Lexer.lexeme_of_mem_scan source _ hmem
    exact ⟨content, Set.mem_univ content, (stringValue_eq_ok_iff hlexeme).1 hread⟩

/-- A string of a letter, a backslash and a quote, with a bracket behind it; and one of a backslash
at the end of a line, with a string behind it that is broken there. -/
theorem quoted_bijOn_backslashes :
    let source := "(str \"a\\\\\\\"\")"
    let token : Token := ⟨.string, "\"a\\\\\\\"\""⟩
    token ∈ (Lexer.scan source).tokens ∧ token.kind = .string ∧
      stringValue token.text = .ok "a\\\"" ∧
      Lexer.scan (quoted "\\\n" ++ ",\"\\\n \"") =
        ⟨[⟨.string, "\"\\\\\n\""⟩], some (.unexpectedChar 6 '"')⟩ := by
  intro source token
  have hmem : token ∈ (Lexer.scan source).tokens := by decide
  have hquoted : quoted "a\\\"" = token.text := by decide
  have hread := (quoted_bijOn.1 source token hmem rfl).2 "a\\\""
  have hscan := (quoted_bijOn.2.1 "\\\n" ",\"\\\n \"").2
  exact ⟨hmem, rfl, hread.2 hquoted, hscan.trans (by decide)⟩

end Reader

end SmallLisp
