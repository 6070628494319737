import SmallLisp.Text.Run

/-!
# Blank characters

A blank is a character that Unicode counts as white space, together with the four information
separators U+001C to U+001F. Blanks stand between the tokens of a source text and around the value
of a setting. They mean nothing in either place.
-/

namespace SmallLisp.Text

/-- The runs of blank characters: ten runs, twenty-nine characters. -/
def blankRuns : List Run := [
  ⟨0x0009, 0x000D⟩, ⟨0x001C, 0x0020⟩, ⟨0x0085, 0x0085⟩, ⟨0x00A0, 0x00A0⟩, ⟨0x1680, 0x1680⟩,
  ⟨0x2000, 0x200A⟩, ⟨0x2028, 0x2029⟩, ⟨0x202F, 0x202F⟩, ⟨0x205F, 0x205F⟩, ⟨0x3000, 0x3000⟩]

/-- The character is blank. -/
def isBlank (c : Char) : Bool :=
  inRuns blankRuns c

/-- The characters between the first and the last one that is not blank. -/
def trim (cs : List Char) : List Char :=
  ((cs.dropWhile isBlank).reverse.dropWhile isBlank).reverse

/-- Every blank of the core library is one here; the converse fails, at U+00A0 for instance. -/
theorem isBlank_of_isWhitespace {c : Char} (h : c.isWhitespace = true) : isBlank c = true := by
  simp only [Char.isWhitespace, Bool.or_eq_true, decide_eq_true_eq] at h
  rcases h with ((h | h) | h) | h <;> subst h <;> decide

end SmallLisp.Text
