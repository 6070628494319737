/-!
# Escapes inside a string literal

A string of the language is written between double quotes. Inside it a double quote and a backslash
are written with a backslash in front, and nothing else is ever escaped.

* `escape`: what stands between the quotes.
* `unescape`: the way back. It refuses a backslash in front of any other character, and one that has
  nothing behind it.
* `unescape_escape`: reading what was written gives the string again.
-/

namespace SmallLisp.Text

/-- What can be wrong with the inside of a string literal. -/
inductive EscapeError
  /-- A backslash stands before a character other than a double quote or a backslash. -/
  | unsupported
  /-- A backslash is the last character. -/
  | dangling
deriving DecidableEq, Repr

/-- Puts a backslash before every double quote and every backslash. -/
def escape : List Char → List Char
  | [] => []
  | c :: cs => if c = '"' ∨ c = '\\' then '\\' :: c :: escape cs else c :: escape cs

/-- Resolves the escapes, from left to right. -/
def unescape : List Char → Except EscapeError (List Char)
  | [] => .ok []
  | [c] => if c = '\\' then .error .dangling else .ok [c]
  | c :: d :: cs =>
    if c = '\\' then
      if d = '"' ∨ d = '\\' then (unescape cs).map (d :: ·) else .error .unsupported
    else (unescape (d :: cs)).map (c :: ·)

@[simp]
theorem unescape_nil : unescape [] = .ok [] := rfl

/-- An escaped quote or backslash stands for itself. -/
theorem unescape_escaped {c : Char} (h : c = '"' ∨ c = '\\') (cs : List Char) :
    unescape ('\\' :: c :: cs) = (unescape cs).map (c :: ·) := by
  simp [unescape, h]

/-- A character other than the backslash stands for itself. -/
theorem unescape_plain {c : Char} (h : c ≠ '\\') (cs : List Char) :
    unescape (c :: cs) = (unescape cs).map (c :: ·) := by
  cases cs with
  | nil => simp [unescape, h, Except.map]
  | cons d cs => simp [unescape, h]

theorem unescape_escape (cs : List Char) : unescape (escape cs) = .ok cs := by
  induction cs with
  | nil => rfl
  | cons c cs ih =>
    by_cases h : c = '"' ∨ c = '\\'
    · simp [escape, h, unescape_escaped h, ih, Except.map]
    · have hc : c ≠ '\\' := fun e => h (.inr e)
      simp [escape, h, unescape_plain hc, ih, Except.map]

end SmallLisp.Text
