/-!
# Capital letters

A setting may name a level in small or capital letters. Two names agree when their capital forms
do. Beside the letters `a` to `z` a few characters outside the basic alphabet have capital forms
within it: the sharp s, the dotless i, the long s and the joined letters such as the one for `ff`.
All other characters have a capital form that no level name contains, and stand for themselves
here.
-/

namespace SmallLisp.Text

/-- The characters outside the basic alphabet whose capital form lies within it. -/
def joinedCapitals : List (Char × List Char) := [
  ('\u00DF', ['S', 'S']), ('\u0131', ['I']), ('\u017F', ['S']),
  ('\uFB00', ['F', 'F']), ('\uFB01', ['F', 'I']), ('\uFB02', ['F', 'L']),
  ('\uFB03', ['F', 'F', 'I']), ('\uFB04', ['F', 'F', 'L']),
  ('\uFB05', ['S', 'T']), ('\uFB06', ['S', 'T'])]

/-- The capital form of a character, which may be several letters. -/
def capital (c : Char) : List Char :=
  (joinedCapitals.lookup c).getD [c.toUpper]

/-- The capital form of a text. -/
def capitals (cs : List Char) : List Char :=
  cs.flatMap capital

end SmallLisp.Text
