/-!
# Runs of code points

Every character class of this library is a short table of *runs*, a run being all code points
between two bounds, both included. One test reads all the tables, so what holds of the test holds
of every class.
-/

namespace SmallLisp.Text

/-- All code points from `first` to `last`. -/
structure Run where
  /-- The smallest code point of the run. -/
  first : Nat
  /-- The largest code point of the run. -/
  last : Nat

/-- The character's code point lies between the bounds of the run. -/
def Run.holds (run : Run) (c : Char) : Bool :=
  run.first ≤ c.toNat && c.toNat ≤ run.last

/-- Some run of the table holds the character. -/
def inRuns (table : List Run) (c : Char) : Bool :=
  table.any fun run => run.holds c

@[simp]
theorem inRuns_nil (c : Char) : inRuns [] c = false := rfl

@[simp]
theorem inRuns_cons (run : Run) (table : List Run) (c : Char) :
    inRuns (run :: table) c = (run.holds c || inRuns table c) := rfl

end SmallLisp.Text
