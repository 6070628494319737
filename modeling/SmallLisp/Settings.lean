import SmallLisp.Number.Numeral
import SmallLisp.Text.Blank
import SmallLisp.Text.Capital

/-!
# Settings

Two settings come from outside as texts: the level of the log and the depth that the host allows.

* A level is given as a number or by name, in letters of either case. Blanks around it do not
  matter, and a text that is neither, or empty, or missing stands for `WARNING`.
* A depth is given as a number, and any other text stands for none. It takes effect only if it is
  larger than what the host allows already.

Whether a text is a number is decided by looking at its characters: they all have to denote digits.
Reading it can still fail, for not every such character has a place value, and a numeral can be too
long.
-/

namespace SmallLisp

/-- Why settings could not be applied. -/
inductive SettingError
  /-- The characters denote digits but no number. -/
  | badNumeral
  /-- The depth is larger than any the host can allow. -/
  | limitTooLarge
deriving DecidableEq, Repr

namespace Settings

open SmallLisp.Text

/-! ## Texts -/

/-- All characters denote digits, and there is at least one. -/
def looksNumeric (cs : List Char) : Bool :=
  !cs.isEmpty && cs.all isDigit

/-- The number that such a text denotes. -/
def readNumber (cs : List Char) : Except SettingError Nat :=
  if cs.all isDecimal then
    match Numeral.readDigits? cs with
    | some n => .ok n
    | none => .error .badNumeral
  else .error .badNumeral

/-- The text of a setting that is present: one that is missing or empty is not. -/
def present? (text : Option String) : Option (List Char) :=
  match text with
  | some text => if text.isEmpty then none else some text.toList
  | none => none

/-! ## The level of the log -/

/-- The levels that have a name. -/
def levelNames : List (String × Nat) := [
  ("CRITICAL", 50), ("FATAL", 50), ("ERROR", 40), ("WARNING", 30), ("WARN", 30), ("INFO", 20),
  ("DEBUG", 10), ("NOTSET", 0)]

/-- The level that stands for every text that gives none. -/
def defaultLevel : Nat := 30

/-- The level at which every line of a session is written. -/
def lineLevel : Nat := 10

/-- The level that a text gives. -/
def level (text : Option String) : Except SettingError Nat :=
  match present? text with
  | none => .ok defaultLevel
  | some cs =>
    let trimmed := trim cs
    if looksNumeric trimmed then readNumber trimmed
    else .ok ((levelNames.lookup (String.ofList (capitals trimmed))).getD defaultLevel)

/-- The lines of a session are written at this level. The level 0 leaves the decision to the host,
which writes none. -/
def writesLines (level : Nat) : Bool :=
  level ≠ 0 && level ≤ lineLevel

/-! ## The depth -/

/-- The depth that a text gives, if it gives one. -/
def depthLimit (text : Option String) : Except SettingError (Option Nat) :=
  match present? text with
  | none => .ok none
  | some cs =>
    let trimmed := trim cs
    if looksNumeric trimmed then (readNumber trimmed).map some else .ok none

/-- The largest depth that a host can allow. -/
def greatestLimit : Nat := 2147483647

/-- What the settings act on. -/
structure Host where
  /-- The level of the log. -/
  level : Nat
  /-- The depth that the host allows. -/
  limit : Nat
deriving DecidableEq, Repr

/-- Applies both settings, the level first; what was applied before a failure stays. -/
def configure (levelText limitText : Option String) : EStateM SettingError Host Unit := do
  match level levelText with
  | .error reason => throw reason
  | .ok level => modify fun host => { host with level := level }
  match depthLimit limitText with
  | .error reason => throw reason
  | .ok none => pure ()
  | .ok (some limit) =>
    if (← get).limit < limit then
      if greatestLimit < limit then throw .limitTooLarge
      modify fun host => { host with limit := limit }

end Settings

end SmallLisp
