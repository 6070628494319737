import SmallLisp.Value

/-!
# Special forms

Six names are not looked up when they head a list: the list is then a form with an evaluation rule
of its own.
-/

namespace SmallLisp

/-- The forms with an evaluation rule of their own. -/
inductive SpecialForm
  /-- Returns its operand as it stands. -/
  | quoteForm
  /-- Chooses between two branches. -/
  | ifForm
  /-- Binds a name on the root frame. -/
  | defForm
  /-- Evaluates forms in order. -/
  | doForm
  /-- Binds names in a new frame. -/
  | letForm
  /-- Makes a function. -/
  | fnForm
deriving DecidableEq, Repr

namespace SpecialForm

/-- The name that heads the form. -/
def name : SpecialForm → String
  | quoteForm => "quote"
  | ifForm => "if"
  | defForm => "def"
  | doForm => "do"
  | letForm => "let"
  | fnForm => "fn"

/-- All special forms. -/
def all : List SpecialForm := [quoteForm, ifForm, defForm, doForm, letForm, fnForm]

/-- The special form of that name. -/
def ofName? (name : String) : Option SpecialForm :=
  all.find? fun form => form.name == name

/-- The special form that a list with this head is. -/
def ofHead? : Value → Option SpecialForm
  | .symbol name => ofName? name
  | _ => none

/-- The name of a special form leads back to it. -/
theorem ofName?_name (form : SpecialForm) : ofName? form.name = some form := by
  cases form <;> decide

end SpecialForm

end SmallLisp
