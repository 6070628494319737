import SmallLisp.Pattern

/-!
# Shapes of special forms

Each special form prescribes how many operands it takes and what some of them have to be. The check
looks at the operands as they are written and evaluates nothing. It is made twice: over a whole
program before it runs (`SmallLisp.Validation`), and again when the form is evaluated, since a form
can come into being while a program runs.
-/

namespace SmallLisp

/-- Every other value, from the first on. -/
def evens : List Value → List Value
  | [] => []
  | [value] => [value]
  | value :: _ :: rest => value :: evens rest

namespace SpecialForm

/-- The number of operands is the one required. -/
def checkExactly (required : Nat) (operands : List Value) : Except ShapeError Unit :=
  if operands.length = required then .ok () else .error (.exactly required operands.length)

/-- There are enough operands. -/
def checkAtLeast (least : Nat) (operands : List Value) : Except ShapeError Unit :=
  if least ≤ operands.length then .ok () else .error (.atLeast least operands.length)

/-- All values are patterns. -/
def checkTargets (targets : List Value) : Except ShapeError Unit :=
  match Pattern.badTargets? targets with
  | some bad => .error (.target bad)
  | none => .ok ()

/-- The operands have the shape that the form prescribes. -/
def check (form : SpecialForm) (operands : List Value) : Except ShapeError Unit :=
  match form with
  | quoteForm => checkExactly 1 operands
  | ifForm => checkExactly 3 operands
  | defForm => do
    checkExactly 2 operands
    match operands with
    | .symbol _ :: _ => .ok ()
    | given :: _ => .error (.notSymbol given)
    | [] => .ok ()
  | doForm => .ok ()
  | letForm => do
    checkAtLeast 2 operands
    match operands with
    | .vector bindings :: _ =>
      if bindings.length % 2 = 0 then checkTargets (evens bindings)
      else .error (.unpaired bindings.length)
    | _ => .error .notVector
  | fnForm => do
    checkAtLeast 2 operands
    match operands with
    | .vector params :: _ => checkTargets params
    | _ => .error .notVector

end SpecialForm

end SmallLisp
