import SmallLisp.Shape

/-!
# Checking a program before it runs

`walk` checks the shape of every special form in a form that evaluation could come to, so that a
malformed branch is found even if it is never taken. It passes over

* the operand of `quote`, and vectors and maps, which evaluate to themselves;
* the targets in a `let` and the parameters of a `fn`;
* the operands of a transformer, which are handed over as they are. What the transformer makes of
  them is checked when it has been made.

Whether a name means a transformer is asked of the scope (`bound`) and of the names that the program
itself has defined as transformers so far (`known`). The walk goes from left to right and passes the
growing list of such names on.
-/

namespace SmallLisp.Validation

/-- The names known as transformers behind a call of a transformer: one that defines another one
adds its name. -/
def learn (name : String) (operands : List Value) (known : List String) : List String :=
  match operands with
  | .symbol defined :: _ =>
    if name = Expander.defineTransformer.name then defined :: known else known
  | _ => known

mutual

/-- Checks a form; the result is the names known as transformers behind it. -/
def walk (bound : String → Bool) : Value → List String → Except Fault (List String)
  | .list (.symbol name :: operands), known =>
    match SpecialForm.ofName? name with
    | some form =>
      match form.check operands with
      | .error reason => .error (.shape form reason)
      | .ok () =>
        match form, operands with
        | .quoteForm, _ => .ok known
        | .letForm, .vector bindings :: body => do
          let known ← walkInits bound bindings known
          walkAll bound body known
        | .letForm, _ => .error .missingPart
        | .fnForm, _ :: body => walkAll bound body known
        | _, operands => walkAll bound operands known
    | none =>
      if known.contains name || bound name then .ok (learn name operands known)
      else walkAll bound operands known
  | .list (head :: operands), known => do
    let known ← walk bound head known
    walkAll bound operands known
  | _, known => .ok known

/-- Checks forms from left to right. -/
def walkAll (bound : String → Bool) : List Value → List String → Except Fault (List String)
  | [], known => .ok known
  | form :: forms, known => do
    let known ← walk bound form known
    walkAll bound forms known

/-- Checks the right-hand sides of bindings. -/
def walkInits (bound : String → Bool) : List Value → List String → Except Fault (List String)
  | _ :: init :: bindings, known => do
    let known ← walk bound init known
    walkInits bound bindings known
  | _, known => .ok known

end

/-- Checks the forms of one program. -/
def checkAll (bound : String → Bool) (forms : List Value) : Except Fault Unit :=
  (walkAll bound forms []).map fun _ => ()

/-- Checks a form by itself. -/
def check (bound : String → Bool) (form : Value) : Except Fault Unit :=
  (walk bound form []).map fun _ => ()

/-! ## Equations -/

variable {bound : String → Bool}

/-- A list that is headed by a name: its operands are walked unless the name means a transformer. -/
theorem walk_name {name : String} {operands : List Value} {known : List String}
    (hname : SpecialForm.ofName? name = none) :
    walk bound (.list (.symbol name :: operands)) known =
      if known.contains name || bound name then .ok (learn name operands known)
      else walkAll bound operands known := by
  rw [walk, hname]

/-- Rows of forms are checked one after the other. -/
theorem walkAll_append (forms forms' : List Value) (known : List String) :
    walkAll bound (forms ++ forms') known =
      (walkAll bound forms known >>= fun known => walkAll bound forms' known) := by
  induction forms generalizing known with
  | nil => rfl
  | cons form forms ih =>
    rw [List.cons_append, walkAll, walkAll]
    cases walk bound form known with
    | error fault => rfl
    | ok known' => exact ih known'

end SmallLisp.Validation
