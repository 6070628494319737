import SmallLisp.Fault

/-!
# The transformers of the library

A transformer is called with the whole call, the scope of the call and the operands as they are
written, and returns the form to be evaluated in their place.

* `(defn name [params] body ...)` becomes `(def name (fn [params] body ...))`.
* `(defmacro name [params] body ...)` becomes a `def` of the name to a function made a transformer.
  That function takes the call and the scope as `&form` and `&env` before the parameters. It is
  made a transformer by the operation itself, placed into the form as a value, so that it does not
  matter what the operation's name is bound to.
* `(comment ...)` becomes `nil`.
-/

namespace SmallLisp.Expander

/-- The name, the parameters and the body of a definition. -/
def parts (expander : Expander) (operands : List Value) :
    Except Fault (String × List Value × List Value) :=
  match operands with
  | name :: params :: form :: forms =>
    match name, params with
    | .symbol name, .vector params => .ok (name, params, form :: forms)
    | .symbol _, given => .error (.definition expander (.notVector given))
    | given, _ => .error (.definition expander (.notSymbol given))
  | _ => .error (.definition expander (.tooFew operands.length))

/-- The operation that makes a function a transformer, as a value in a form. It is one and the same
in all forms, and its serial number is set apart for it. -/
def transformerMaker : Value :=
  .host 0 (.builtin .makeTransformer)

/-- A form that makes a function. -/
def fnForm (params body : List Value) : Value :=
  .list (.symbol "fn" :: .vector params :: body)

/-- A form that defines a name. -/
def defForm (name : String) (value : Value) : Value :=
  .list [.symbol "def", .symbol name, value]

/-- What a library transformer makes of its operands. -/
def expand (expander : Expander) (operands : List Value) : Except Fault Value :=
  match expander with
  | defineFunction => do
    let (name, params, body) ← expander.parts operands
    return defForm name (fnForm params body)
  | defineTransformer => do
    let (name, params, body) ← expander.parts operands
    let params := .symbol "&form" :: .symbol "&env" :: params
    return defForm name (.list [transformerMaker, fnForm params body])
  | remark => .ok .nil

end SmallLisp.Expander
