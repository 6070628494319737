import SmallLisp.Number
import SmallLisp.Builtin

/-!
# Values

Programs and data are one kind of thing here: what the reader makes out of a text, what evaluation
takes apart, and what it returns, are all `Value`s.

* `nil`, `bool`, `number`, `str`, `symbol`, `keyword` are leaves.
* `list` and `vector` hold a sequence. A list is the shape of a call; a vector is the shape of
  parameters and bindings.
* `map` holds entries, each a key with its value; see `SmallLisp.Value.Entries`.
* `function`, `host` and `transformer` can be called. Each of them is one particular thing, told
  from all others by the serial number it received when it was made.
* `environment` is a scope handed to a program as a value: the frame it starts at.

A function and an environment refer to a frame by its number in the store, so a value is a finite
tree whatever the scopes look like.
-/

namespace SmallLisp

/-- The number of a frame in the store. -/
abbrev FrameId := Nat

/-- A value, which is also a form. -/
inductive Value
  /-- The empty value. -/
  | nil
  /-- A truth value. -/
  | bool (b : Bool)
  /-- A number. -/
  | number (n : Number)
  /-- A string. -/
  | str (text : String)
  /-- A name that evaluates to what it is bound to. -/
  | symbol (name : String)
  /-- A name that evaluates to itself. -/
  | keyword (name : String)
  /-- A sequence written between round brackets. -/
  | list (items : List Value)
  /-- A sequence written between square brackets. -/
  | vector (items : List Value)
  /-- Keys with their values. -/
  | map (entries : List (Value × Value))
  /-- A function with a body of forms and the frame it was made in. It takes one argument for each
  element of `params`, which is a vector in every function that a program makes. -/
  | function (serial : Nat) (params : Value) (body : List Value) (home : FrameId)
  /-- A function of the host. -/
  | host (serial : Nat) (operation : HostOperation)
  /-- A callable that makes a form out of the forms of its call. -/
  | transformer (serial : Nat) (target : Value)
  /-- A scope. -/
  | environment (frame : FrameId)
deriving Inhabited, Repr

/-- The contents of a map. -/
abbrev Entries := List (Value × Value)

namespace Value

/-- A whole number. -/
abbrev int (n : Int) : Value := number (.int n)

/-- A binary64 number. -/
abbrev float (x : Binary64) : Value := number (.float x)

/-- Everything but `nil` and `false` counts as true. -/
def truthy : Value → Bool
  | nil => false
  | bool b => b
  | _ => true

/-- The name of a symbol. -/
def symbolName? : Value → Option String
  | symbol name => some name
  | _ => none

/-- The value can be called with arguments. -/
def isFunction : Value → Bool
  | function .. => true
  | host .. => true
  | _ => false

end Value

end SmallLisp
