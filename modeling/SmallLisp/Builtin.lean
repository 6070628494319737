/-!
# Operations of the host

A host function names the operation it stands for; what the operation does is said where it is
carried out. There are four families:

* `Builtin`: the thirty operations that every session offers.
* `Expander`: the three expanders behind the library's transformers.
* a **probe**, which records each of its calls and answers how many there have been;
* an **invoker**, which calls its first argument with the others in the way the host calls a
  function.

The last two are for a host that watches a program run.
-/

namespace SmallLisp

/-- The operations that every session offers. -/
inductive Builtin
  | add | sub | mul | div
  | equal | notEqual | less | lessEq | greater | greaterEq | negation
  | list | vector | hashMap
  | first | rest | cons | nth | get | count | reduce
  | isSymbol | isKeyword | isNil | isList | isVector | isMap | isFunction
  | str | makeTransformer
deriving DecidableEq, Repr

namespace Builtin

/-- The name that a session binds the operation to. -/
def name : Builtin → String
  | add => "+"
  | sub => "-"
  | mul => "*"
  | div => "/"
  | equal => "="
  | notEqual => "not="
  | less => "<"
  | lessEq => "<="
  | greater => ">"
  | greaterEq => ">="
  | negation => "not"
  | list => "list"
  | vector => "vector"
  | hashMap => "hash-map"
  | first => "first"
  | rest => "rest"
  | cons => "cons"
  | nth => "nth"
  | get => "get"
  | count => "count"
  | reduce => "reduce"
  | isSymbol => "symbol?"
  | isKeyword => "keyword?"
  | isNil => "nil?"
  | isList => "list?"
  | isVector => "vector?"
  | isMap => "map?"
  | isFunction => "fn?"
  | str => "str"
  | makeTransformer => "macro"

/-- All operations, in the order in which a session binds them. -/
def all : List Builtin := [
  add, sub, mul, div, equal, notEqual, less, lessEq, greater, greaterEq, negation, list, vector,
  hashMap, first, rest, cons, nth, get, count, reduce, isSymbol, isKeyword, isNil, isList, isVector,
  isMap, isFunction, str, makeTransformer]

/-- The operation of that name. -/
def ofName? (name : String) : Option Builtin :=
  all.find? fun b => b.name == name

/-- No operation is missing from the list. -/
theorem mem_all (b : Builtin) : b ∈ all := by
  cases b <;> decide

end Builtin

/-- What stands behind the transformers of the library. -/
inductive Expander
  /-- Defines a function under a name. -/
  | defineFunction
  /-- Defines a transformer under a name. -/
  | defineTransformer
  /-- Ignores what it is given. -/
  | remark
deriving DecidableEq, Repr

namespace Expander

/-- The name that a session binds the transformer to. -/
def name : Expander → String
  | defineFunction => "defn"
  | defineTransformer => "defmacro"
  | remark => "comment"

/-- All expanders, in the order in which a session binds them. -/
def all : List Expander := [defineFunction, defineTransformer, remark]

end Expander

/-- What a host function stands for. -/
inductive HostOperation
  /-- One of the operations of every session. -/
  | builtin (b : Builtin)
  /-- What stands behind a library transformer. -/
  | expander (e : Expander)
  /-- Records its calls under this name. -/
  | probe (name : String)
  /-- Calls its first argument; known under this name. -/
  | invoker (name : String)
deriving DecidableEq, Repr

/-- The name under which a host function is printed. -/
def HostOperation.name : HostOperation → String
  | builtin b => b.name
  | expander e => e.name
  | probe name => name
  | invoker name => name

end SmallLisp
