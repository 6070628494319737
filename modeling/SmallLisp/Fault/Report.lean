import SmallLisp.Printer

/-!
# Faults in words

A report says of which kind a fault is and, for the faults of the language itself, what happened.
The words may show values, so they depend on the store. If a value that they show has no text, the
report is about that instead: the kind is `badValue` and there are no words.
-/

namespace SmallLisp

/-- The kinds of fault that a caller tells apart. -/
inductive FaultKind
  /-- A form or a text does not have the shape it must have. -/
  | malformed
  /-- A name is not bound. -/
  | unbound
  /-- A value is of the wrong kind for its place. -/
  | mistyped
  /-- The number of arguments is wrong. -/
  | arity
  /-- An index is out of bounds. -/
  | index
  /-- A number is too large for the binary64 format. -/
  | overflow
  /-- A numeral has too many digits, a part is missing, or a frame is no root. -/
  | badValue
  /-- A token ends inside an escape. -/
  | cutShort
  /-- The same, met while all forms were being read. -/
  | interrupted
  /-- The host called something that it cannot call. -/
  | uncallable
  /-- The evaluation, or a printed scope, is nested too deeply. -/
  | tooDeep
deriving DecidableEq, Repr

/-- A fault as it is shown. -/
structure Report where
  /-- The kind of the fault. -/
  kind : FaultKind
  /-- What happened. -/
  message : Option String
deriving DecidableEq, Repr

/-- The kind of a fault of reading. -/
def ReadError.kind : ReadError → FaultKind
  | danglingEscape => .cutShort
  | interrupted => .interrupted
  | longNumeral => .badValue
  | _ => .malformed

/-- The kind of a fault in the shape of a special form. -/
def ShapeError.kind : ShapeError → FaultKind
  | target _ => .mistyped
  | notSymbol _ => .mistyped
  | _ => .malformed

/-- The kind of a fault of binding. -/
def BindError.kind : BindError → FaultKind
  | duplicate _ => .malformed
  | _ => .mistyped

/-- The kind of a fault in a defining form. -/
def DefinitionError.kind : DefinitionError → FaultKind
  | notSymbol _ => .mistyped
  | _ => .malformed

namespace Fault

/-- The kind of a fault. -/
def kind : Fault → FaultKind
  | read reason => reason.kind
  | shape _ reason => reason.kind
  | bind reason => reason.kind
  | definition _ reason => reason.kind
  | unbound _ => .unbound
  | functionArity .. => .arity
  | transformerArity .. => .arity
  | argumentCount .. => .arity
  | indexOutOfBounds .. => .index
  | overflow .. => .overflow
  | unprintable => .badValue
  | missingPart => .badValue
  | notRoot => .badValue
  | uncallable => .uncallable
  | missingArgument _ => .uncallable
  | _ => .mistyped

end Fault

/-! ## Words -/

open Printer (Printed)

/-- What the first operand of a binding form holds. -/
def SpecialForm.vectorRole : SpecialForm → String
  | letForm => "bindings"
  | _ => "parameters"

/-- The words for a fault in the shape of a special form. -/
def ShapeError.words (store : Store) (form : SpecialForm) : ShapeError → Printed
  | exactly required got =>
    .ok s!"{form.name} expects exactly {required} arguments; got {got}"
  | atLeast least got => .ok s!"{form.name} expects at least {least} arguments; got {got}"
  | notVector =>
    .ok s!"The first argument to {form.name} (the {form.vectorRole}) must be a vector"
  | unpaired got =>
    .ok s!"{form.name} bindings must alternate names and values; got {got} entries"
  | target pattern => do
    let shown ← store.print .inspect pattern
    return s!"{form.name} binding target must be a symbol or a vector, got {shown}"
  | notSymbol given => do
    let shown ← store.print .inspect given
    return s!"First argument to {form.name} must be a symbol, got {shown}"

/-- The words for a fault of binding. -/
def BindError.words (store : Store) : BindError → Printed
  | notName given => do
    let shown ← store.print .inspect given
    return s!"Cannot bind {shown}: binding names must be symbols"
  | duplicate name => .ok s!"Duplicate binding for {name} in the same scope"
  | target pattern => do
    let shown ← store.print .inspect pattern
    return s!"Binding target must be a symbol or a vector of symbols, got {shown}"
  | mapValue => .ok "Maps cannot be destructured positionally"
  | notSequential given => do
    let shown ← store.print .inspect given
    return s!"Cannot destructure non-sequential value {shown}"

/-- The words for a fault in a defining form. -/
def DefinitionError.words (store : Store) (expander : Expander) : DefinitionError → Printed
  | tooFew got =>
    .ok <| s!"{expander.name} expects a name, a parameter vector and a body; " ++
      s!"got {got} arguments"
  | notSymbol given => do
    let shown ← store.print .inspect given
    return s!"{expander.name} name must be a symbol, got {shown}"
  | notVector given => do
    let shown ← store.print .inspect given
    return s!"{expander.name} parameters must be a vector, got {shown}"

/-- How many arguments an operation accepts, in words. -/
def ArgumentCount.words : ArgumentCount → String
  | atLeastOne => "at least 1 argument"
  | one => "exactly 1 argument"
  | two => "exactly 2 arguments"
  | twoOrThree => "2 or 3 arguments"
  | even => "an even number of arguments"

/-- The decimal text of a whole number in a message. -/
def numeralWords (n : Int) : Printed :=
  match Numeral.intText? n with
  | some text => .ok text
  | none => .error .longNumeral

/-- The words for a fault of the language; the faults of the host have none. -/
def Fault.words? (store : Store) : Fault → Option Printed
  | read reason => if reason.kind = .malformed then some (.ok reason.message) else none
  | shape form reason => some (reason.words store form)
  | bind reason => some (reason.words store)
  | definition expander reason => some (reason.words store expander)
  | unbound name => some do
    let shown ← store.print .display name
    return s!"The symbol {shown} has not been assigned a value"
  | headNotFunction given => some do
    let shown ← store.print .inspect given
    return s!"The first item in a list must be a function; got {shown}"
  | applyTransformer given => some do
    let shown ← store.print .inspect given
    return s!"Cannot apply macro {shown} as a function"
  | applyNonFunction given => some do
    let shown ← store.print .inspect given
    return s!"Cannot apply non-function {shown}"
  | functionArity callee required got => some do
    let shown ← store.print .inspect callee
    return s!"Function {shown} expects {required} arguments; got {got}"
  | transformerArity head required got => some do
    let shown ← store.print .display head
    return s!"Macro {shown} expects {required} arguments; got {got}"
  | argumentCount operation accepted got =>
    some (.ok s!"{operation.name} expects {accepted.words}; got {got}")
  | notNumber operation given => some do
    let shown ← store.print .source given
    return s!"All arguments to {operation.name} must be numbers; got {shown}"
  | notCollection operation given => some do
    let shown ← store.print .source given
    return s!"{operation.name} expects a collection; got {shown}"
  | uncountable given => some do
    let shown ← store.print .source given
    return s!"count not supported on {shown}"
  | indexNotWhole given => some do
    let shown ← store.print .source given
    return s!"nth index must be an integer; got {shown}"
  | indexOutOfBounds index size => some do
    let shown ← numeralWords index
    return s!"Index {shown} out of bounds for a collection of {size}"
  | targetNotFunction given => some do
    let shown ← store.print .source given
    return s!"macro expects a function; got {shown}"
  | divisionByZero => some (.ok "Division by zero")
  | notRoot => some (.ok "Interpreter needs a root environment")
  | overflow .. => none
  | unprintable => none
  | uncallable => none
  | missingPart => none
  | missingArgument _ => none

/-- The report of a fault. -/
def Fault.report (store : Store) (fault : Fault) : Report :=
  match fault.words? store with
  | none => ⟨fault.kind, none⟩
  | some (.ok words) => ⟨fault.kind, some words⟩
  | some (.error .longNumeral) => ⟨.badValue, none⟩
  | some (.error .circular) => ⟨.tooDeep, none⟩

end SmallLisp
