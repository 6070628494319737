import SmallLisp.ReadError
import SmallLisp.SpecialForm

/-!
# Faults

A fault is the reason why reading, checking or evaluating a program ended without a value. It holds
the values it speaks of rather than words; `SmallLisp.Fault.Report` puts it into words.

* `ReadError`: the text is at fault.
* `ShapeError`: a special form does not have the shape it must have. These are the faults that
  checking a program finds before it runs.
* `BindError`: a name or a pattern could not be bound.
* `DefinitionError`: a defining form of the library lacks its parts.
* the other faults come up while a program runs.
-/

namespace SmallLisp

/-- What is wrong with the operands of a special form. -/
inductive ShapeError
  /-- Their number is not the one required. -/
  | exactly (required got : Nat)
  /-- There are too few of them. -/
  | atLeast (least got : Nat)
  /-- The first one, which holds bindings or parameters, is not a vector. -/
  | notVector
  /-- The bindings are odd in number. -/
  | unpaired (got : Nat)
  /-- A binding target is neither a symbol nor a vector. -/
  | target (pattern : Value)
  /-- The first one, which is to be defined, is not a symbol. -/
  | notSymbol (given : Value)
deriving Repr

/-- Why a name or a pattern could not be bound. -/
inductive BindError
  /-- What was to be bound is not a symbol. -/
  | notName (given : Value)
  /-- The name is bound already, in a frame that binds each name once. -/
  | duplicate (name : String)
  /-- The pattern is neither a symbol nor a vector. -/
  | target (pattern : Value)
  /-- A vector pattern met a map. -/
  | mapValue
  /-- A vector pattern met a value that is no sequence. -/
  | notSequential (given : Value)
deriving Repr

/-- What a defining form of the library lacks. -/
inductive DefinitionError
  /-- It has too few parts. -/
  | tooFew (got : Nat)
  /-- The name is not a symbol. -/
  | notSymbol (given : Value)
  /-- The parameters are not a vector. -/
  | notVector (given : Value)
deriving Repr

/-- How many arguments an operation accepts. -/
inductive ArgumentCount
  | atLeastOne | one | two | twoOrThree | even
deriving DecidableEq, Repr

/-- Why there is no value. -/
inductive Fault
  /-- The text cannot be read. -/
  | read (reason : ReadError)
  /-- A special form is out of shape. -/
  | shape (form : SpecialForm) (reason : ShapeError)
  /-- Something could not be bound. -/
  | bind (reason : BindError)
  /-- A defining form of the library is out of shape. -/
  | definition (expander : Expander) (reason : DefinitionError)
  /-- A name is bound in no frame of the scope. -/
  | unbound (name : Value)
  /-- The head of a list does not evaluate to something that can be called. -/
  | headNotFunction (given : Value)
  /-- A transformer was applied to values. -/
  | applyTransformer (given : Value)
  /-- A value that is no function was applied. -/
  | applyNonFunction (given : Value)
  /-- A function got a wrong number of arguments. -/
  | functionArity (callee : Value) (required got : Nat)
  /-- A transformer got a wrong number of forms; it requires the given number, which is negative for
  a target that does not even take the call and the scope. -/
  | transformerArity (head : Value) (required : Int) (got : Nat)
  /-- An operation got a wrong number of arguments. -/
  | argumentCount (operation : Builtin) (accepted : ArgumentCount) (got : Nat)
  /-- An operation on numbers got something else. -/
  | notNumber (operation : Builtin) (given : Value)
  /-- An operation on collections got something else. -/
  | notCollection (operation : Builtin) (given : Value)
  /-- Something that has no size was to be counted. -/
  | uncountable (given : Value)
  /-- An index is not a whole number. -/
  | indexNotWhole (given : Value)
  /-- An index lies outside the collection. -/
  | indexOutOfBounds (index : Int) (size : Nat)
  /-- What was to become a transformer is no function. -/
  | targetNotFunction (given : Value)
  /-- A divisor is zero. -/
  | divisionByZero
  /-- An operation met a whole number that is too large for the binary64 format, or whose quotient
  by another one is. -/
  | overflow (operation : Builtin) (n : Int)
  /-- A whole number with too many digits was to be printed. -/
  | unprintable
  /-- The host called something that it cannot call, or a function whose parameters it cannot go
  through. -/
  | uncallable
  /-- Something was taken apart that does not have the parts. What is taken apart was checked
  before, so this should not come up. -/
  | missingPart
  /-- A host function was called with fewer arguments than it has parameters. -/
  | missingArgument (callee : Value)
  /-- A session was to be started in a frame that is no root. -/
  | notRoot
deriving Repr

end SmallLisp
