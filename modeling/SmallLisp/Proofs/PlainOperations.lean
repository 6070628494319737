import SmallLisp.Evaluator

/-!
# What an operation gives

An operation without effects gives the same wherever it is applied: at any depth, on any machine,
under any serial number. `Builtin.Gives` says so of one row of arguments, and is what the theorems
on numbers and on collections are stated with.
-/

namespace SmallLisp.Builtin

/-- The operation comes to this, wherever it is applied, and does nothing else. -/
def Gives (operation : Builtin) (args : List Value) (result : Except Fault Value) : Prop :=
  ∀ depth serial : Nat,
    (Engine.ofDepth (depth + 1)).apply (.host serial (.builtin operation)) args =
      Run.ofExcept result

variable {operation : Builtin} {args : List Value} {result result' : Except Fault Value}

/-- An operation comes to one result. -/
theorem Gives.unique (h : operation.Gives args result) (h' : operation.Gives args result') :
    result = result' := by
  have heq := congrFun ((h 0 0).symm.trans (h' 0 0)) (.fresh false)
  cases result <;> cases result' <;> cases heq <;> rfl

/-- An operation without effects gives what its function gives. -/
theorem gives_plain {compute : List Value → Except Fault Value}
    (hplain : operation.plain? = some compute) (h : compute args = result) :
    operation.Gives args result := fun depth serial => by
  subst h
  show (Engine.ofDepth depth).callBuiltin operation args = _
  unfold Engine.callBuiltin
  rw [hplain]

end SmallLisp.Builtin
