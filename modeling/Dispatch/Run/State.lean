import Dispatch.Named

/-! # The states of a run

* `RunState`: how far a run has come.
* `RunState.canMoveTo`: the steps a run may take.
* `RunState.terminal`: the states in which it has ended.
-/

namespace Dispatch
set_option autoImplicit false

inductive RunState where
  | built
  | solving
  | optimal
  | infeasible
  | solverError
deriving DecidableEq, Repr

instance : Named RunState where
  all := [.built, .solving, .optimal, .infeasible, .solverError]
  name
    | .built => "BUILT"
    | .solving => "SOLVING"
    | .optimal => "OPTIMAL"
    | .infeasible => "INFEASIBLE"
    | .solverError => "SOLVER_ERROR"

namespace RunState

def terminal : RunState → Bool
  | optimal | infeasible | solverError => true
  | _ => false

def canMoveTo : RunState → RunState → Bool
  | built, solving | solving, optimal | solving, infeasible | solving, solverError => true
  | _, _ => false

/-- Whether a run may go on to a state from where it is, or from nowhere yet. -/
def mayFollow : Option RunState → RunState → Bool
  | none, next => next == built
  | some current, next => current.canMoveTo next

end RunState

end Dispatch
