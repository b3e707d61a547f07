import Dispatch.Request.RunOnce

/-! # Why there is no schedule

* `SolveFault`: what a solver, or the watch over it, can answer instead of a plan.
* `Rejection`: which check a plan failed that a solver handed back.
* `Failure`: why a scheduling run ends without a schedule: an invalid input, a proof that there is
  none, or a failed solve.
* `Failure.retryable`: whether another attempt is worth while.
* `Failure.status`: the status a caller sees.
-/

namespace Dispatch
set_option autoImplicit false

inductive ScheduleStatus where
  | optimal
  | infeasible
  | solverError
deriving DecidableEq, Repr

instance : Named ScheduleStatus where
  all := [.optimal, .infeasible, .solverError]
  name
    | .optimal => "OPTIMAL"
    | .infeasible => "INFEASIBLE"
    | .solverError => "SOLVER_ERROR"

inductive Rejection (α : Type) where
  | misSigned (device : String) (slot : Nat)
  | bothHalves (device : String) (slot : Nat)
  | powerBand (device : String) (slot : Nat)
  | stockLimits (device : String) (slot : Nat)
  | siteFlow (flow : α) (slot : Nat)
  | unlinked (commitment : String) (slot : Nat)
deriving DecidableEq, Repr

inductive SolveTrouble (α : Type) where
  | incomplete
  | rejected (cause : Rejection α)
  | died
  | slotsBusy (capacity : Nat) (waited : Span)
  | crashed
  | stated (reason : String)
deriving DecidableEq, Repr

inductive SolveFault (α : Type) where
  | infeasible
  | unbounded
  | timeout (budget : Span)
  | failed (cause : SolveTrouble α)
deriving DecidableEq, Repr

inductive Infeasibility where
  | proved
  | unplaceable (name : String) (kind : ProcessKind) (slots : Nat) (cause : PlacementFault)
  | stated (reason : String)
deriving DecidableEq, Repr

inductive Failure (α : Type) where
  | invalid (fault : Fault α)
  | infeasible (cause : Infeasibility)
  | solver (fault : SolveFault α)
deriving DecidableEq, Repr

namespace Failure
variable {α : Type}

/-- An infeasible program means that there is no schedule; any other fault is the solver's. -/
def ofSolve : SolveFault α → Failure α
  | .infeasible => infeasible .proved
  | fault => solver fault

/-- Timeouts and failed solves may go better another time. -/
def retryable : Failure α → Bool
  | solver (.timeout _) | solver (.failed _) => true
  | _ => false

def status : Failure α → Option ScheduleStatus
  | invalid _ => none
  | infeasible _ => some .infeasible
  | solver _ => some .solverError

def kindName : Failure α → String
  | invalid fault => fault.kind.name
  | infeasible _ => "Infeasible"
  | solver .infeasible => "Solver.Infeasible"
  | solver .unbounded => "Solver.Unbounded"
  | solver (.timeout _) => "Solver.Timeout"
  | solver (.failed _) => "Solver.Failed"

end Failure

/-! ## Sentences -/

namespace Infeasibility

def message : Infeasibility → String
  | proved => "the solver proved the model infeasible"
  | unplaceable name kind slots cause =>
    "process `" ++ name ++ "` (" ++ Named.name kind ++ ", " ++ toString slots ++ " slots): " ++
      cause.message
  | stated reason => reason

end Infeasibility

section
variable {α : Type} [Scalar α] [NumText α]

namespace Rejection

def message : Rejection α → String
  | misSigned device slot => device ++ " has a mis-signed flow in slot " ++ toString slot
  | bothHalves device slot => device ++ " charges and discharges in slot " ++ toString slot
  | powerBand device slot => device ++ " leaves its power band in slot " ++ toString slot
  | stockLimits device slot => device ++ " replays out of its stock bounds in slot " ++ toString slot
  | siteFlow flow slot =>
    "site flow " ++ NumText.numText flow ++ " outside its bounds in slot " ++ toString slot
  | unlinked commitment slot =>
    "commitment `" ++ commitment ++ "` unlinked in slot " ++ toString slot

end Rejection

namespace SolveTrouble

def message : SolveTrouble α → String
  | incomplete => "solver returned an incomplete assignment"
  | rejected cause => "solution failed verification: " ++ cause.message
  | died => "solver thread ended without a result"
  | slotsBusy capacity waited =>
    "all " ++ toString capacity ++ " solver slots stayed busy for " ++ waited.prose
  | crashed => "scheduling job did not complete"
  | stated reason => reason

end SolveTrouble

namespace SolveFault

def message : SolveFault α → String
  | infeasible => "model is infeasible"
  | unbounded => "model is unbounded"
  | timeout budget => "solver exceeded its time budget of " ++ budget.prose
  | failed cause => "solver failed: " ++ cause.message

end SolveFault

namespace Failure

def message : Failure α → String
  | invalid fault => fault.message
  | infeasible cause => "no feasible schedule under these constraints: " ++ cause.message
  | solver fault => "scheduling failed: " ++ fault.message

end Failure

end

end Dispatch
