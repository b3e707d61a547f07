import Dispatch.Run.State
import Dispatch.Run.Watch
import Dispatch.Schedule.Basic

/-! # One run

* `SolveSettings`: the time allowed, the tolerance, the margin of the bounds and the preference.
* `attempt`: build the program of a problem, have it solved, check the answer, and tell it as a
  schedule. The state of the run moves on with it, and stays where it is when the run crashes.
-/

namespace Dispatch
set_option autoImplicit false

structure SolveSettings (α : Type) where
  budget : Span
  /-- Time granted on top of the budget before a solve is given up. -/
  grace : Span
  tolerance : α
  margin : α
  tieBreak : TieBreak α
deriving DecidableEq, Repr

namespace SolveSettings

def standard {α : Type} [Scalar α] : SolveSettings α where
  budget := Span.ofSeconds 30
  grace := Span.ofSeconds 2
  tolerance := Scalar.lit 1 6
  margin := Scalar.lit 1 1
  tieBreak := .standard

end SolveSettings

variable {α σ : Type} [Scalar α]

abbrev Run (σ β : Type) := StateT (Option RunState) (StateM (World σ)) β

namespace Run

/-- Move on; a step that no run may take is taken and warned of. -/
def moveTo (next : RunState) : Run σ Unit := do
  unless RunState.mayFollow (← get) next do
    liftM (World.warn (σ := σ) .unexpectedTransition)
  set (some next)

end Run

def tellDevice (p : Problem α) (tolerance : α) (values : Assignment α) (d : Device α)
    (columns : DeviceColumns) : Except (Failure α) (DevicePlan α × DeviceSchedule α) := do
  let plan ← (Plan.readDevice p tolerance values d columns).mapError Failure.ofSolve
  let told ← (Schedule.device p.grid d plan).mapError Failure.invalid
  return (plan, told)

/-- Check what the solver answered and tell it as a schedule, device by device. -/
def readAnswer (p : Problem α) (h : Handles α) (o : Objective α) (tolerance : α)
    (version : String) (values : Assignment α) : Except (Failure α) (Schedule α) := do
  let devices ← (p.devices.zip h.devices).mapM fun (d, columns) =>
    tellDevice p tolerance values d columns
  let plan := Plan.ofDevices p tolerance (devices.map Prod.fst)
  (plan.check p h tolerance values).mapError Failure.ofSolve
  let costs := o.evaluate h fun i => (values i).getD 0
  (Schedule.ofPlan p plan (devices.map Prod.snd) costs version).mapError Failure.invalid

/-- The state that a run ends in; none if the run crashes. -/
def endState? : Except (Failure α) (Schedule α) → Option RunState
  | .ok _ => some .optimal
  | .error (.infeasible _) => some .infeasible
  | .error (.solver _) => some .solverError
  | .error (.invalid _) => none

def attempt (settings : SolveSettings α) (solver : Solver α σ) (p : Problem α) :
    Run σ (Except (Failure α) (Schedule α)) := do
  match p.model settings.margin with
  | .error fault => return .error (.invalid fault)
  | .ok model => do
    let objective := Objective.compose p model.handles settings.tieBreak
    Run.moveTo .built
    Run.moveTo .solving
    let answer ← liftM
      (solveWatched solver (model.program objective) settings.budget settings.grace)
    let result : Except (Failure α) (Schedule α) :=
      match answer with
      | .error fault => .error (.invalid fault)
      | .ok (.error fault) => .error (.ofSolve fault)
      | .ok (.ok values) =>
        readAnswer p model.handles objective settings.tolerance ("milp/" ++ solver.name) values
    match endState? result with
    | none => return result
    | some next => do
      Run.moveTo next
      if next = .solverError then liftM (World.warn (σ := σ) .solveFailed)
      return result

end Dispatch
