import Dispatch.Schedule.Basic

/-! # What a service has done

* `ServiceStatus`: when jobs began and succeeded, the last error, and how many jobs began and how they
  ended.
* `ServiceStatus.begun`, `ServiceStatus.recorded`: a job begins; a job has ended.

Every job that begins adds one to the runs, and every job that has ended adds one to exactly one of the
other counters.
-/

namespace Dispatch
set_option autoImplicit false

variable {α : Type}

structure ServiceStatus (α : Type) where
  lastRun : Option Span
  lastSuccess : Option Span
  /-- None once a job has succeeded. -/
  lastError : Option (Failure α)
  runs : Nat
  successes : Nat
  infeasible : Nat
  errors : Nat
deriving DecidableEq, Repr

namespace ServiceStatus

def fresh : ServiceStatus α := ⟨none, none, none, 0, 0, 0, 0⟩

def begun (s : ServiceStatus α) (now : Span) : ServiceStatus α :=
  { s with lastRun := some now, runs := s.runs + 1 }

/-- A success is dated from the beginning of its job. -/
def recorded (s : ServiceStatus α) (began : Span) (result : Except (Failure α) (Schedule α)) :
    ServiceStatus α :=
  match result with
  | .ok _ => { s with
      lastSuccess := some began, successes := s.successes + 1, lastError := none }
  | .error (.infeasible cause) => { s with
      infeasible := s.infeasible + 1, lastError := some (.infeasible cause) }
  | .error failure => { s with errors := s.errors + 1, lastError := some failure }

def ended (s : ServiceStatus α) : Nat := s.successes + s.infeasible + s.errors

@[simp] theorem begun_ended (s : ServiceStatus α) (now : Span) : (s.begun now).ended = s.ended := rfl

@[simp] theorem begun_runs (s : ServiceStatus α) (now : Span) :
    (s.begun now).runs = s.runs + 1 := rfl

theorem recorded_ended (s : ServiceStatus α) (began : Span)
    (result : Except (Failure α) (Schedule α)) : (s.recorded began result).ended = s.ended + 1 := by
  rcases result with failure | schedule
  · cases failure <;> simp [recorded, ended] <;> omega
  · simp [recorded, ended]; omega

theorem recorded_runs (s : ServiceStatus α) (began : Span)
    (result : Except (Failure α) (Schedule α)) : (s.recorded began result).runs = s.runs := by
  rcases result with failure | schedule
  · cases failure <;> rfl
  · rfl

end ServiceStatus

end Dispatch
