import Dispatch.Run.Attempt
import Dispatch.Request.Problem

/-! # Retries

* `RetryPolicy`: how often a failed solve is tried again, and how the budget grows.
* `Span.grown?`: a budget times a factor, to the nearest nanosecond.
* `solveProblem`: one attempt.
* `scheduleProblem`: attempts with growing budgets until one ends otherwise than by a failed solve.
* `scheduleRequest`: the same from a request on.
-/

namespace Dispatch
set_option autoImplicit false

structure RetryPolicy (α : Type) where
  maxAttempts : Nat
  growth : α
deriving DecidableEq, Repr

structure SchedulerSettings (α : Type) where
  solve : SolveSettings α
  retry : RetryPolicy α
  /-- Whether storages charge sooner that do not say so themselves. -/
  chargeSooner : Bool
deriving DecidableEq, Repr

variable {α σ : Type} [Scalar α]

namespace RetryPolicy

def standard : RetryPolicy α := ⟨3, Scalar.ofNat 2⟩

end RetryPolicy

namespace Span

/-- A span in seconds, for spans that are not negative. -/
def seconds (d : Span) : α :=
  Scalar.ofInt (d.nanos / 1000000000) +
    Scalar.ofInt (d.nanos % 1000000000) / Scalar.ofNat 1000000000

/-- None if the product is negative or no number, or too long to wait for. -/
def grown? (d : Span) (factor : α) : Option Span :=
  let product : α := factor * d.seconds
  match Scalar.roundTimes? 1000000000 product with
  | none => none
  | some n =>
    if Scalar.lt product 0 then none
    else if n < longest.nanos then some ⟨n⟩ else none

end Span

/-- One attempt with a budget of its own. -/
def solveProblem (settings : SchedulerSettings α) (solver : Solver α σ) (p : Problem α)
    (budget : Span) : StateM (World σ) (Except (Failure α) (Schedule α)) := do
  let (result, _) ← (attempt { settings.solve with budget := budget } solver p).run none
  return result

/-- Attempts from this budget on, with so many retries left. -/
def attemptsFrom (settings : SchedulerSettings α) (solver : Solver α σ) (p : Problem α) :
    Nat → Span → StateM (World σ) (Except (Failure α) (Schedule α))
  | 0, budget => solveProblem settings solver p budget
  | retries + 1, budget => do
    let result ← solveProblem settings solver p budget
    match result with
    | .ok schedule => return .ok schedule
    | .error failure =>
      if failure.retryable then
        match budget.grown? settings.retry.growth with
        | none => return .error (.invalid .unrepresentable)
        | some next => do
          World.warn .retrying
          attemptsFrom settings solver p retries next
      else return .error failure

def scheduleProblem (settings : SchedulerSettings α) (solver : Solver α σ) (p : Problem α) :
    StateM (World σ) (Except (Failure α) (Schedule α)) :=
  attemptsFrom settings solver p (settings.retry.maxAttempts - 1) settings.solve.budget

def scheduleRequest (settings : SchedulerSettings α) (solver : Solver α σ) (r : Request α) :
    StateM (World σ) (Except (Failure α) (Schedule α)) := do
  let (problem, warnings) := r.toProblem settings.chargeSooner
  warnings.forM World.warn
  match problem with
  | .error failure => return .error failure
  | .ok p => scheduleProblem settings solver p

end Dispatch
