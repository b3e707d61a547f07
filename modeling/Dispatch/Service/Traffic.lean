import Dispatch.Service.Basic

/-! # Jobs that come in at once

* `JobStage`: how far a job has come.
* `JobEvent`: what may happen to a job.
* `JobStage.after?`: the stage and the service after an event; none if the event cannot happen.
* `Traffic`: the service and the stages of all jobs.
* `Traffic.Reachable`: what the jobs can come to, whatever the order of the events.
* `Traffic.Attended`: the same as long as every caller stays, together with the log of what was
  recorded.

A caller that goes away leaves its permit behind at once, also while its job is at work; what is at
work goes on to its end, and nothing is recorded of it.
-/

namespace Dispatch
set_option autoImplicit false

variable {α : Type}

inductive JobStage (α : Type) where
  /-- For a permit. -/
  | waiting
  | admitted
  | working (began : Span)
  | finished (began : Span) (result : Except (Failure α) (Schedule α))
  | recorded (result : Except (Failure α) (Schedule α))
  | orphaned
  /-- With the result that the caller was handed, if it was still there. -/
  | ended (result : Option (Except (Failure α) (Schedule α)))
deriving Repr

inductive JobEvent (α : Type) where
  | takePermit
  | begin (now : Span)
  /-- The job comes to an answer, or crashes. -/
  | finish (answer : Except (Failure α) (Schedule α))
  | record
  | leave
  | drop
deriving Repr

namespace JobStage

def isAtWork : JobStage α → Bool
  | working _ | orphaned => true
  | _ => false

def holdsPermit : JobStage α → Bool
  | admitted | working _ | finished _ _ | recorded _ => true
  | _ => false

/-- It has begun and has not been recorded. -/
def isPending : JobStage α → Bool
  | working _ | finished _ _ => true
  | _ => false

def isOrphaned : JobStage α → Bool
  | orphaned => true
  | _ => false

/-- What has been recorded of it. -/
def result? : JobStage α → Option (Except (Failure α) (Schedule α))
  | recorded result => some result
  | ended result => result
  | _ => none

/-- The result that an event records. -/
def noted? : JobStage α → JobEvent α → Option (Except (Failure α) (Schedule α))
  | finished _ result, .record => some result
  | _, _ => none

/-- What becomes of a job whose caller goes away. Once a job is recorded its caller has the result. -/
def abandon? : JobStage α → Service α → Option (JobStage α × Service α)
  | waiting, s => some (ended none, s)
  | working _, s => some (orphaned, s.givePermit)
  | admitted, s | finished _ _, s => some (ended none, s.givePermit)
  | recorded _, _ | orphaned, _ | ended _, _ => none

def after? (stage : JobStage α) (event : JobEvent α) (s : Service α) :
    Option (JobStage α × Service α) :=
  match stage, event with
  | waiting, .takePermit => s.takePermit?.map fun s => (admitted, s)
  | admitted, .begin now => some (working now, s.begin now)
  | working began, .finish answer => some (finished began (Job.outcome answer), s)
  | finished began result, .record => some (recorded result, s.record began result)
  | recorded result, .leave => some (ended (some result), s.givePermit)
  | orphaned, .finish _ => some (ended none, s)
  | stage, .drop => stage.abandon? s
  | _, _ => none

end JobStage

structure Traffic (α : Type) where
  service : Service α
  jobs : List (JobStage α)
deriving Repr

namespace Traffic

/-- Before the first job. -/
def ofService (service : Service α) : Traffic α := ⟨service, []⟩

def atWork (t : Traffic α) : Nat := t.jobs.countP JobStage.isAtWork

def holders (t : Traffic α) : Nat := t.jobs.countP JobStage.holdsPermit

def pending (t : Traffic α) : Nat := t.jobs.countP JobStage.isPending

def orphans (t : Traffic α) : Nat := t.jobs.countP JobStage.isOrphaned

/-- One more job. -/
def submit (t : Traffic α) : Traffic α := ⟨t.service, t.jobs ++ [.waiting]⟩

def after? (t : Traffic α) (i : Nat) (event : JobEvent α) : Option (Traffic α) := do
  let stage ← t.jobs[i]?
  let (next, service) ← stage.after? event t.service
  return ⟨service, t.jobs.set i next⟩

theorem after?_eq_some_iff {t u : Traffic α} {i : Nat} {event : JobEvent α} :
    t.after? i event = some u ↔ ∃ stage next service, t.jobs[i]? = some stage ∧
      stage.after? event t.service = some (next, service) ∧ u = ⟨service, t.jobs.set i next⟩ := by
  simp only [after?, Option.bind_eq_bind, Option.bind_eq_some_iff, Option.pure_def,
    Option.some.injEq, Prod.exists]
  grind

inductive Reachable (start : Traffic α) : Traffic α → Prop where
  | refl : Reachable start start
  | submit {t : Traffic α} : Reachable start t → Reachable start t.submit
  | step {t u : Traffic α} (i : Nat) (event : JobEvent α) :
      Reachable start t → t.after? i event = some u → Reachable start u

/-- What an event puts into the log: the job and its result when it is recorded. -/
def noted (t : Traffic α) (i : Nat) (event : JobEvent α) :
    List (Nat × Except (Failure α) (Schedule α)) :=
  match t.jobs[i]?.bind fun stage => stage.noted? event with
  | some result => [(i, result)]
  | none => []

inductive Attended (start : Traffic α) :
    List (Nat × Except (Failure α) (Schedule α)) → Traffic α → Prop where
  | refl : Attended start [] start
  | submit {log : List (Nat × Except (Failure α) (Schedule α))} {t : Traffic α} :
      Attended start log t → Attended start log t.submit
  | step {log : List (Nat × Except (Failure α) (Schedule α))} {t u : Traffic α} (i : Nat)
      (event : JobEvent α) : Attended start log t → event ≠ .drop → t.after? i event = some u →
      Attended start (log ++ t.noted i event) u

end Traffic

end Dispatch
