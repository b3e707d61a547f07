import Dispatch.Run.Retry
import Dispatch.Service.Status

/-! # The scheduling service

* `Job`: a request, or a problem made from one already.
* `Service`: the permits that no job holds, and the status.
* `Service.takePermit?`, `Service.begin`, `Service.record`, `Service.givePermit`: the steps of a job.
* `Desk`: a service together with the world its jobs run in.
* `runJob`, `runJobs`: one job from its permit to its result, and several of them.

The permits bound the jobs at work, the slots of the watch bound the solvers at work, those of jobs
that have given up included.
-/

namespace Dispatch
set_option autoImplicit false

inductive Job (α : Type) where
  | request (r : Request α)
  | problem (p : Problem α)

variable {α σ : Type}

/-! ## Permits -/

structure Service (α : Type) where
  permits : Nat
  status : ServiceStatus α
deriving DecidableEq, Repr

namespace Service

def ofCapacity (jobs : Nat) : Service α := ⟨max jobs 1, .fresh⟩

def takePermit? (s : Service α) : Option (Service α) :=
  if s.permits = 0 then none else some { s with permits := s.permits - 1 }

def begin (s : Service α) (now : Span) : Service α := { s with status := s.status.begun now }

def record (s : Service α) (began : Span) (result : Except (Failure α) (Schedule α)) : Service α :=
  { s with status := s.status.recorded began result }

def givePermit (s : Service α) : Service α := { s with permits := s.permits + 1 }

theorem takePermit?_of_pos {s : Service α} (h : 0 < s.permits) :
    s.takePermit? = some { s with permits := s.permits - 1 } := by
  rw [takePermit?, if_neg (by omega)]

theorem takePermit?_permits {s t : Service α} (h : s.takePermit? = some t) :
    t.givePermit.permits = s.permits := by
  simp only [takePermit?, Option.ite_none_left_eq_some, Option.some.injEq] at h
  obtain ⟨hs, rfl⟩ := h
  simp only [givePermit]
  omega

end Service

/-! ## Jobs -/

section
variable [Scalar α]

def Job.run (settings : SchedulerSettings α) (solver : Solver α σ) :
    Job α → StateM (World σ) (Except (Failure α) (Schedule α))
  | .request r => scheduleRequest settings solver r
  | .problem p => scheduleProblem settings solver p

/-- A job that crashes fails like a solver that does. -/
def Job.outcome : Except (Failure α) (Schedule α) → Except (Failure α) (Schedule α)
  | .error (.invalid .unrepresentable) => .error (.solver (.failed .crashed))
  | result => result

structure Desk (α σ : Type) where
  service : Service α
  world : World σ

namespace Desk

def ofCapacity (jobs : Nat) (solver : σ) : Desk α σ :=
  ⟨.ofCapacity jobs, .ofSlots (.ofCapacity jobs) solver⟩

def settle (d : Desk α σ) : Desk α σ := { d with world.watch := d.world.watch.settle }

end Desk

/-- A job waits for a permit, begins, runs, is recorded and gives the permit back. -/
def runJob (settings : SchedulerSettings α) (solver : Solver α σ) (job : Job α) :
    StateM (Desk α σ) (Except (Failure α) (Schedule α)) :=
  fun desk =>
    let now := desk.world.watch.now
    let service := (desk.service.takePermit?.getD desk.service).begin now
    let (answer, world) := (job.run settings solver).run desk.world
    let result := Job.outcome answer
    (result, ⟨(service.record now result).givePermit, world⟩)

theorem runJob_permits (settings : SchedulerSettings α) (solver : Solver α σ) (job : Job α)
    (desk : Desk α σ) (h : 0 < desk.service.permits) :
    (runJob settings solver job desk).2.service.permits = desk.service.permits := by
  simp only [runJob, Service.takePermit?_of_pos h, Option.getD_some, Service.begin, Service.record,
    Service.givePermit]
  exact Nat.sub_add_cancel h

def runJobs (settings : SchedulerSettings α) (solver : Solver α σ) (jobs : List (Job α)) :
    StateM (Desk α σ) (List (Except (Failure α) (Schedule α))) :=
  jobs.mapM (runJob settings solver)

end

end Dispatch
