import Dispatch.Proofs.Exact.Basic
import Dispatch.Proofs.Run.SharedSlots
import Dispatch.Service.Traffic

/-! # What the permits bound

* `Traffic.Reachable.permits_add_holders`: no permit is lost and none is made.
* `permits_bound_attended`: the permits bound the jobs at work whose callers are still there, and no
  others; from a free permit on, any number of jobs can come to be at work at once.
* `dropped_job_works_on`: two jobs are at work with one permit.
-/

namespace Dispatch
set_option autoImplicit false

variable {α : Type}

/-! ## One event -/

namespace JobStage
variable {stage next : JobStage α} {event : JobEvent α} {s s' : Service α}

theorem abandon?_permits (h : stage.abandon? s = some (next, s')) :
    s'.permits + next.holdsPermit.toNat = s.permits + stage.holdsPermit.toNat := by
  cases stage <;> cases h <;> rfl

/-- A permit that leaves the service is held by the job, and one that the job gives up comes back. -/
theorem after?_permits (h : stage.after? event s = some (next, s')) :
    s'.permits + next.holdsPermit.toNat = s.permits + stage.holdsPermit.toNat := by
  unfold after? at h
  split at h
  case h_1 =>
    obtain ⟨taken, htaken, h⟩ := Option.map_eq_some_iff.mp h
    cases h
    exact Service.takePermit?_permits htaken
  case h_7 => exact abandon?_permits h
  case h_8 => cases h
  all_goals cases h; rfl

end JobStage

namespace Traffic
variable {start t u : Traffic α} {i : ℕ} {event : JobEvent α}

theorem after?_permits (h : t.after? i event = some u) :
    u.service.permits + u.holders = t.service.permits + t.holders := by
  obtain ⟨stage, next, service, hstage, hnext, rfl⟩ := after?_eq_some_iff.mp h
  have hcount := countP_set_add hstage next JobStage.holdsPermit
  have hpermits := JobStage.after?_permits hnext
  simp only [holders]
  omega

theorem holders_submit (t : Traffic α) : t.submit.holders = t.holders := by
  simp [holders, submit, JobStage.holdsPermit]

/-! ## Every run -/

theorem Reachable.permits_add_holders (h : start.Reachable t) :
    t.service.permits + t.holders = start.service.permits + start.holders := by
  induction h with
  | refl => rfl
  | submit _ ih => rw [holders_submit]; exact ih
  | step _ _ _ hstep ih => exact (after?_permits hstep).trans ih

/-- What is at work holds a permit, or its caller has gone away. -/
theorem atWork_le (t : Traffic α) : t.atWork ≤ t.holders + t.orphans := by
  unfold atWork holders orphans
  induction t.jobs with
  | nil => rfl
  | cons stage jobs ih =>
    simp only [List.countP_cons]
    cases stage <;> simp [JobStage.isAtWork, JobStage.holdsPermit, JobStage.isOrphaned] <;> omega

/-! ## Callers that go away -/

theorem after?_last {s s' : Service α} {jobs : List (JobStage α)} {stage next : JobStage α}
    (h : stage.after? event s = some (next, s')) :
    after? ⟨s, jobs ++ [stage]⟩ jobs.length event = some ⟨s', jobs ++ [next]⟩ := by
  refine after?_eq_some_iff.mpr ⟨stage, next, s', List.getElem?_concat_length, h, ?_⟩
  simp [List.set_append_right]

/-- A caller comes, and goes away while its job is at work. -/
theorem Reachable.orphan (now : Span) (h : start.Reachable t) (hfree : 0 < t.service.permits) :
    start.Reachable ⟨t.service.begin now, t.jobs ++ [.orphaned]⟩ := by
  have hadmitted := h.submit.step t.jobs.length .takePermit
    (after?_last (by rw [JobStage.after?, Service.takePermit?_of_pos hfree]; rfl))
  have hworking := hadmitted.step t.jobs.length (.begin now) (after?_last rfl)
  have horphaned := hworking.step t.jobs.length .drop (after?_last rfl)
  have hgiven : Service.givePermit
      (Service.begin { t.service with permits := t.service.permits - 1 } now) =
        t.service.begin now := by
    simp only [Service.givePermit, Service.begin]
    congr 1
    omega
  rwa [hgiven] at horphaned

theorem Reachable.orphan_many (h : start.Reachable t) (hfree : 0 < t.service.permits) (n : ℕ) :
    ∃ u, start.Reachable u ∧ u.atWork = t.atWork + n ∧ u.service.permits = t.service.permits := by
  induction n with
  | zero => exact ⟨t, h, rfl, rfl⟩
  | succ n ih =>
    obtain ⟨u, hu, hwork, hpermits⟩ := ih
    refine ⟨_, hu.orphan Span.zero (hpermits ▸ hfree), ?_, hpermits⟩
    rw [atWork, List.countP_append, ← atWork, hwork]
    rfl

end Traffic

/-- Every permit is free or held by one job. Jobs at work whose callers are still there hold one each,
so there are no more of them than permits; the others hold none, and as long as a permit is free any
number of jobs can come to be at work at once. -/
theorem permits_bound_attended {capacity : ℕ} {t : Traffic α}
    (h : (Traffic.ofService (.ofCapacity capacity)).Reachable t) :
    t.service.permits + t.holders = max capacity 1 ∧
      t.atWork ≤ max capacity 1 + t.orphans ∧
      (0 < t.service.permits → ∀ n, ∃ u, t.Reachable u ∧ u.atWork = t.atWork + n ∧
        u.service.permits = t.service.permits) := by
  have hpermits : t.service.permits + t.holders = max capacity 1 := h.permits_add_holders
  have hwork := t.atWork_le
  exact ⟨hpermits, by omega, fun hfree n => Traffic.Reachable.refl.orphan_many hfree n⟩

/-- The one permit is free again while the job of a caller that has gone away is at work, and three
more jobs come to be at work beside it. -/
theorem orphan_leaves_permit_free : ∃ t u : Traffic Exact,
    (Traffic.ofService (.ofCapacity 1)).Reachable t ∧ t.jobs = [.orphaned] ∧ t.atWork = 1 ∧
      t.service.permits = 1 ∧ t.holders = 0 ∧ t.Reachable u ∧ u.atWork = 4 := by
  have horphaned : (Traffic.ofService (Service.ofCapacity (α := Exact) 1)).Reachable _ :=
    Traffic.Reachable.refl.orphan Span.zero (by decide)
  obtain ⟨-, -, hmore⟩ := permits_bound_attended horphaned
  obtain ⟨u, hu, hwork, -⟩ := hmore (by decide) 3
  exact ⟨_, u, horphaned, rfl, rfl, rfl, rfl, hu, hwork⟩

/-- With one permit, one job is at work whose caller has gone away and another whose caller waits. -/
theorem dropped_job_works_on : ∃ t : Traffic Exact,
    (Traffic.ofService (.ofCapacity 1)).Reachable t ∧ t.jobs = [.orphaned, .working Span.zero] ∧
      ¬t.atWork ≤ max 1 1 := by
  have horphaned : (Traffic.ofService (Service.ofCapacity (α := Exact) 1)).Reachable _ :=
    Traffic.Reachable.refl.orphan Span.zero (by decide)
  have hadmitted := horphaned.submit.step 1 .takePermit rfl
  exact ⟨_, hadmitted.step 1 (.begin Span.zero) rfl, rfl, by decide⟩

end Dispatch
