import Dispatch.Proofs.Service.Permits

/-! # What the status of a service counts

* `JobOutcome`: which counter a result adds to.
* `Traffic.Accounted`: the status tells what the log of recorded results says.
* `jobs_accounted`: so it does after every run in which no caller goes away, whatever the order of
  what happens to the jobs.
* `runJobs_attended`: jobs that run one after the other are such a run.
-/

namespace Dispatch
set_option autoImplicit false

variable {α σ : Type}

inductive JobOutcome where
  | succeeded
  | infeasible
  | failed
deriving DecidableEq, Repr

def JobOutcome.of : Except (Failure α) (Schedule α) → JobOutcome
  | .ok _ => succeeded
  | .error (.infeasible _) => infeasible
  | .error _ => failed

def failure? : Except (Failure α) (Schedule α) → Option (Failure α)
  | .ok _ => none
  | .error failure => some failure

theorem failure?_eq_none_iff {result : Except (Failure α) (Schedule α)} :
    failure? result = none ↔ JobOutcome.of result = .succeeded := by
  rcases result with failure | schedule
  · cases failure <;> simp [failure?, JobOutcome.of]
  · simp [failure?, JobOutcome.of]

namespace ServiceStatus

def count (s : ServiceStatus α) : JobOutcome → ℕ
  | .succeeded => s.successes
  | .infeasible => s.infeasible
  | .failed => s.errors

theorem recorded_count (s : ServiceStatus α) (began : Span)
    (result : Except (Failure α) (Schedule α)) (k : JobOutcome) :
    (s.recorded began result).count k = s.count k + if JobOutcome.of result = k then 1 else 0 := by
  rcases result with failure | schedule
  · cases failure <;> cases k <;> simp [recorded, count, JobOutcome.of]
  · cases k <;> simp [recorded, count, JobOutcome.of]

theorem recorded_lastError (s : ServiceStatus α) (began : Span)
    (result : Except (Failure α) (Schedule α)) :
    (s.recorded began result).lastError = failure? result := by
  rcases result with failure | schedule
  · cases failure <;> rfl
  · rfl

end ServiceStatus

/-! ## One event -/

theorem Service.takePermit?_status {s s' : Service α} (h : s.takePermit? = some s') :
    s'.status = s.status := by
  simp only [takePermit?, Option.ite_none_left_eq_some, Option.some.injEq] at h
  rw [← h.2]

namespace JobStage
variable {stage next : JobStage α} {event : JobEvent α} {s s' : Service α}
  {result : Except (Failure α) (Schedule α)}

/-- A run is counted when a job begins and its end when it is recorded. -/
theorem after?_runs (h : stage.after? event s = some (next, s')) (hstays : event ≠ .drop) :
    s'.status.runs + s.status.ended + stage.isPending.toNat =
      s.status.runs + s'.status.ended + next.isPending.toNat := by
  unfold after? at h
  split at h
  case h_1 =>
    obtain ⟨taken, htaken, h⟩ := Option.map_eq_some_iff.mp h
    cases h
    rw [Service.takePermit?_status htaken]
    rfl
  case h_2 now =>
    cases h
    simp only [Service.begin, ServiceStatus.begun_runs, ServiceStatus.begun_ended, isPending,
      Bool.toNat_false, Bool.toNat_true]
    omega
  case h_3 => cases h; rfl
  case h_4 began result =>
    cases h
    simp only [Service.record, ServiceStatus.recorded_runs, ServiceStatus.recorded_ended, isPending,
      Bool.toNat_false, Bool.toNat_true]
    omega
  case h_5 => cases h; rfl
  case h_6 => cases h; rfl
  case h_7 => exact absurd rfl hstays
  case h_8 => cases h

theorem after?_of_noted (h : stage.after? event s = some (next, s'))
    (hnoted : stage.noted? event = some result) :
    stage.result? = none ∧ next.result? = some result ∧
      ∃ began, s'.status = s.status.recorded began result := by
  unfold noted? at hnoted
  split at hnoted
  · cases hnoted
    cases h
    exact ⟨rfl, rfl, _, rfl⟩
  · cases hnoted

/-- An event that records nothing changes neither a result nor what the status tells of results. -/
theorem after?_of_not_noted (h : stage.after? event s = some (next, s'))
    (hnoted : stage.noted? event = none) :
    next.result? = stage.result? ∧ s'.status.count = s.status.count ∧
      s'.status.ended = s.status.ended ∧ s'.status.lastError = s.status.lastError := by
  unfold after? at h
  split at h
  case h_1 =>
    obtain ⟨taken, htaken, h⟩ := Option.map_eq_some_iff.mp h
    cases h
    rw [Service.takePermit?_status htaken]
    exact ⟨rfl, rfl, rfl, rfl⟩
  case h_4 => cases hnoted
  case h_7 =>
    unfold abandon? at h
    split at h <;> cases h <;> exact ⟨rfl, rfl, rfl, rfl⟩
  case h_8 => cases h
  all_goals
    cases h
    exact ⟨rfl, funext fun k => by cases k <;> rfl, rfl, rfl⟩

/-- As long as its caller stays, a job comes to a result. -/
theorem after?_attended (h : stage.after? event s = some (next, s')) (hstays : event ≠ .drop)
    (hstage : stage ≠ .orphaned) : next ≠ .orphaned ∧ next ≠ .ended none := by
  unfold after? at h
  split at h
  case h_1 =>
    obtain ⟨taken, -, h⟩ := Option.map_eq_some_iff.mp h
    cases h
    simp
  case h_6 => exact absurd rfl hstage
  case h_7 => exact absurd rfl hstays
  case h_8 => cases h
  all_goals
    cases h
    simp

end JobStage

/-! ## Every run -/

namespace Traffic
variable {start t u : Traffic α} {log : List (ℕ × Except (Failure α) (Schedule α))} {i : ℕ}
  {event : JobEvent α}

structure Accounted (t : Traffic α) (log : List (ℕ × Except (Failure α) (Schedule α))) : Prop where
  runs : t.service.status.runs = t.service.status.ended + t.pending
  counts : ∀ k, t.service.status.count k = log.countP fun e => JobOutcome.of e.2 = k
  ended : t.service.status.ended = log.length
  lastError : t.service.status.lastError = log.getLast?.bind fun e => failure? e.2
  logged : ∀ i result, (i, result) ∈ log ↔
    ∃ stage, t.jobs[i]? = some stage ∧ stage.result? = some result
  once : (log.map Prod.fst).Nodup
  attended : ∀ stage ∈ t.jobs, stage ≠ .orphaned ∧ stage ≠ .ended none

theorem ofService_accounted (service : Service α) (h : service.status = .fresh) :
    (ofService service).Accounted [] where
  runs := by rw [ofService, h]; rfl
  counts k := by rw [ofService, h]; cases k <;> rfl
  ended := by rw [ofService, h]; rfl
  lastError := by rw [ofService, h]; rfl
  logged := by simp [ofService]
  once := List.nodup_nil
  attended := by simp [ofService]

namespace Accounted

theorem submit (h : t.Accounted log) : t.submit.Accounted log where
  runs := by
    have hpending : t.submit.pending = t.pending := by
      simp [pending, Traffic.submit, JobStage.isPending]
    rw [hpending]
    exact h.runs
  counts := h.counts
  ended := h.ended
  lastError := h.lastError
  logged i result := by
    rw [h.logged, Traffic.submit, List.getElem?_append]
    grind [JobStage.result?]
  once := h.once
  attended := by
    intro stage hstage
    rcases List.mem_append.mp hstage with hold | hnew
    · exact h.attended stage hold
    · rw [List.mem_singleton.mp hnew]
      simp

theorem step (h : t.Accounted log) (hstays : event ≠ .drop) (hstep : t.after? i event = some u) :
    u.Accounted (log ++ t.noted i event) := by
  obtain ⟨stage, next, service, hstage, hnext, rfl⟩ := after?_eq_some_iff.mp hstep
  have hruns : service.status.runs = service.status.ended +
      (t.jobs.set i next).countP JobStage.isPending := by
    have hcount := countP_set_add hstage next JobStage.isPending
    have hcounted := JobStage.after?_runs hnext hstays
    have := h.runs
    simp only [pending] at this
    omega
  have hattended : ∀ s ∈ t.jobs.set i next, s ≠ .orphaned ∧ s ≠ .ended none := by
    intro s hs
    rcases List.mem_or_eq_of_mem_set hs with hs | rfl
    · exact h.attended s hs
    · exact JobStage.after?_attended hnext hstays (h.attended stage (List.mem_of_getElem? hstage)).1
  have hi : i < t.jobs.length := (List.getElem?_eq_some_iff.mp hstage).1
  cases hnoted : stage.noted? event with
  | none =>
    obtain ⟨hresult, hcount, hended, hlast⟩ := JobStage.after?_of_not_noted hnext hnoted
    have hnone : t.noted i event = [] := by simp [noted, hstage, hnoted]
    rw [hnone, List.append_nil]
    refine ⟨hruns, fun k => ?_, hended.trans h.ended, hlast.trans h.lastError, fun j result => ?_,
      h.once, hattended⟩
    · rw [hcount]
      exact h.counts k
    · rw [h.logged, List.getElem?_set]
      grind
  | some result =>
    obtain ⟨hbefore, hafter, began, hstatus⟩ := JobStage.after?_of_noted hnext hnoted
    have hone : t.noted i event = [(i, result)] := by simp [noted, hstage, hnoted]
    rw [hone]
    refine ⟨hruns, fun k => ?_, ?_, ?_, fun j other => ?_, ?_, hattended⟩
    · rw [hstatus, ServiceStatus.recorded_count, h.counts, List.countP_append]
      simp [List.countP_cons]
    · rw [hstatus, ServiceStatus.recorded_ended, h.ended, List.length_append, List.length_singleton]
    · rw [hstatus, ServiceStatus.recorded_lastError, List.getLast?_concat]
      rfl
    · rw [List.mem_append, h.logged, List.mem_singleton, List.getElem?_set]
      grind
    · have hfresh : i ∉ log.map Prod.fst := by
        intro hmem
        obtain ⟨⟨_, other⟩, hentry, rfl⟩ := List.mem_map.mp hmem
        obtain ⟨old, hold, hresult⟩ := (h.logged _ _).mp hentry
        grind
      rw [List.map_append, List.nodup_append]
      refine ⟨h.once, List.nodup_singleton i, ?_⟩
      grind

/-- As long as some job has no result, something can happen. -/
theorem exists_step (h : t.Accounted log) (hpermits : 0 < t.service.permits + t.holders)
    {stage : JobStage α} (hmem : stage ∈ t.jobs) (hopen : ∀ result, stage ≠ .ended result) :
    ∃ i event u, event ≠ .drop ∧ t.after? i event = some u := by
  by_cases hheld : 0 < t.holders
  · obtain ⟨holder, hholder, hholds⟩ := List.countP_pos_iff.mp hheld
    obtain ⟨i, hi⟩ := List.mem_iff_getElem?.mp hholder
    have hnext : ∃ event next service, event ≠ .drop ∧
        holder.after? event t.service = some (next, service) := by
      cases holder with
      | admitted => exact ⟨.begin Span.zero, _, _, (by simp), rfl⟩
      | working began => exact ⟨.finish (.error (.infeasible .proved)), _, _, (by simp), rfl⟩
      | finished began result => exact ⟨.record, _, _, (by simp), rfl⟩
      | recorded result => exact ⟨.leave, _, _, (by simp), rfl⟩
      | waiting => cases hholds
      | orphaned => cases hholds
      | ended result => cases hholds
    obtain ⟨event, next, service, hstays, hnext⟩ := hnext
    exact ⟨i, event, _, hstays, after?_eq_some_iff.mpr ⟨holder, next, service, hi, hnext, rfl⟩⟩
  · -- Nobody holds a permit, so one is free, and the job is still waiting for it.
    obtain ⟨i, hi⟩ := List.mem_iff_getElem?.mp hmem
    have hnone : stage.holdsPermit = false := by
      have := List.countP_eq_zero.mp (Nat.eq_zero_of_not_pos hheld) stage hmem
      simpa using this
    have hwaiting : stage = .waiting := by
      have := (h.attended stage hmem).1
      cases stage <;> simp_all [JobStage.holdsPermit]
    have hfree : 0 < t.service.permits := by omega
    have hnext : stage.after? .takePermit t.service =
        some (.admitted, { t.service with permits := t.service.permits - 1 }) := by
      rw [hwaiting, JobStage.after?, Service.takePermit?_of_pos hfree]
      rfl
    exact ⟨i, .takePermit, _, (by simp), after?_eq_some_iff.mpr ⟨stage, _, _, hi, hnext, rfl⟩⟩

/-- Once every job has its result, every job has been counted. -/
theorem all_ended (h : t.Accounted log) (hended : ∀ stage ∈ t.jobs, ∃ result, stage = .ended result) :
    t.service.status.runs = t.jobs.length ∧ log.length = t.jobs.length := by
  have hpending : t.pending = 0 := by
    refine List.countP_eq_zero.mpr fun stage hmem => ?_
    obtain ⟨result, rfl⟩ := hended stage hmem
    simp [JobStage.isPending]
  have hall : ∀ i, i ∈ log.map Prod.fst ↔ i < t.jobs.length := by
    intro i
    constructor
    · intro hi
      obtain ⟨⟨_, result⟩, hentry, rfl⟩ := List.mem_map.mp hi
      obtain ⟨stage, hstage, -⟩ := (h.logged _ _).mp hentry
      exact (List.getElem?_eq_some_iff.mp hstage).1
    · intro hi
      obtain ⟨result, hresult⟩ := hended _ (List.getElem_mem hi)
      cases result with
      | none => exact absurd hresult (h.attended _ (List.getElem_mem hi)).2
      | some result =>
        exact List.mem_map.mpr ⟨(i, result), (h.logged i result).mpr
          ⟨_, List.getElem?_eq_getElem hi, by rw [hresult]; rfl⟩, rfl⟩
  have hperm : (log.map Prod.fst).Perm (List.range t.jobs.length) :=
    (List.perm_ext_iff_of_nodup h.once List.nodup_range).mpr fun i => by rw [hall, List.mem_range]
  have hlen : log.length = t.jobs.length := by simpa using hperm.length_eq
  exact ⟨by rw [h.runs, hpending, h.ended, hlen]; rfl, hlen⟩

end Accounted

theorem Attended.accounted {service : Service α} (hfresh : service.status = .fresh)
    (h : (ofService service).Attended log t) : t.Accounted log := by
  induction h with
  | refl => exact ofService_accounted service hfresh
  | submit _ ih => exact ih.submit
  | step _ _ _ hstays hstep ih => exact ih.step hstays hstep

theorem Attended.reachable (h : start.Attended log t) : start.Reachable t := by
  induction h with
  | refl => exact .refl
  | submit _ ih => exact ih.submit
  | step i event _ _ hstep ih => exact ih.step i event hstep

end Traffic

/-- However many jobs come in and whatever the order of what happens to them, as long as every caller
stays: the runs are the jobs that have ended and those that are pending; every permit is free or held
by one job; each recorded job stands once in the log, with the result that its caller is handed, and
adds one to the counter of that result alone; and the last error is that of the job recorded last. When
nothing can happen any more, every job has been counted and recorded. -/
theorem jobs_accounted {capacity : ℕ} {log : List (ℕ × Except (Failure α) (Schedule α))}
    {t : Traffic α} (h : (Traffic.ofService (.ofCapacity capacity)).Attended log t) :
    let s := t.service.status
    s.runs = s.successes + s.infeasible + s.errors + t.pending ∧
      t.service.permits + t.holders = max capacity 1 ∧
      (log.map Prod.fst).Nodup ∧
      (∀ i result, (i, result) ∈ log ↔
        ∃ stage, t.jobs[i]? = some stage ∧ stage.result? = some result) ∧
      (∀ k, s.count k = log.countP fun e => JobOutcome.of e.2 = k) ∧
      (s.lastError = none ↔ ∀ e, log.getLast? = some e → JobOutcome.of e.2 = .succeeded) ∧
      ((∀ i event, event ≠ .drop → t.after? i event = none) →
        s.runs = t.jobs.length ∧ log.length = t.jobs.length) := by
  intro s
  have ht : t.Accounted log := h.accounted rfl
  have hpermits : t.service.permits + t.holders = max capacity 1 := h.reachable.permits_add_holders
  refine ⟨ht.runs, hpermits, ht.once, ht.logged, ht.counts, ?_, fun hover => ht.all_ended ?_⟩
  · have hlast : s.lastError = _ := ht.lastError
    rw [hlast]
    cases log.getLast? with
    | none => simp
    | some e => simp [failure?_eq_none_iff]
  · intro stage hmem
    by_contra hopen
    obtain ⟨i, event, u, hstays, hstep⟩ :=
      ht.exists_step (by omega) hmem fun result hresult => hopen ⟨result, hresult⟩
    rw [hover i event hstays] at hstep
    cases hstep

/-- Two permits, three jobs: the second is infeasible, the first crashes after it, the third waits. -/
theorem crash_accounted : ∃ (log : List (ℕ × Except (Failure Exact) (Schedule Exact)))
    (t : Traffic Exact), (Traffic.ofService (.ofCapacity 2)).Attended log t ∧ t.jobs.length = 3 ∧
      t.jobs[0]? = some (.recorded (.error (.solver (.failed .crashed)))) ∧
      t.service.status.runs = 2 ∧ t.service.permits + t.holders = 2 ∧
      t.service.status.count .failed = 1 ∧ t.service.status.count .infeasible = 1 ∧
      t.service.status.lastError ≠ none := by
  have hthree : (Traffic.ofService (Service.ofCapacity (α := Exact) 2)).Attended [] _ :=
    Traffic.Attended.refl.submit.submit.submit
  have hadmitted := (hthree.step 0 .takePermit (by simp) rfl).step 1 .takePermit (by simp) rfl
  have hworking :=
    (hadmitted.step 1 (.begin Span.zero) (by simp) rfl).step 0 (.begin Span.zero) (by simp) rfl
  have hsecond := ((hworking.step 1 (.finish (.error (.infeasible .proved))) (by simp) rfl).step
    1 .record (by simp) rfl).step 1 .leave (by simp) rfl
  have hfirst := (hsecond.step 0 (.finish (.error (.invalid .unrepresentable))) (by simp) rfl).step
    0 .record (by simp) rfl
  obtain ⟨hruns, hpermits, -, -, hcounts, hlast, -⟩ := jobs_accounted hfirst
  exact ⟨_, _, hfirst, rfl, rfl, hruns, hpermits, hcounts .failed, hcounts .infeasible,
    fun hnone => nomatch hlast.mp hnone _ rfl⟩

/-! ## One job after the other -/

namespace Traffic
variable {start t : Traffic α} {log : List (ℕ × Except (Failure α) (Schedule α))}

theorem noted_last {s : Service α} {jobs : List (JobStage α)} {stage : JobStage α}
    {event : JobEvent α} : noted ⟨s, jobs ++ [stage]⟩ jobs.length event =
      (stage.noted? event).toList.map fun result => (jobs.length, result) := by
  unfold noted
  rw [List.getElem?_concat_length, Option.bind_some]
  cases stage.noted? event <;> rfl

variable [Scalar α]

/-- A job that finds a free permit takes every step of a job whose caller stays. -/
theorem Attended.runJob (settings : SchedulerSettings α) (solver : Solver α σ) (job : Job α)
    (h : start.Attended log t) {desk : Desk α σ} (hdesk : desk.service = t.service)
    (hfree : 0 < t.service.permits) :
    start.Attended (log ++ [(t.jobs.length, (Dispatch.runJob settings solver job desk).1)])
      ⟨(Dispatch.runJob settings solver job desk).2.service,
        t.jobs ++ [.ended (some (Dispatch.runJob settings solver job desk).1)]⟩ := by
  have hadmitted := h.submit.step t.jobs.length .takePermit (by simp)
    (after?_last (by rw [JobStage.after?, Service.takePermit?_of_pos hfree]; rfl))
  have hworking := hadmitted.step t.jobs.length (.begin desk.world.watch.now) (by simp) (after?_last rfl)
  have hfinished := hworking.step t.jobs.length
    (.finish ((job.run settings solver).run desk.world).1) (by simp) (after?_last rfl)
  have hrecorded := hfinished.step t.jobs.length .record (by simp) (after?_last rfl)
  have hended := hrecorded.step t.jobs.length .leave (by simp) (after?_last rfl)
  simp only [Traffic.submit, noted_last, JobStage.noted?, Option.toList_none, Option.toList_some,
    List.map_nil, List.map_cons, List.append_nil] at hended
  simp only [Dispatch.runJob, hdesk, Service.takePermit?_of_pos hfree, Option.getD_some]
  exact hended

end Traffic

theorem runJobs_cons [Scalar α] (settings : SchedulerSettings α) (solver : Solver α σ) (job : Job α)
    (jobs : List (Job α)) (desk : Desk α σ) :
    runJobs settings solver (job :: jobs) desk =
      let first := runJob settings solver job desk
      let rest := runJobs settings solver jobs first.2
      (first.1 :: rest.1, rest.2) := by
  unfold runJobs
  rw [List.mapM_cons]
  rfl

/-- Jobs that run one after the other are jobs whose callers stay, recorded in turn with the results
that they come to. -/
theorem runJobs_attended [Scalar α] (settings : SchedulerSettings α) (solver : Solver α σ)
    (jobs : List (Job α)) {start t : Traffic α} {log : List (ℕ × Except (Failure α) (Schedule α))}
    {desk : Desk α σ} (h : start.Attended log t) (hdesk : desk.service = t.service)
    (hfree : 0 < t.service.permits) :
    ∃ entries u, start.Attended (log ++ entries) u ∧
      u.service = (runJobs settings solver jobs desk).2.service ∧
      entries.map Prod.snd = (runJobs settings solver jobs desk).1 := by
  induction jobs generalizing log t desk with
  | nil => exact ⟨[], t, by rwa [List.append_nil], hdesk.symm, rfl⟩
  | cons job jobs ih =>
    have hfirst := h.runJob settings solver job hdesk hfree
    have hpermits := runJob_permits settings solver job desk (hdesk ▸ hfree)
    obtain ⟨entries, u, hrest, hservice, hresults⟩ :=
      ih hfirst rfl (by rw [hpermits, hdesk]; exact hfree)
    refine ⟨(t.jobs.length, (runJob settings solver job desk).1) :: entries, u, ?_, ?_, ?_⟩
    · rw [List.append_cons]
      exact hrest
    · rw [hservice, runJobs_cons]
    · rw [List.map_cons, hresults, runJobs_cons]

end Dispatch
