import Dispatch.Proofs.Run.Budgets
import Dispatch.Proofs.Run.Gate

/-! # Attempts in a row

* `Transient`: the outcomes that another attempt may do better on.
* `attemptAt`: what each attempt comes to, in the world that the one before it left behind.
* `slotAt`, `replyAt`, `answerAt`: the slot that an attempt comes to, what the solver replies in it,
  and what the watch makes of that.
* `Solver.Records`: a solver that keeps a record of its calls.
* `retries_until_settled`: the attempts end with the first outcome that is not transient, or with the
  last attempt there may be.

The solver is any function of its memory, and the watch has any solvers at work from before, so the
attempts may come to any outcomes in any order.
-/

namespace Dispatch
set_option autoImplicit false

open Exact Scalar

variable {α σ : Type}

/-! ## Outcomes worth another attempt -/

/-- The time ran out, or the solve failed. -/
def Failure.IsTransient (f : Failure α) : Prop :=
  (∃ budget, f = .solver (.timeout budget)) ∨ ∃ cause, f = .solver (.failed cause)

theorem Failure.retryable_iff (f : Failure α) : f.retryable = true ↔ f.IsTransient := by
  constructor
  · intro h
    unfold retryable at h
    split at h
    · exact .inl ⟨_, rfl⟩
    · exact .inr ⟨_, rfl⟩
    · cases h
  · rintro (⟨_, rfl⟩ | ⟨_, rfl⟩)
    · rfl
    · rfl

theorem Failure.ofSolve_isTransient (e : SolveFault α) :
    (Failure.ofSolve e).IsTransient ↔ e ≠ .infeasible ∧ e ≠ .unbounded := by
  rw [← retryable_iff]
  cases e <;> simp [ofSolve, retryable]

def Transient (result : Except (Failure α) (Schedule α)) : Prop :=
  ∃ f, result = .error f ∧ f.IsTransient

theorem transient_error {f : Failure α} :
    Transient (.error f : Except (Failure α) (Schedule α)) ↔ f.IsTransient :=
  ⟨fun ⟨_, h, hf⟩ => Except.error.inj h ▸ hf, fun h => ⟨f, rfl, h⟩⟩

theorem not_transient {f : Failure α} (h : f.retryable = false) :
    ¬Transient (.error f : Except (Failure α) (Schedule α)) := by
  rw [transient_error, ← Failure.retryable_iff, h]
  exact Bool.false_ne_true

/-! ## One attempt after another -/

section
variable [Scalar α] (settings : SchedulerSettings α) (solver : Solver α σ) (p : Problem α)
  (budget : ℕ → Span) (world : World σ)

/-- The world in which an attempt is made, if there are so many. -/
def worldBefore : ℕ → World σ
  | 0 => world
  | i + 1 =>
    let left := ((solveProblem settings solver p (budget i)).run (worldBefore i)).2
    { left with warnings := left.warnings ++ [.retrying] }

/-- What an attempt comes to, and the world that it leaves behind. -/
def attemptAt (i : ℕ) : Except (Failure α) (Schedule α) × World σ :=
  (solveProblem settings solver p (budget i)).run (worldBefore settings solver p budget world i)

end

section
variable [Scalar α] {settings : SchedulerSettings α} {solver : Solver α σ} {p : Problem α}
  {budget : ℕ → Span} {world : World σ}

/-- From the second attempt on, the attempts are those of what the first one leaves behind. -/
theorem worldBefore_succ (i : ℕ) :
    worldBefore settings solver p (fun i => budget (i + 1))
        (worldBefore settings solver p budget world 1) i =
      worldBefore settings solver p budget world (i + 1) := by
  induction i with
  | zero => rfl
  | succ i ih => rw [worldBefore, ih, worldBefore.eq_def _ _ _ _ _ (i + 1 + 1)]

theorem attemptAt_succ (i : ℕ) :
    attemptAt settings solver p (fun i => budget (i + 1))
        (worldBefore settings solver p budget world 1) i =
      attemptAt settings solver p budget world (i + 1) := by
  rw [attemptAt, worldBefore_succ, attemptAt]

theorem attemptsFrom_last {retries : ℕ} {budget : Span}
    (h : ¬Transient ((solveProblem settings solver p budget).run world).1) :
    (attemptsFrom settings solver p retries budget).run world =
      (solveProblem settings solver p budget).run world := by
  cases retries with
  | zero => rfl
  | succ retries =>
    rw [attemptsFrom, run_bind_world]
    generalize (solveProblem settings solver p budget).run world = tried at h ⊢
    obtain ⟨f | s, left⟩ := tried
    · rw [transient_error, ← Failure.retryable_iff] at h
      simp only [h]
      rfl
    · rfl

theorem attemptsFrom_again {retries : ℕ} {budget next : Span}
    (h : Transient ((solveProblem settings solver p budget).run world).1)
    (hnext : budget.grown? settings.retry.growth = some next) :
    let left := ((solveProblem settings solver p budget).run world).2
    (attemptsFrom settings solver p (retries + 1) budget).run world =
      (attemptsFrom settings solver p retries next).run
        { left with warnings := left.warnings ++ [.retrying] } := by
  rw [attemptsFrom, run_bind_world]
  generalize (solveProblem settings solver p budget).run world = tried at h ⊢
  obtain ⟨f | s, left⟩ := tried
  · rw [transient_error, ← Failure.retryable_iff] at h
    simp only [h, hnext]
    rfl
  · obtain ⟨f, hs, -⟩ := h
    cases hs

/-- The attempts go on while they are transient and retries are left. -/
theorem attemptsFrom_run (settings : SchedulerSettings α) (solver : Solver α σ) (p : Problem α)
    (retries : ℕ) (budget : ℕ → Span) (world : World σ)
    (hgrown : ∀ i < retries, (budget i).grown? settings.retry.growth = some (budget (i + 1))) :
    ∃ k ≤ retries, (attemptsFrom settings solver p retries (budget 0)).run world =
        attemptAt settings solver p budget world k ∧
      (∀ i < k, Transient (attemptAt settings solver p budget world i).1) ∧
      (k < retries → ¬Transient (attemptAt settings solver p budget world k).1) := by
  induction retries generalizing budget world with
  | zero => exact ⟨0, le_rfl, rfl, nofun, nofun⟩
  | succ retries ih =>
    by_cases h : Transient (attemptAt settings solver p budget world 0).1
    · obtain ⟨k, hk, hrun, hagain, hlast⟩ := ih (fun i => budget (i + 1))
        (worldBefore settings solver p budget world 1) fun i hi => hgrown (i + 1) (by omega)
      simp only [attemptAt_succ] at hrun hagain hlast
      refine ⟨k + 1, by omega, ?_, fun i hi => ?_, fun hk' => hlast (by omega)⟩
      · exact (attemptsFrom_again h (hgrown 0 (by omega))).trans hrun
      · cases i with
        | zero => exact h
        | succ i => exact hagain i (by omega)
    · exact ⟨0, Nat.zero_le _, attemptsFrom_last h, nofun, fun _ => h⟩

end

/-! ## What the solver sees of the attempts -/

/-- A record, in the memory of a solver, of the calls so far. -/
def Solver.Records (solver : Solver α σ) (calls : σ → List (Program α × Span)) : Prop :=
  ∀ program budget memory,
    calls (solver.solve program budget memory).2 = calls memory ++ [(program, budget)]

section
variable [Scalar α] (settings : SchedulerSettings α) (solver : Solver α σ) (p : Problem α)
  (m : Model α) (budget : ℕ → Span) (world : World σ) (i : ℕ)

/-- The watch with the slot that an attempt comes to, if it comes to one. -/
def slotAt : Option Watch :=
  ((worldBefore settings solver p budget world i).watch.awaitSlot (budget i)
    settings.solve.grace).bind Prod.fst

/-- What the solver replies in an attempt, if it is called. -/
def replyAt : Reply α :=
  (solver.solve (m.program (Objective.compose p m.handles settings.solve.tieBreak)) (budget i)
    (worldBefore settings solver p budget world i).solver).1

/-- What the watched solver answers in an attempt. -/
def answerAt : Checked α (Except (SolveFault α) (Assignment α)) :=
  ((solveWatched solver (m.program (Objective.compose p m.handles settings.solve.tieBreak)) (budget i)
    settings.solve.grace).run (worldBefore settings solver p budget world i)).1

end

section
variable [Scalar α] {settings : SchedulerSettings α} {solver : Solver α σ} {p : Problem α}
  {m : Model α} {budget : ℕ → Span} {world : World σ}

theorem solveProblem_of_error {fault : Fault α} (h : p.model settings.solve.margin = .error fault)
    (budget : Span) :
    (solveProblem settings solver p budget).run world = (.error (.invalid fault), world) := by
  simp only [solveProblem, attempt, h]
  rfl

/-- Without a model there is one attempt, and nothing is asked of the watch or the solver. -/
theorem attemptsFrom_of_error {fault : Fault α} (h : p.model settings.solve.margin = .error fault)
    (retries : ℕ) (budget : Span) :
    (attemptsFrom settings solver p retries budget).run world = (.error (.invalid fault), world) := by
  have hsolve : (solveProblem settings solver p budget).run world =
      (.error (.invalid fault), world) := solveProblem_of_error h budget
  rw [attemptsFrom_last, hsolve]
  rw [hsolve]
  exact not_transient rfl

/-- An attempt that may wait too long, or to a time that no clock shows, crashes. Without a slot it
fails; with one, a late solver times out, and one that dies fails. -/
theorem answerAt_eq (i : ℕ) : ∃ capacity, answerAt settings solver p m budget world i =
    if Span.longest ≤ budget i + settings.solve.grace ∨
        Watch.clockEnd ≤ (worldBefore settings solver p budget world i).watch.now +
          (budget i + settings.solve.grace) then .error .unrepresentable
    else .ok (match slotAt settings solver p budget world i with
      | none => .error (.failed (.slotsBusy capacity (budget i + settings.solve.grace)))
      | some held =>
        if held.now + (budget i + settings.solve.grace) < Watch.clockEnd ∧
            budget i + settings.solve.grace < (replyAt settings solver p m budget world i).takes then
          .error (.timeout (budget i))
        else (replyAt settings solver p m budget world i).result.getD (.error (.failed .died))) := by
  simp only [answerAt, solveWatched_fst, slotAt, replyAt, ← Watch.awaitSlot_eq_none_iff,
    ← Watch.isLate_iff]
  rcases (worldBefore settings solver p budget world i).watch.awaitSlot (budget i)
    settings.solve.grace with _ | ⟨_ | held, later⟩
  · exact ⟨0, rfl⟩
  · exact ⟨_, rfl⟩
  · exact ⟨0, rfl⟩

theorem slotAt_of_crash {i : ℕ} {fault : Fault α}
    (h : answerAt settings solver p m budget world i = .error fault) :
    slotAt settings solver p budget world i = none := by
  rw [answerAt, solveWatched_fst] at h
  rw [slotAt]
  generalize (worldBefore settings solver p budget world i).watch.awaitSlot (budget i)
    settings.solve.grace = waited at h ⊢
  obtain _ | ⟨_ | held, later⟩ := waited
  · rfl
  · rfl
  · cases h

theorem attemptAt_fst (hm : p.model settings.solve.margin = .ok m) (i : ℕ) :
    (attemptAt settings solver p budget world i).1 =
      match answerAt settings solver p m budget world i with
      | .error fault => .error (.invalid fault)
      | .ok (.error fault) => .error (.ofSolve fault)
      | .ok (.ok values) =>
        readAnswer p m.handles (Objective.compose p m.handles settings.solve.tieBreak)
          settings.solve.tolerance ("milp/" ++ solver.name) values := by
  have hmodel : p.model ({ settings.solve with budget := budget i } : SolveSettings α).margin =
      .ok m := hm
  exact outcome_of_ok hmodel

/-- The solver is called once if a slot comes free, and else not at all. -/
theorem solveProblem_snd (solver : Solver α σ) (world : World σ)
    (hm : p.model settings.solve.margin = .ok m) (budget : Span) :
    ∃ ws, ((solveProblem settings solver p budget).run world).2 =
      match world.watch.awaitSlot budget settings.solve.grace with
      | none => ⟨world.watch, world.solver, ws⟩
      | some (none, later) => ⟨later, world.solver, ws⟩
      | some (some held, _) =>
        let reply := solver.solve
          (m.program (Objective.compose p m.handles settings.solve.tieBreak)) budget world.solver
        ⟨held.afterSolve (budget + settings.solve.grace) reply.1.takes, reply.2, ws⟩ := by
  obtain ⟨ws, hrun⟩ := attempt_run { settings.solve with budget := budget } solver none world hm
  obtain ⟨_, hleft⟩ := solveWatched_snd solver
    (m.program (Objective.compose p m.handles settings.solve.tieBreak)) budget settings.solve.grace
    world
  refine ⟨ws, ?_⟩
  change (((attempt _ solver p).run none).run world).2 = _
  rw [hrun]
  change { ((solveWatched solver _ budget settings.solve.grace).run world).2 with warnings := ws } = _
  rw [hleft]
  rcases world.watch.awaitSlot budget settings.solve.grace with _ | ⟨_ | held, later⟩
  · rfl
  · rfl
  · rfl

theorem solveProblem_calls {calls : σ → List (Program α × Span)} (hcalls : solver.Records calls)
    (hm : p.model settings.solve.margin = .ok m) (budget : Span) :
    calls ((solveProblem settings solver p budget).run world).2.solver = calls world.solver ++
      if ((world.watch.awaitSlot budget settings.solve.grace).bind Prod.fst).isSome then
        [(m.program (Objective.compose p m.handles settings.solve.tieBreak), budget)] else [] := by
  obtain ⟨ws, hleft⟩ := solveProblem_snd solver world hm budget
  rw [hleft]
  rcases world.watch.awaitSlot budget settings.solve.grace with _ | ⟨_ | held, later⟩
  · exact (List.append_nil _).symm
  · exact (List.append_nil _).symm
  · exact hcalls _ _ _

/-- The solver is called once in every attempt that has a slot, with the budget of the attempt. -/
theorem attemptAt_calls {calls : σ → List (Program α × Span)} (hcalls : solver.Records calls)
    (hm : p.model settings.solve.margin = .ok m) (k : ℕ) :
    calls (attemptAt settings solver p budget world k).2.solver = calls world.solver ++
      ((List.range (k + 1)).filter fun i => (slotAt settings solver p budget world i).isSome).map
        fun i => (m.program (Objective.compose p m.handles settings.solve.tieBreak), budget i) := by
  have hstep : ∀ i, calls (attemptAt settings solver p budget world i).2.solver =
      calls (worldBefore settings solver p budget world i).solver ++
        ([i].filter fun i => (slotAt settings solver p budget world i).isSome).map fun i =>
          (m.program (Objective.compose p m.handles settings.solve.tieBreak), budget i) := by
    intro i
    rw [attemptAt, solveProblem_calls hcalls hm, List.filter_singleton, slotAt]
    cases (((worldBefore settings solver p budget world i).watch.awaitSlot (budget i)
      settings.solve.grace).bind Prod.fst).isSome with
    | false => rfl
    | true => rfl
  induction k with
  | zero => exact hstep 0
  | succ k ih =>
    rw [hstep, List.range_succ, List.filter_append, List.map_append, ← List.append_assoc, ← ih]
    rfl

end

/-! ## The whole of it -/

theorem forM_warn (ws : List Warning) (world : World σ) :
    (ws.forM World.warn).run world =
      (PUnit.unit, { world with warnings := world.warnings ++ ws }) := by
  induction ws generalizing world with
  | nil =>
    rw [List.append_nil]
    rfl
  | cons w ws ih =>
    change (ws.forM World.warn).run { world with warnings := world.warnings ++ [w] } = _
    rw [ih]
    dsimp only
    rw [List.append_assoc, List.singleton_append]

/-- A request of which nothing can be planned, because it is invalid or because one of its processes
has no place, goes no further than that. -/
theorem scheduleRequest_of_error [Scalar α] {settings : SchedulerSettings α} {solver : Solver α σ}
    {world : World σ} {r : Request α} {failure : Failure α}
    (h : (r.toProblem settings.chargeSooner).1 = .error failure) :
    (scheduleRequest settings solver r).run world =
      (.error failure,
        { world with warnings := world.warnings ++ (r.toProblem settings.chargeSooner).2 }) := by
  rw [scheduleRequest]
  rcases hread : r.toProblem settings.chargeSooner with ⟨problem, warnings⟩
  rw [hread] at h
  dsimp only at h ⊢
  rw [run_bind_world, forM_warn, h]
  rfl

/-- The attempts have the budgets, one after the other, and end with the first that does not just
time out or fail, or with the last that there may be; what that one comes to is what comes of them.
The solver is called once in each that has a slot and nowhere else, so not at all over an invalid
problem or request. An attempt whose budget and grace are too long together, or end when no clock shows
the time, crashes before it looks for a slot, and is the last.

No configuration whose growth is a number has budgets that decrease or are too long, or attempts that
crash before half of what a clock can show is over. A growth of NaN, which `Config.read` accepts because
it is not out of range, is left out. -/
theorem retries_until_settled [Scalar α] (settings : SchedulerSettings α) (solver : Solver α σ)
    (world : World σ) {budget : ℕ → Span}
    (hbudget : settings.retry.Budgets settings.solve.budget budget) :
    (∀ p : Problem α, ∃ k < max 1 settings.retry.maxAttempts,
      (scheduleProblem settings solver p).run world = attemptAt settings solver p budget world k ∧
      (∀ i < k, Transient (attemptAt settings solver p budget world i).1) ∧
      (k + 1 < max 1 settings.retry.maxAttempts →
        ¬Transient (attemptAt settings solver p budget world k).1) ∧
      (∀ i ≤ k,
        (∃ cause, (attemptAt settings solver p budget world i).1 = .error (.infeasible cause)) ∨
          (attemptAt settings solver p budget world i).1 = .error (.solver .unbounded) → i = k) ∧
      (∀ m, p.model settings.solve.margin = .ok m →
        (∀ i ≤ k, ∃ capacity, answerAt settings solver p m budget world i =
          if Span.longest ≤ budget i + settings.solve.grace ∨
              Watch.clockEnd ≤ (worldBefore settings solver p budget world i).watch.now +
                (budget i + settings.solve.grace) then .error .unrepresentable
          else .ok (match slotAt settings solver p budget world i with
            | none => .error (.failed (.slotsBusy capacity (budget i + settings.solve.grace)))
            | some held =>
              if held.now + (budget i + settings.solve.grace) < Watch.clockEnd ∧
                  budget i + settings.solve.grace <
                    (replyAt settings solver p m budget world i).takes then
                .error (.timeout (budget i))
              else
                (replyAt settings solver p m budget world i).result.getD (.error (.failed .died)))) ∧
        (∀ i ≤ k, ∀ fault, answerAt settings solver p m budget world i = .error fault →
          (attemptAt settings solver p budget world i).1 = .error (.invalid fault) ∧
          slotAt settings solver p budget world i = none ∧ i = k) ∧
        (∀ i ≤ k, ∀ e, answerAt settings solver p m budget world i = .ok (.error e) →
          (attemptAt settings solver p budget world i).1 = .error (.ofSolve e) ∧
          (Transient (attemptAt settings solver p budget world i).1 ↔
            e ≠ .infeasible ∧ e ≠ .unbounded)) ∧
        ∀ calls, solver.Records calls →
          calls (attemptAt settings solver p budget world k).2.solver = calls world.solver ++
            ((List.range (k + 1)).filter fun i =>
              (slotAt settings solver p budget world i).isSome).map fun i =>
                (m.program (Objective.compose p m.handles settings.solve.tieBreak), budget i)) ∧
      (∀ fault, p.model settings.solve.margin = .error fault →
        (scheduleProblem settings solver p).run world = (.error (.invalid fault), world))) ∧
    (∀ (r : Request α) (failure : Failure α),
      (r.toProblem settings.chargeSooner).1 = .error failure →
      (scheduleRequest settings solver r).run world = (.error failure,
        { world with warnings := world.warnings ++ (r.toProblem settings.chargeSooner).2 })) ∧
    (∀ (layers : List (Option Setting)) (c : Config Exact), Config.read layers = .ok c →
      Scalar.isNaN c.retry.growth = false →
      (∃ budget, c.retry.Budgets c.solveSettings.budget budget) ∧
      ∀ budget, c.retry.Budgets c.solveSettings.budget budget →
        ∀ i j, i ≤ j → j < c.retry.maxAttempts →
          Span.zero ≤ budget i ∧ budget i ≤ budget j ∧ budget j < Span.longest ∧
          ∀ w : Watch, w.now + w.now < Watch.clockEnd →
            w.awaitSlot (budget j) c.solveSettings.grace ≠ none) := by
  refine ⟨fun p => ?_, fun r failure => scheduleRequest_of_error, fun layers c hread hnum => ?_⟩
  · obtain ⟨k, hk, hrun, hagain, hlast⟩ := attemptsFrom_run settings solver p
      (settings.retry.maxAttempts - 1) budget world fun i hi => hbudget.grown i (by omega)
    rw [hbudget.first] at hrun
    have hfinal : ∀ i ≤ k, ¬Transient (attemptAt settings solver p budget world i).1 → i = k :=
      fun i hi hnot => hi.eq_or_lt.resolve_right fun hlt => hnot (hagain i hlt)
    refine ⟨k, by omega, hrun, hagain, fun hk' => hlast (by omega), fun i hi hout => hfinal i hi ?_,
      fun m hm => ⟨fun i _ => answerAt_eq i, fun i hi fault hcrash => ?_, fun i _ e he => ?_,
        fun calls hcalls => attemptAt_calls hcalls hm k⟩,
      fun fault hfault => attemptsFrom_of_error hfault _ _⟩
    · rcases hout with ⟨cause, hout⟩ | hout
      · rw [hout]
        exact not_transient rfl
      · rw [hout]
        exact not_transient rfl
    · have hout : (attemptAt settings solver p budget world i).1 = .error (.invalid fault) := by
        rw [attemptAt_fst hm, hcrash]
      refine ⟨hout, slotAt_of_crash hcrash, hfinal i hi ?_⟩
      rw [hout]
      exact not_transient rfl
    · have hout : (attemptAt settings solver p budget world i).1 = .error (.ofSolve e) := by
        rw [attemptAt_fst hm, he]
      rw [hout, transient_error]
      exact ⟨rfl, Failure.ofSolve_isTransient e⟩
  · have hvalid := Config.valid_of_read hread
    obtain ⟨hattempts, g, hmodest⟩ := Config.modest_of_valid hvalid hnum
    refine ⟨⟨_, hmodest.has_budgets⟩, fun budget hb i j hij hj => ?_⟩
    have hj' : j < max 1 c.retry.maxAttempts := hj.trans_le (le_max_right _ _)
    exact ⟨(hmodest.keeps hb i (hij.trans_lt hj')).1, hmodest.mono hb hij hj',
      hmodest.lt_longest hb hj',
      fun w => hmodest.awaitSlot_ne_none hb hj' (Config.grace_le_of_valid hvalid)⟩

/-! ## A solver that is busy at first -/

/-- It fails at its first call, and finds no plan at the second. -/
def balkingSolver : Solver Exact (List (Program Exact × Span)) :=
  ⟨"balking", fun program budget calls =>
    (⟨.zero, some (.error (if calls.isEmpty then .failed (.stated "busy") else .infeasible))⟩,
      calls ++ [(program, budget)])⟩

noncomputable def standardSettings : SchedulerSettings Exact := ⟨.standard, .standard, true⟩

def emptyRequest : Request Exact := ⟨"", none, none, "PT1H", none, [], .empty⟩

/-- Where nothing bounds the solvers, one that replies at once has a slot and gives it back. -/
theorem awaitSlot_unlimited {budget grace : Span} (h : Span.zero ≤ budget + grace)
    (hclock : budget + grace < Watch.clockEnd) :
    ∃ held, (Watch.ofSlots .unlimited).awaitSlot budget grace = some (some held, .ofSlots .unlimited) ∧
      ¬held.isLate (budget + grace) .zero = true ∧
      held.afterSolve (budget + grace) .zero = .ofSlots .unlimited := by
  have hprompt : ¬Watch.isLate ⟨⟨none, 1⟩, .zero, []⟩ (budget + grace) .zero = true := by
    rw [Watch.isLate_iff]
    exact fun hlate => Int.not_lt.mpr h hlate.2
  refine ⟨_, Watch.awaitSlot_ofSlots_unlimited hclock, hprompt, ?_⟩
  rw [Watch.afterSolve, if_neg hprompt]
  rfl

section
variable {settings : SchedulerSettings Exact} {p : Problem Exact} {m : Model Exact}
  {budget : ℕ → Span} {world : World (List (Program Exact × Span))} {i : ℕ}
  {calls : List (Program Exact × Span)} {ws : List Warning}

theorem balkingSolver_answer
    (hi : worldBefore settings balkingSolver p budget world i = ⟨.ofSlots .unlimited, calls, ws⟩)
    (h : Span.zero ≤ budget i + settings.solve.grace)
    (hclock : budget i + settings.solve.grace < Watch.clockEnd) :
    (slotAt settings balkingSolver p budget world i).isSome = true ∧
      answerAt settings balkingSolver p m budget world i =
        .ok (.error (if calls.isEmpty then .failed (.stated "busy") else .infeasible)) := by
  obtain ⟨held, hheld, hprompt, -⟩ := awaitSlot_unlimited h hclock
  rw [slotAt, answerAt, hi, solveWatched_fst]
  simp only [hheld]
  exact ⟨rfl, congrArg Except.ok (if_neg hprompt)⟩

theorem balkingSolver_next
    (hi : worldBefore settings balkingSolver p budget world i = ⟨.ofSlots .unlimited, calls, ws⟩)
    (hm : p.model settings.solve.margin = .ok m) (h : Span.zero ≤ budget i + settings.solve.grace)
    (hclock : budget i + settings.solve.grace < Watch.clockEnd) :
    ∃ ws', worldBefore settings balkingSolver p budget world (i + 1) = ⟨.ofSlots .unlimited,
      calls ++ [(m.program (Objective.compose p m.handles settings.solve.tieBreak), budget i)],
      ws'⟩ := by
  obtain ⟨held, hheld, -, hafter⟩ := awaitSlot_unlimited h hclock
  obtain ⟨ws', hleft⟩ := solveProblem_snd balkingSolver ⟨.ofSlots .unlimited, calls, ws⟩ hm (budget i)
  simp only [hheld] at hleft
  refine ⟨ws' ++ [.retrying], ?_⟩
  rw [worldBefore, hi, hleft]
  exact congrArg (World.mk · _ _) hafter

end

/-- Under the standard settings there are two attempts, of half a minute and of a minute. -/
theorem busy_then_infeasible : ∃ (budget : ℕ → Span) (m : Model Exact) (failure : Failure Exact),
    standardSettings.retry.Budgets standardSettings.solve.budget budget ∧
    (Problem.idle Problem.oneHour).model standardSettings.solve.margin = .ok m ∧
    ((scheduleProblem standardSettings balkingSolver (Problem.idle Problem.oneHour)).run
      (.ofSlots .unlimited [])).1 = .error (.infeasible .proved) ∧
    ((scheduleProblem standardSettings balkingSolver (Problem.idle Problem.oneHour)).run
      (.ofSlots .unlimited [])).2.solver.map Prod.snd = [Span.ofSeconds 30, Span.ofSeconds 60] ∧
    (scheduleProblem standardSettings balkingSolver ⟨Problem.oneHour, [], [], .unbounded 1⟩).run
      (.ofSlots .unlimited []) =
        (.error (.invalid (.field "devices" .nothingToSchedule)), .ofSlots .unlimited []) ∧
    (emptyRequest.toProblem true).1 = .error failure ∧
    ((scheduleRequest standardSettings balkingSolver emptyRequest).run
      (.ofSlots .unlimited [])).1 = .error failure ∧
    ∃ c : Config Exact, Config.read [] = .ok c ∧ Scalar.isNaN c.retry.growth = false ∧
      c.retry.Budgets c.solveSettings.budget budget ∧ budget 0 ≤ budget 2 ∧
      budget 2 < Span.longest := by
  obtain ⟨c, hread, hretry, hsolve⟩ := Config.exists_standard
  have hnum : Scalar.isNaN c.retry.growth = false := by
    rw [hretry]
    rfl
  obtain ⟨-, g, hmodest⟩ := Config.modest_of_valid (Config.valid_of_read hread) hnum
  have hbudget := hmodest.has_budgets
  generalize c.retry.budgets c.solveSettings.budget = budget at hbudget
  have hstandard : standardSettings.retry.Budgets standardSettings.solve.budget budget := by
    rwa [hretry, hsolve] at hbudget
  obtain ⟨hproblem, hrequest, hconfig⟩ := retries_until_settled standardSettings balkingSolver
    (.ofSlots .unlimited []) hstandard
  -- The budgets.
  have hthree : c.retry.maxAttempts = 3 := by
    rw [hretry]
    rfl
  have hrange := (hconfig [] c hread hnum).2 budget hbudget
  have hhalf : budget 0 = Span.ofSeconds 30 := hstandard.first
  have hminute : budget 1 = Span.ofSeconds 60 := by
    have hgrowth : standardSettings.retry.growth = num 2 :=
      (ofNat_eq 2).trans (by rw [Nat.cast_ofNat])
    have hgrown := hstandard.grown 0 (by decide)
    rw [hhalf, hgrowth] at hgrown
    have hdouble : (2 : ℝ) * (Span.ofSeconds 30).nanos = (60000000000 : ℤ) := by
      norm_num [Span.ofSeconds]
    obtain ⟨r, hleast, hmost, hnext⟩ :=
      Span.grown?_exact (d := Span.ofSeconds 30) (g := 2) (by decide) zero_le_two
    obtain ⟨he, -⟩ := (hnext _).mp hgrown
    rw [he, le_antisymm (hmost _ hdouble.le) (hleast _ hdouble.ge)]
    rfl
  have hpatient : Span.zero ≤ budget 0 + standardSettings.solve.grace ∧
      budget 0 + standardSettings.solve.grace < Watch.clockEnd := by
    rw [hhalf]
    exact ⟨by decide, by decide⟩
  have hpatient' : Span.zero ≤ budget 1 + standardSettings.solve.grace ∧
      budget 1 + standardSettings.solve.grace < Watch.clockEnd := by
    rw [hminute]
    exact ⟨by decide, by decide⟩
  -- The attempts.
  obtain ⟨m, hm⟩ := Problem.idle_model (g := Problem.oneHour) Nat.one_pos
  obtain ⟨k, hk, hrun, hagain, hlast, -, hmodel, -⟩ := hproblem (Problem.idle Problem.oneHour)
  obtain ⟨-, -, hanswers, hcalls⟩ := hmodel m hm
  have hnow : worldBefore standardSettings balkingSolver (Problem.idle Problem.oneHour) budget
      (.ofSlots .unlimited []) 0 = ⟨.ofSlots .unlimited, [], []⟩ := rfl
  obtain ⟨ws, hthen⟩ := balkingSolver_next hnow hm hpatient.1 hpatient.2
  obtain ⟨hslot, hfirst⟩ := balkingSolver_answer (m := m) hnow hpatient.1 hpatient.2
  obtain ⟨hslot', hsecond⟩ := balkingSolver_answer (m := m) hthen hpatient'.1 hpatient'.2
  rw [Nat.zero_add] at hslot' hsecond
  have hpos : k ≠ 0 := by
    rintro rfl
    exact hlast (by decide) ((hanswers 0 le_rfl _ hfirst).2.mpr (by simp))
  obtain rfl : k = 1 := by
    refine Nat.le_antisymm (Nat.le_of_not_lt fun hlt => ?_) (Nat.pos_of_ne_zero hpos)
    exact ((hanswers 1 hlt.le _ hsecond).2.mp (hagain 1 hlt)).1 rfl
  have hout := (hanswers 1 le_rfl _ hsecond).1
  have hrecord := hcalls id fun _ _ _ => rfl
  obtain ⟨failure, hfailure⟩ : ∃ failure, (emptyRequest.toProblem true).1 = .error failure :=
    ⟨_, rfl⟩
  refine ⟨budget, m, failure, hstandard, hm, ?_, ?_, ?_, hfailure, ?_, c, hread, hnum, hbudget,
    ?_, ?_⟩
  · rw [hrun, hout]
    rfl
  · rw [id_eq, id_eq, List.range_succ, List.range_one, List.filter_append, List.filter_singleton,
      List.filter_singleton, hslot, hslot'] at hrecord
    rw [hrun, hrecord, ← hhalf, ← hminute]
    rfl
  · exact (hproblem _).elim fun _ h => h.2.2.2.2.2.2 _ rfl
  · rw [hrequest _ _ hfailure]
  · exact (hrange 0 2 (by decide) (by rw [hthree]; decide)).2.1
  · exact (hrange 0 2 (by decide) (by rw [hthree]; decide)).2.2.1

end Dispatch
