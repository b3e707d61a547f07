import Mathlib.Tactic.SplitIfs
import Dispatch.Run.Attempt

/-! # What a run comes to

* `solveWatched_fst`, `solveWatched_snd`: what a watched solve answers and leaves behind.
* `outcome`, `finalState`: what a run comes to, and the state it ends in.
* `attempt_run`: the states and warnings on the way have no part in either; a run leaves behind what
  its solve does, and more warnings.
* `HandsBack`: the solver hands back values in time.
-/

namespace Dispatch
set_option autoImplicit false

section
variable {α σ β γ : Type}

theorem run_bind_world (m : StateM (World σ) β) (f : β → StateM (World σ) γ) (world : World σ) :
    (m >>= f).run world = (f (m.run world).1).run (m.run world).2 := rfl

theorem run_bind_state (m : Run σ β) (f : β → Run σ γ) (state : Option RunState) (world : World σ) :
    ((m >>= f).run state).run world =
      ((f ((m.run state).run world).1.1).run ((m.run state).run world).1.2).run
        ((m.run state).run world).2 := rfl

/-- A solve answers what the solver replies, if a slot comes free and the reply comes in time. -/
theorem solveWatched_fst (solver : Solver α σ) (program : Program α) (budget grace : Span)
    (world : World σ) :
    ((solveWatched solver program budget grace).run world).1 =
      match world.watch.awaitSlot budget grace with
      | none => .error .unrepresentable
      | some (none, later) =>
        .ok (.error (.failed (.slotsBusy (later.slots.capacity.getD 0) (budget + grace))))
      | some (some held, _) =>
        let reply := (solver.solve program budget world.solver).1
        .ok (if held.isLate (budget + grace) reply.takes then .error (.timeout budget)
          else reply.result.getD (.error (.failed .died))) := by
  have hask : (askSolver solver program budget).run world =
      ((solver.solve program budget world.solver).1,
        { world with solver := (solver.solve program budget world.solver).2 }) := rfl
  simp only [solveWatched, run_bind_world]
  show ((match world.watch.awaitSlot budget grace with
    | none => _ | some (none, later) => _ | some (some held, _) => _ :
      StateM (World σ) _).run world).1 = _
  rcases world.watch.awaitSlot budget grace with _ | ⟨_ | held, later⟩
  · rfl
  · rfl
  · simp only [run_bind_world, hask]
    cases held.isLate (budget + grace) (solver.solve program budget world.solver).1.takes with
    | true => rfl
    | false => rfl

/-- Where nothing bounds the solvers, there is a slot at once. -/
theorem Watch.awaitSlot_ofSlots_unlimited {budget grace : Span} (hclock : budget + grace < clockEnd) :
    (ofSlots .unlimited).awaitSlot budget grace =
      some (some ⟨⟨none, 1⟩, .zero, []⟩, .ofSlots .unlimited) := by
  have hshort : budget + grace < Span.longest := Int.lt_trans hclock (by decide)
  have hnow : Span.zero + (budget + grace) < clockEnd := by
    rw [Span.lt_iff, Span.nanos_add, Span.zero, Int.zero_add]
    exact hclock
  have hdeadline : (ofSlots .unlimited).deadline? (budget + grace) =
      some (Span.zero + (budget + grace)) := if_pos hnow
  rw [awaitSlot, Span.plus?, if_pos hshort]
  simp only [hdeadline]
  rfl

/-- The watch when a solver has had its slot: the solver is given up when the patience ends, or it has
given the slot back. -/
def Watch.afterSolve (held : Watch) (patience takes : Span) : Watch :=
  if held.isLate patience takes then
    let given := held.advance (held.now + patience)
    { given with abandoned := given.abandoned ++ [held.now + takes] }
  else
    let done := held.advance (held.now + takes)
    { done with slots := done.slots.release }

/-- The solver is called once if a slot comes free, and else not at all. -/
theorem solveWatched_snd (solver : Solver α σ) (program : Program α) (budget grace : Span)
    (world : World σ) : ∃ ws, ((solveWatched solver program budget grace).run world).2 =
      match world.watch.awaitSlot budget grace with
      | none => ⟨world.watch, world.solver, ws⟩
      | some (none, later) => ⟨later, world.solver, ws⟩
      | some (some held, _) =>
        let reply := solver.solve program budget world.solver
        ⟨held.afterSolve (budget + grace) reply.1.takes, reply.2, ws⟩ := by
  have hask : (askSolver solver program budget).run world =
      ((solver.solve program budget world.solver).1,
        { world with solver := (solver.solve program budget world.solver).2 }) := rfl
  simp only [solveWatched, run_bind_world]
  show ∃ ws, ((match world.watch.awaitSlot budget grace with
    | none => _ | some (none, later) => _ | some (some held, _) => _ :
      StateM (World σ) _).run world).2 = _
  rcases world.watch.awaitSlot budget grace with _ | ⟨_ | held, later⟩
  · exact ⟨world.warnings, rfl⟩
  · exact ⟨world.warnings, rfl⟩
  · simp only [run_bind_world, hask, Watch.afterSolve]
    cases held.isLate (budget + grace) (solver.solve program budget world.solver).1.takes with
    | true => exact ⟨world.warnings ++ [.solverAbandoned], rfl⟩
    | false => exact ⟨world.warnings, rfl⟩

/-- The warnings so far have no part in what a solve answers and leaves behind. -/
theorem solveWatched_warnings (solver : Solver α σ) (program : Program α) (budget grace : Span)
    (world : World σ) (ws : List Warning) :
    ((solveWatched solver program budget grace).run { world with warnings := ws }).1 =
        ((solveWatched solver program budget grace).run world).1 ∧
      ∀ ws', { ((solveWatched solver program budget grace).run { world with warnings := ws }).2 with
          warnings := ws' } =
        { ((solveWatched solver program budget grace).run world).2 with warnings := ws' } := by
  refine ⟨by rw [solveWatched_fst, solveWatched_fst], fun ws' => ?_⟩
  obtain ⟨_, hfirst⟩ := solveWatched_snd solver program budget grace { world with warnings := ws }
  obtain ⟨_, hsecond⟩ := solveWatched_snd solver program budget grace world
  rw [hfirst, hsecond]
  dsimp only
  rcases world.watch.awaitSlot budget grace with _ | ⟨_ | held, later⟩ <;> rfl

/-- A move may warn, and does nothing else to the world. -/
theorem run_moveTo (next : RunState) (state : Option RunState) (world : World σ) :
    ∃ ws, ((Run.moveTo next).run state).run world =
      (((), some next), { world with warnings := ws }) := by
  by_cases h : RunState.mayFollow state next = true
  · refine ⟨world.warnings, ?_⟩
    simp only [Run.moveTo]
    simp [h]
    rfl
  · refine ⟨world.warnings ++ [.unexpectedTransition], ?_⟩
    simp only [Run.moveTo]
    simp [h]
    rfl

/-- A run ends in the state that fits what it comes to, or where it was when it crashed. -/
theorem run_finish (result : Except (Failure α) (Schedule α)) (state : RunState) (world : World σ) :
    ∃ ws, ((match endState? result with
      | none => return result
      | some next => do
        Run.moveTo next
        if next = .solverError then liftM (World.warn (σ := σ) .solveFailed)
        return result : Run σ (Except (Failure α) (Schedule α))).run (some state)).run world =
      ((result, some ((endState? result).getD state)), { world with warnings := ws }) := by
  cases endState? result with
  | none => exact ⟨world.warnings, rfl⟩
  | some next =>
    obtain ⟨ws, hend⟩ := run_moveTo next (some state) world
    simp only [run_bind_state, hend]
    split_ifs with hfailed
    · exact ⟨ws ++ [.solveFailed], rfl⟩
    · exact ⟨ws, rfl⟩

end

variable {α σ : Type} [Scalar α]

section
variable (settings : SolveSettings α) (solver : Solver α σ) (p : Problem α)
  (state : Option RunState) (world : World σ)

def outcome : Except (Failure α) (Schedule α) :=
  (((attempt settings solver p).run state).run world).1.1

def finalState : Option RunState := (((attempt settings solver p).run state).run world).1.2

def outcomeOf (m : Model α) : Except (Failure α) (Schedule α) :=
  let objective := Objective.compose p m.handles settings.tieBreak
  match ((solveWatched solver (m.program objective) settings.budget settings.grace).run world).1 with
  | .error fault => .error (.invalid fault)
  | .ok (.error fault) => .error (.ofSolve fault)
  | .ok (.ok values) =>
    readAnswer p m.handles objective settings.tolerance ("milp/" ++ solver.name) values

end

variable {settings : SolveSettings α} {solver : Solver α σ} {p : Problem α}
  {state : Option RunState} {world : World σ}

/-- The states and warnings on the way of a run change nothing of what it comes to, and it leaves
behind what its solve does. -/
theorem attempt_run (settings : SolveSettings α) (solver : Solver α σ) (state : Option RunState)
    (world : World σ) {m : Model α} (hmodel : p.model settings.margin = .ok m) :
    ∃ ws, ((attempt settings solver p).run state).run world =
      ((outcomeOf settings solver p world m,
          some ((endState? (outcomeOf settings solver p world m)).getD .solving)),
        { ((solveWatched solver (m.program (Objective.compose p m.handles settings.tieBreak))
          settings.budget settings.grace).run world).2 with warnings := ws }) := by
  obtain ⟨ws, hbuilt⟩ := run_moveTo .built state world
  obtain ⟨ws', hsolving⟩ := run_moveTo .solving (some .built) { world with warnings := ws }
  simp only [attempt, hmodel, run_bind_state, hbuilt, hsolving]
  -- The answer depends on the watch and the solver, and these the moves leave alone.
  obtain ⟨hanswer, hleft⟩ := solveWatched_warnings solver
    (m.program (Objective.compose p m.handles settings.tieBreak)) settings.budget settings.grace world
    ws'
  rw [outcomeOf, ← hanswer]
  obtain ⟨ws'', hfinish⟩ := run_finish _ _ _
  exact ⟨ws'', hfinish.trans (Prod.ext rfl (hleft ws''))⟩

theorem attempt_fst {m : Model α} (hmodel : p.model settings.margin = .ok m) :
    (((attempt settings solver p).run state).run world).1 =
      (outcomeOf settings solver p world m,
        some ((endState? (outcomeOf settings solver p world m)).getD .solving)) := by
  obtain ⟨ws, hrun⟩ := attempt_run settings solver state world hmodel
  rw [hrun]

theorem outcome_of_error {fault : Fault α} (hmodel : p.model settings.margin = .error fault) :
    outcome settings solver p state world = .error (.invalid fault) := by
  simp only [outcome, attempt, hmodel]
  rfl

theorem outcome_of_ok {m : Model α} (hmodel : p.model settings.margin = .ok m) :
    outcome settings solver p state world = outcomeOf settings solver p world m := by
  rw [outcome, attempt_fst hmodel]

theorem finalState_of_ok {m : Model α} (hmodel : p.model settings.margin = .ok m) :
    finalState settings solver p state world =
      some ((endState? (outcome settings solver p state world)).getD .solving) := by
  rw [finalState, outcome, attempt_fst hmodel]

/-! ## Answers in time -/

/-- A slot comes free, and in time the solver hands back values. -/
structure HandsBack (settings : SolveSettings α) (solver : Solver α σ) (world : World σ)
    (program : Program α) (values : Assignment α) : Prop where
  in_time : ∃ held later,
    world.watch.awaitSlot settings.budget settings.grace = some (some held, later) ∧
    ¬held.isLate (settings.budget + settings.grace)
      (solver.solve program settings.budget world.solver).1.takes = true
  answer : (solver.solve program settings.budget world.solver).1.result = some (.ok values)

omit [Scalar α] in
/-- Where nothing bounds the solvers, one that replies at once hands back its values. -/
theorem handsBack_at_once {memory : σ} {program : Program α} {values : Assignment α}
    (hpatience : Span.zero ≤ settings.budget + settings.grace)
    (hclock : settings.budget + settings.grace < Watch.clockEnd)
    (hreply : (solver.solve program settings.budget memory).1 = ⟨.zero, some (.ok values)⟩) :
    HandsBack settings solver (.ofSlots .unlimited memory) program values := by
  refine ⟨⟨_, _, Watch.awaitSlot_ofSlots_unlimited hclock, fun hlate => ?_⟩,
    by rw [World.ofSlots, hreply]⟩
  have htakes := (Watch.isLate_iff.mp hlate).2
  rw [World.ofSlots, hreply] at htakes
  exact Int.not_lt.mpr hpatience htakes

theorem outcomeOf_of_handsBack {m : Model α} {values : Assignment α}
    (h : HandsBack settings solver world
      (m.program (Objective.compose p m.handles settings.tieBreak)) values) :
    outcomeOf settings solver p world m =
      readAnswer p m.handles (Objective.compose p m.handles settings.tieBreak) settings.tolerance
        ("milp/" ++ solver.name) values := by
  have hsolve : ((solveWatched solver
      (m.program (Objective.compose p m.handles settings.tieBreak)) settings.budget
      settings.grace).run world).1 = .ok (.ok values) := by
    obtain ⟨held, later, hwait, hlate⟩ := h.in_time
    rw [solveWatched_fst, hwait]
    simp only [if_neg hlate, h.answer, Option.getD_some]
  simp only [outcomeOf, hsolve]

end Dispatch
