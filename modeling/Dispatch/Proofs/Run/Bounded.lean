import Dispatch.Proofs.Program.Floor
import Dispatch.Proofs.Run.Reported

/-! # No run ends unbounded

* `Solver.CallsUnbounded`: a solver calls only those programs unbounded that are.
* `readAnswer_fails_ofReading`: no answer is turned down as unbounded.
* `outcome_ne_unbounded`: only the solver ever calls a program unbounded.
* `never_unbounded`: the objective of every problem that passes its check has a floor, so no run with
  such a solver ends with an unbounded program.
-/

namespace Dispatch
set_option autoImplicit false

open Exact Scalar

/-- The solver calls only those programs unbounded that are. -/
def Solver.CallsUnbounded {σ : Type} (solver : Solver Exact σ) : Prop :=
  ∀ program budget (memory : σ),
    (solver.solve program budget memory).1.result = some (.error .unbounded) → program.Unbounded

/-! ## Who calls a program unbounded -/

/-- The run failed over its answer: it is refused, or its slots run out of the calendar. -/
def Failure.OfReading {α : Type} (f : Failure α) : Prop :=
  f.IsRefusal ∨ ∃ fault, f = .invalid fault

namespace Failure.OfReading
variable {α β : Type}

theorem ne_unbounded {f : Failure α} (h : f.OfReading) : f ≠ .solver .unbounded := by
  rcases h with ⟨e, he, rfl⟩ | ⟨fault, rfl⟩
  · rcases he with rfl | ⟨cause, rfl⟩
    · exact nofun
    · exact nofun
  · exact nofun

theorem of_invalid (x : Checked α β) :
    Checked.FailsWith OfReading (x.mapError Failure.invalid) := by
  cases x with
  | ok b => exact Checked.failsWith_ok b
  | error fault => exact Checked.failsWith_error (.inr ⟨fault, rfl⟩)

end Failure.OfReading

section
open Checked Failure

variable {α σ : Type} [Scalar α] {p : Problem α} {m : Model α}

theorem tellDevice_fails_ofReading (tolerance : α) (values : Assignment α)
    (x : Device α × DeviceColumns) : FailsWith OfReading (tellDevice p tolerance values x.1 x.2) := by
  refine ((Plan.readDevice_fails p tolerance values x.1 x.2).mapError fun e he => ?_).bind
    fun plan => ?_
  · exact .inl he.failure
  · exact (OfReading.of_invalid _).bind fun told => failsWith_ok (plan, told)

theorem readAnswer_fails_ofReading (h : Handles α) (o : Objective α) (tolerance : α)
    (version : String) (values : Assignment α) :
    FailsWith OfReading (readAnswer p h o tolerance version values) := by
  refine (FailsWith.mapM (tellDevice_fails_ofReading tolerance values) _).bind
    fun devices => ?_
  refine ((Plan.check_fails p h tolerance values _).mapError fun e he => ?_).bind fun _ => ?_
  · exact .inl he.failure
  · exact OfReading.of_invalid _

theorem outcome_ne_unbounded {settings : SolveSettings α} {solver : Solver α σ}
    {state : Option RunState} {world : World σ} (hm : p.model settings.margin = .ok m)
    (hsolver : (solver.solve (m.program (Objective.compose p m.handles settings.tieBreak))
      settings.budget world.solver).1.result ≠ some (.error .unbounded)) :
    outcome settings solver p state world ≠ .error (.solver .unbounded) := by
  rw [outcome_of_ok hm, outcomeOf, solveWatched_fst]
  rcases world.watch.awaitSlot settings.budget settings.grace with _ | ⟨_ | _, later⟩
  · rintro ⟨⟩
  · rintro ⟨⟩
  · simp only
    split_ifs with htime
    · rintro ⟨⟩
    · cases hresult : (solver.solve (m.program (Objective.compose p m.handles settings.tieBreak))
        settings.budget world.solver).1.result with
      | none => rintro ⟨⟩
      | some answer =>
        rw [hresult] at hsolver
        cases answer with
        | ok values => exact fun h => (readAnswer_fails_ofReading _ _ _ _ values _ h).ne_unbounded rfl
        | error fault =>
          cases fault with
          | unbounded => exact absurd rfl hsolver
          | infeasible | timeout | failed => rintro ⟨⟩

end

/-! ## Programs of problems -/

/-- Of a problem that passes its check, no program is unbounded: under any preference, no feasible
values have an objective below the floor of the costs. So no run comes out as unbounded whose solver
calls only those programs unbounded that are. -/
theorem never_unbounded {p : Problem Exact} (hgrid : p.grid.Made) (hcheck : p.check = .ok ())
    {margin : ℝ} (hmargin : 0 ≤ margin) :
    ∃ m, p.model (num margin) = .ok m ∧ ∀ t : TieBreak Exact,
      (∀ v : ℕ → ℝ, (m.composed p t).feasible (fun i => num (v i)) = true →
        (t.relative ≠ inf → num p.costFloor ≤ (m.composed p t).objective.value fun i => num (v i)) ∧
        ¬((m.composed p t).objective.value fun i => num (v i)) < num p.costFloor) ∧
      ¬(m.composed p t).Unbounded ∧
      ∀ settings : SolveSettings Exact, settings.margin = num margin → settings.tieBreak = t →
        ∀ {σ : Type} (solver : Solver Exact σ), solver.CallsUnbounded →
          ∀ state world, outcome settings solver p state world ≠ .error (.solver .unbounded) := by
  have hp := Problem.sound_of_check hcheck
  have hhours := hgrid.realHours_pos
  obtain ⟨m, hm, hb⟩ := Problem.exists_built hcheck hmargin
  have hbounded : ∀ t, ¬(m.composed p t).Unbounded := by
    intro t h
    obtain ⟨v, hv, hlt⟩ := h p.costFloor
    exact hb.not_lt_costFloor hp hhours hv hlt
  refine ⟨m, hm, fun t => ⟨fun v hv => ⟨fun ht => hb.costFloor_le hp hhours ht hv,
    hb.not_lt_costFloor hp hhours hv⟩, hbounded t, ?_⟩⟩
  rintro settings hsettings rfl σ solver hsolver state world
  refine outcome_ne_unbounded (hsettings ▸ hm) fun h => ?_
  exact hbounded settings.tieBreak (hsolver _ _ _ h)

/-! ## The battery of one hour -/

namespace Problem

theorem battery_bound : battery.bound = 1 := by
  have hlargest : battery.flowBound = num (peak [|-1|, |1|]) := largest_num [|-1|, |1|]
  rw [Device.bound, hlargest, toReal_num]
  norm_num [peak]

theorem oneBattery_costFloor : oneBattery.costFloor = -1 := by
  have hslots : importReward.activeSlots = [0] := rfl
  have hcommitments : oneBattery.commitments = [importReward] := rfl
  have hmeasure : oneBattery.measureBound importReward = 1 := by
    show ([battery].map Device.bound).sum = 1
    rw [List.map_singleton, List.sum_singleton, battery_bound]
  have hup : importReward.upRate 0 = 0 := rfl
  have hdown : importReward.downRate 0 = -1 := rfl
  have hlevel : importReward.level 0 = 0 := rfl
  rw [costFloor, hcommitments, List.map_singleton, List.sum_singleton, hmeasure,
    Commitment.costFloor, hslots, List.map_singleton, List.sum_singleton, hup, hdown, hlevel]
  norm_num

/-- Although both deviations together earn money, no feasible values earn more than 1. -/
theorem oneBattery_bounded :
    ∃ m, oneBattery.model (SolveSettings.standard : SolveSettings Exact).margin = .ok m ∧
      (∃ v : ℕ → ℝ, (m.composed oneBattery TieBreak.standard).feasible (fun i => num (v i)) = true ∧
        num (-1) ≤ (m.composed oneBattery TieBreak.standard).objective.value fun i => num (v i)) ∧
      ∀ state world, outcome .standard idleSolver oneBattery state world ≠
        .error (.solver .unbounded) := by
  have hmargin : (0 : ℝ) ≤ 1 / 10 ^ 1 := by norm_num
  have hrelative : (TieBreak.standard : TieBreak Exact).relative ≠ inf := fun h =>
    (nomatch (lit_eq 1 3).symm.trans h)
  obtain ⟨m, hm, hfloor⟩ := never_unbounded oneHour_made oneBattery_check hmargin
  obtain ⟨hvalue, -, hrun⟩ := hfloor TieBreak.standard
  have hp := sound_of_check oneBattery_check
  have hb := built_of_model hm
  obtain ⟨v, held, site, -⟩ := hb.exists_held hp hmargin oneBattery_admits_idle
  obtain ⟨w, -, hfeasible, -⟩ :=
    hb.exists_completion hp oneHour_made.realHours_pos.le hmargin held site
  refine ⟨m, standard_margin ▸ hm, ⟨w, hfeasible _, ?_⟩, fun state world => ?_⟩
  · rw [← oneBattery_costFloor]
    exact (hvalue w (hfeasible _)).1 hrelative
  · exact hrun .standard standard_margin rfl idleSolver (fun _ _ _ => nofun) state world

end Problem

end Dispatch
