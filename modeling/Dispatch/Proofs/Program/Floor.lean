import Dispatch.Proofs.Program.Preference

/-! # The objective has a floor

* `Program.Unbounded`: feasible values undercut every bound.
* `Model.Built.costFloor_le`: no feasible values have an objective below the floor of the costs.
* `Model.Built.not_lt_costFloor`: nor do they where the preference is infinite, and the objective maybe
  no number.

Deviations have no upper bound of their own. The floor comes from the costs: no pair of deviations
that fits costs less than the deviations it accounts for, and all that is measured is bounded.
-/

namespace Dispatch
set_option autoImplicit false

open Exact Scalar

/-- Feasible values undercut every bound. -/
def Program.Unbounded (q : Program Exact) : Prop :=
  ∀ bound : ℝ, ∃ v : ℕ → ℝ, q.feasible (fun i => num (v i)) = true ∧
    q.objective.value (fun i => num (v i)) < num bound

namespace Problem
variable {p : Problem Exact} {t : TieBreak Exact}

theorem Sound.biasStep_inf (hp : p.Sound) (hhours : p.realHours ≠ 0) (henabled : t.enabled = true)
    (ht : t.relative = inf) : p.biasStep t = inf := by
  have hhalf : (inf : Exact) / num 2 = inf := if_neg (not_lt.mpr zero_le_two)
  rw [hp.biasStep_eq hhours henabled, ht, inf_mul_num p.biasScale_pos, hhalf]

/-- An infinite preference has infinite coefficients: positive ones for charging, and negative ones for
discharging. -/
theorem deviceBias_inf (hhours : 0 < p.realHours) (c : DeviceColumns) {y : ℕ × Exact}
    (hy : y ∈ p.deviceBias t inf c) :
    ∃ j < p.len, y = (c.up.getD j 0, inf) ∨ y = (c.down.getD j 0, negInf) := by
  obtain ⟨j, hj, hy⟩ := List.mem_flatMap.mp hy
  have hlt : j < p.len := List.mem_range.mp hj
  obtain ⟨h0, h1⟩ := p.ramp_mem t hlt
  have hcharge : (inf : Exact) * num (1 + p.ramp t j) = inf := inf_mul_num (by linarith)
  have hdischarge : (inf : Exact) * num (2 - p.ramp t j) = inf := inf_mul_num (by linarith)
  have hneg : -(inf : Exact) = negInf := rfl
  simp only [slotBias_eq, hcharge, hdischarge, hours_eq, inf_mul_num hhours, hneg,
    negInf_mul_num hhours] at hy
  refine ⟨j, hlt, ?_⟩
  rcases List.mem_cons.mp hy with rfl | hy
  · exact .inl rfl
  · exact .inr (List.mem_singleton.mp hy)

end Problem

namespace Model.Built
variable {p : Problem Exact} {margin : ℝ} {m : Model Exact} {v : ℕ → ℝ} {t : TieBreak Exact}

/-- The deviations of feasible values cost no less than what any plan costs. -/
theorem costFloor_le_deviationCost (hb : m.Built p (num margin)) (hp : p.Sound)
    (hhours : 0 ≤ p.realHours) (held : DevicesHeld p (num margin) m.handles fun i => num (v i))
    (commitments : CommitmentsHeld p (num margin) m.handles fun i => num (v i)) :
    p.costFloor ≤ m.handles.deviationCost v :=
  calc p.costFloor
      ≤ p.planCost (m.handles.flow v) (m.handles.level v) :=
        hp.costFloor_le hhours (fun _ _ hd _ hj => hb.inBand hp held hd hj)
          fun _ _ _ hd hs _ hj => hb.level_eq hp held hd hs hj
    _ ≤ m.handles.deviationCost v := hb.planCost_le hp commitments

theorem costFloor_le (hb : m.Built p (num margin)) (hp : p.Sound) (hhours : 0 < p.realHours)
    (ht : t.relative ≠ inf) (hv : (m.composed p t).feasible (fun i => num (v i)) = true) :
    num p.costFloor ≤ (m.composed p t).objective.value fun i => num (v i) := by
  obtain ⟨held, -, commitments⟩ := (hb.feasible_iff _ _).mp hv
  rw [hb.composed_value hp hhours.ne' ht, num_le_num]
  exact le_add_of_le_of_nonneg (hb.costFloor_le_deviationCost hp hhours.le held commitments)
    (hb.preference_nonneg hp hhours.le t (p.realStep_nonneg t) held)

/-- Where the preference is infinite, all its coefficients are, each with the sign of its column. -/
theorem bias_upward (hb : m.Built p (num margin)) (hp : p.Sound) (hhours : 0 < p.realHours)
    (ht : t.relative = inf) (held : DevicesHeld p (num margin) m.handles fun i => num (v i)) :
    ∀ y ∈ p.biasTerms t (p.biasStep t) m.handles.devices,
      Upward v y ∧ Scalar.isFinite y.2 = false := by
  intro y hy
  by_cases henabled : t.enabled = true
  · have hpos : gt (inf : Exact) 0 = true := rfl
    rw [hp.biasStep_inf hhours.ne' henabled ht, Problem.biasTerms, if_pos hpos] at hy
    obtain ⟨⟨d, c⟩, hmem, hy⟩ := List.mem_flatMap.mp hy
    simp only at hy
    split_ifs at hy with hprefers
    · obtain ⟨j, hj, rfl | rfl⟩ := Problem.deviceBias_inf hhours c hy
      · exact ⟨.of_inf (hb.halves_of_mem hp held hmem hj).1, rfl⟩
      · exact ⟨.of_negInf (hb.halves_of_mem hp held hmem hj).2, rfl⟩
    · cases hy
  · rw [Problem.biasStep, if_neg henabled, Problem.biasTerms, if_neg (by simp [zero_eq])] at hy
    cases hy

/-- With an infinite preference the objective is the cost of the deviations alone, or it is infinite or
no number. -/
theorem composed_value_of_inf (hb : m.Built p (num margin)) (hp : p.Sound) (hhours : 0 < p.realHours)
    (ht : t.relative = inf) (held : DevicesHeld p (num margin) m.handles fun i => num (v i)) :
    ((m.composed p t).objective.value fun i => num (v i)) = num (m.handles.deviationCost v) ∨
      ((m.composed p t).objective.value fun i => num (v i)) = inf ∨
      ((m.composed p t).objective.value fun i => num (v i)) = nan := by
  have hbias := hb.bias_upward hp hhours ht held
  have hupward : ∀ y ∈ m.handles.priceTerms ++ p.biasTerms t (p.biasStep t) m.handles.devices,
      Upward v y := fun y hy => (List.mem_append.mp hy).elim
    (fun h => .of_finite (hb.finite_priceTerms hp y h)) fun h => (hbias y h).1
  cases hvalue : (m.composed p t).objective.value fun i => num (v i) with
  | num x =>
    -- A finite value leaves no place for infinite coefficients, so there is no preference at all.
    have hfinite := (isFinite_of_add ((congrArg Scalar.isFinite hvalue).trans rfl)).1
    have hterms := (finite_of_foldl_addTerm (finite_of_valueOf hfinite)).1
    have hnone : p.biasTerms t (p.biasStep t) m.handles.devices = [] :=
      List.eq_nil_iff_forall_not_mem.mpr fun y hy => Bool.false_ne_true
        ((hbias y hy).2.symm.trans (hterms y (List.mem_append_right _ hy)))
    have hcost := hb.composed_value_of_finite (v := v) hp (hnone ▸ List.forall_mem_nil _)
    rw [hnone, termsValue, List.map_nil, List.sum_nil, add_zero, hvalue] at hcost
    exact .inl hcost
  | negInf =>
    have hterms := valueOf_ne_negInf (foldl_addTerm_upward hupward (List.forall_mem_nil _))
    exact absurd hvalue (add_ne_negInf hterms (num_ne_negInf 0))
  | inf => exact .inr (.inl rfl)
  | nan => exact .inr (.inr rfl)

/-- Under no preference whatsoever the objective undercuts the floor. -/
theorem not_lt_costFloor (hb : m.Built p (num margin)) (hp : p.Sound) (hhours : 0 < p.realHours)
    (hv : (m.composed p t).feasible (fun i => num (v i)) = true) :
    ¬((m.composed p t).objective.value fun i => num (v i)) < num p.costFloor := by
  obtain ⟨held, -, commitments⟩ := (hb.feasible_iff _ _).mp hv
  by_cases ht : t.relative = inf
  · rcases hb.composed_value_of_inf hp hhours ht held with hvalue | hvalue | hvalue
    · rw [hvalue, num_lt_num, not_lt]
      exact hb.costFloor_le_deviationCost hp hhours.le held commitments
    · rw [hvalue]
      exact Bool.false_ne_true
    · rw [hvalue]
      exact Bool.false_ne_true
  · have hfloor := hb.costFloor_le hp hhours ht hv
    rw [hb.composed_value hp hhours.ne' ht, num_le_num] at hfloor
    rwa [hb.composed_value hp hhours.ne' ht, num_lt_num, not_lt]

end Model.Built

end Dispatch
