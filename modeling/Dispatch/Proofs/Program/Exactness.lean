import Dispatch.Proofs.Program.Deviations

/-! # The program says what the problem says

* `Problem.feasible_exact`: the plans of feasible values are the admitted plans.
* `Problem.least_cost_exact`: without a preference, the least objective over given columns of the
  devices is the cost of their plan.

Both hold over exact numbers, for every margin from zero on.
-/

namespace Dispatch
set_option autoImplicit false

open Exact Scalar

/-- The program of a problem with its costs and a preference as the objective. -/
noncomputable def Model.composed (p : Problem Exact) (m : Model Exact) (t : TieBreak Exact) :
    Program Exact :=
  m.program (Objective.compose p m.handles t)

/-- The program of a problem without a preference among equally good plans. -/
noncomputable def Model.plain (p : Problem Exact) (m : Model Exact) : Program Exact :=
  m.program (Objective.compose p m.handles TieBreak.disabled)

/-- The objectives of the feasible values that complete `v` on some columns. -/
def Program.completionValues (q : Program Exact) (columns : List ℕ) (v : ℕ → ℝ) : Set ℝ :=
  {x | ∃ w : ℕ → ℝ, (∀ i ∈ columns, w i = v i) ∧ q.feasible (fun i => num (w i)) = true ∧
    q.objective.value (fun i => num (w i)) = num x}

/-- The objectives of the feasible values that carry out a plan. -/
def Model.planValues (p : Problem Exact) (m : Model Exact) (flow : ℕ → ℕ → ℝ) : Set ℝ :=
  {x | ∃ v : ℕ → ℝ, (m.plain p).feasible (fun i => num (v i)) = true ∧
    (∀ i < p.devices.length, ∀ j < p.len, m.handles.flow v i j = flow i j) ∧
    (m.plain p).objective.value (fun i => num (v i)) = num x}

namespace Model.Built
variable {p : Problem Exact} {margin : ℝ} {m : Model Exact} {v : ℕ → ℝ} {t : TieBreak Exact}

theorem finite_priceTerms (hb : m.Built p (num margin)) (hp : p.Sound) :
    FiniteTerms m.handles.priceTerms := by
  intro t ht
  rw [Handles.priceTerms] at ht
  obtain ⟨cols, hcols, ht⟩ := List.mem_flatMap.mp ht
  obtain ⟨c, hmem, -⟩ := exists_of_mem_right hb.commitments hcols
  obtain ⟨g, hg, ht⟩ := List.mem_flatMap.mp ht
  obtain ⟨hup, hdown⟩ := hb.prices_eq hp hmem hg
  rcases List.mem_cons.mp ht with rfl | ht
  · rw [hup]
    rfl
  · rw [List.mem_singleton.mp ht, hdown]
    rfl

theorem termsValue_priceTerms (h : Handles Exact) (v : ℕ → ℝ) :
    termsValue v h.priceTerms = h.deviationCost v := by
  rw [Handles.priceTerms, termsValue_flatMap, Handles.deviationCost]
  congr 1
  refine List.map_congr_left fun c _ => ?_
  rw [termsValue_flatMap]
  congr 1
  refine List.map_congr_left fun g _ => ?_
  simp [termsValue]

/-- The objective is the cost of the deviations and the value of the preference. -/
theorem composed_value_of_finite (hb : m.Built p (num margin)) (hp : p.Sound)
    (hbias : FiniteTerms (p.biasTerms t (p.biasStep t) m.handles.devices)) :
    (m.composed p t).objective.value (fun i => num (v i)) =
      num (m.handles.deviationCost v +
        termsValue v (p.biasTerms t (p.biasStep t) m.handles.devices)) := by
  have hterms : FiniteTerms
      (m.handles.priceTerms ++ p.biasTerms t (p.biasStep t) m.handles.devices) := fun y hy =>
    (List.mem_append.mp hy).elim (hb.finite_priceTerms hp y) (hbias y)
  obtain ⟨hfin, hval⟩ := foldl_addTerm_plain hterms (List.forall_mem_nil _)
  rw [Model.composed, program, LinExpr.value, Objective.compose, valueOf_num hfin, hval,
    termsValue_append, termsValue_priceTerms, zero_eq, num_add]
  simp [termsValue]

theorem objective_value (hb : m.Built p (num margin)) (hp : p.Sound) :
    (Objective.compose p m.handles TieBreak.disabled).expr.value (fun i => num (v i)) =
      num (m.handles.deviationCost v) := by
  have hbias : p.biasTerms TieBreak.disabled (p.biasStep TieBreak.disabled) m.handles.devices =
      [] := by
    simp [Problem.biasTerms, Problem.biasStep, TieBreak.disabled, zero_eq]
  have hvalue := hb.composed_value_of_finite (v := v) hp (hbias ▸ List.forall_mem_nil _)
  rwa [hbias, termsValue, List.map_nil, List.sum_nil, add_zero] at hvalue

/-- Flows leave no choice of the levels, so they fix what the commitments measure. -/
theorem planCost_replayed (hb : m.Built p (num margin)) (hp : p.Sound)
    (held : DevicesHeld p (num margin) m.handles fun i => num (v i)) :
    p.planCost (m.handles.flow v) (m.handles.level v) =
      p.planCost (m.handles.flow v) (p.replayed (m.handles.flow v)) :=
  hp.planCost_congr (fun _ _ _ _ => rfl) fun i d s hd hs j hj => by
    rw [hb.level_eq hp held hd hs hj, hp.replayed_eq hd hs _ hj]

/-- Carrying out an admitted plan costs at least its commitments, and no more. -/
theorem isLeast_planValues (hb : m.Built p (num margin)) (hp : p.Sound) (hhours : 0 ≤ p.realHours)
    (hmargin : 0 ≤ margin) {flow : ℕ → ℕ → ℝ} (h : p.Admits flow) :
    IsLeast (m.planValues p flow) (p.planCost flow (p.replayed flow)) := by
  have hcost : ∀ v : ℕ → ℝ, DevicesHeld p (num margin) m.handles (fun i => num (v i)) →
      (∀ i < p.devices.length, ∀ j < p.len, m.handles.flow v i j = flow i j) →
      p.planCost (m.handles.flow v) (m.handles.level v) = p.planCost flow (p.replayed flow) := by
    intro v held hflow
    rw [hb.planCost_replayed hp held]
    refine hp.planCost_congr hflow fun i d s hd hs j hj => ?_
    rw [hp.replayed_eq hd hs _ hj, hp.replayed_eq hd hs _ hj]
    exact s.path_congr p.realHours fun k hk =>
      hflow i (List.getElem?_eq_some_iff.mp hd).1 k (by omega)
  constructor
  · obtain ⟨v, held, site, hflow⟩ := hb.exists_held hp hmargin h
    obtain ⟨w, hagree, hfeasible, hw⟩ := hb.exists_completion hp hhours hmargin held site
    refine ⟨w, hfeasible _, fun i hi j hj => (hb.flow_congr hagree hi hj).trans (hflow i hi j hj), ?_⟩
    rw [← hcost v held hflow, ← hw]
    exact hb.objective_value hp
  · rintro x ⟨v, hfeasible, hflow, hx⟩
    obtain ⟨held, -, hcommitments⟩ := (hb.feasible_iff _ _).mp hfeasible
    have hvalue : m.handles.deviationCost v = x :=
      (num_inj _ _).mp ((hb.objective_value hp).symm.trans hx)
    rw [← hcost v held hflow, ← hvalue]
    exact hb.planCost_le hp hcommitments

end Model.Built

namespace Problem
variable {p : Problem Exact}

theorem built_of_model {margin : Exact} {m : Model Exact} (h : p.model margin = .ok m) :
    m.Built p margin :=
  (built_of_model_eq_ok h).2

/-- Only sound problems have models, and only with a real margin. -/
theorem sound_of_model {margin : Exact} {m : Model Exact} (h : p.model margin = .ok m) :
    p.Sound ∧ m.Built p (num margin.toReal) := by
  obtain ⟨hcheck, hmargin, -⟩ := model_eq_ok.mp h
  rw [num_toReal (Bool.and_eq_true_iff.mp hmargin).2]
  exact ⟨sound_of_check hcheck, built_of_model h⟩

/-- A margin from zero on makes a model of every problem that passes its check. -/
theorem exists_built (hcheck : p.check = .ok ()) {margin : ℝ} (hmargin : 0 ≤ margin) :
    ∃ m, p.model (num margin) = .ok m ∧ m.Built p (num margin) := by
  have hfits : (ge (num margin) 0 && Scalar.isFinite (num margin)) = true := by
    rw [zero_eq, num_ge, num_isFinite, Bool.and_true, decide_eq_true_eq]
    exact hmargin
  have hm := model_eq_ok.mpr ⟨hcheck, hfits, rfl⟩
  exact ⟨_, hm, built_of_model hm⟩

/-- Feasible values of the program have admitted flows, never with both halves of a flow at once, and
hold the replayed levels; and every admitted plan is the plan of feasible values. -/
theorem feasible_exact (hgrid : p.grid.Made) (hcheck : p.check = .ok ()) (hbounds : p.ProperBounds)
    {margin : ℝ} (hmargin : 0 ≤ margin) :
    ∃ m, p.model (num margin) = .ok m ∧ ∀ o,
      (∀ v : ℕ → ℝ, (m.program o).feasible (fun i => num (v i)) = true →
        p.Admits (m.handles.flow v) ∧
        (∀ i < p.devices.length, ∀ j < p.len,
          m.handles.flow v i j = m.handles.up v i j + m.handles.down v i j ∧
            ¬(0 < m.handles.up v i j ∧ m.handles.down v i j < 0)) ∧
        ∀ i d s, p.devices[i]? = some d → d.stock = some s → ∀ j < p.len,
          num (m.handles.level v i j) = valueAt (s.replay (p.series (m.handles.flow v i)) p.hours) j) ∧
      (∀ flow, p.Admits flow → ∃ v : ℕ → ℝ, (m.program o).feasible (fun i => num (v i)) = true ∧
        ∀ i < p.devices.length, ∀ j < p.len, m.handles.flow v i j = flow i j) ∧
      ((∃ v : ℕ → ℝ, (m.program o).feasible (fun i => num (v i)) = true) ↔
        ∃ flow, p.Admits flow) := by
  have hp := sound_of_check hcheck
  obtain ⟨m, hm, hb⟩ := exists_built hcheck hmargin
  have hhours : 0 ≤ p.realHours := hgrid.realHours_pos.le
  have hsound : ∀ o, ∀ v : ℕ → ℝ, (m.program o).feasible (fun i => num (v i)) = true →
      p.Admits (m.handles.flow v) := by
    intro o v hv
    obtain ⟨held, site, -⟩ := (hb.feasible_iff o _).mp hv
    exact hb.admits hp hbounds held site
  have hcomplete : ∀ o, ∀ flow, p.Admits flow →
      ∃ v : ℕ → ℝ, (m.program o).feasible (fun i => num (v i)) = true ∧
        ∀ i < p.devices.length, ∀ j < p.len, m.handles.flow v i j = flow i j := by
    intro o flow hflow
    obtain ⟨v, held, site, heq⟩ := hb.exists_held hp hmargin hflow
    obtain ⟨w, hagree, hfeasible, -⟩ := hb.exists_completion hp hhours hmargin held site
    exact ⟨w, hfeasible o, fun i hi j hj => (hb.flow_congr hagree hi hj).trans (heq i hi j hj)⟩
  refine ⟨m, hm, fun o => ⟨fun v hv => ⟨hsound o v hv, fun i hi j hj => ?_, ?_⟩, hcomplete o, ?_⟩⟩
  · obtain ⟨held, -⟩ := (hb.feasible_iff o _).mp hv
    obtain ⟨hup, hdown⟩ := hb.halves hp held (List.getElem?_eq_getElem hi) hj
    refine ⟨rfl, fun ⟨hpos, hneg⟩ => ?_⟩
    rw [hup, upHalf, lt_max_iff, or_iff_left (lt_irrefl _)] at hpos
    rw [hdown, downHalf, min_eq_right hpos.le] at hneg
    exact lt_irrefl _ hneg
  · intro i d s hd hs j hj
    obtain ⟨held, -⟩ := (hb.feasible_iff o _).mp hv
    rw [hp.valueAt_replay hd hs _ hj, hb.level_eq hp held hd hs hj]
  · constructor
    · rintro ⟨v, hv⟩
      exact ⟨_, hsound o v hv⟩
    · rintro ⟨flow, hflow⟩
      obtain ⟨v, hv, -⟩ := hcomplete o flow hflow
      exact ⟨v, hv⟩

/-- A battery that stands still fits its program. -/
theorem oneBattery_idle_feasible :
    ∃ m, oneBattery.model (num 1) = .ok m ∧ ∀ o, ∃ v : ℕ → ℝ,
      (m.program o).feasible (fun i => num (v i)) = true ∧ m.handles.flow v 0 0 = 0 := by
  obtain ⟨m, hm, h⟩ :=
    feasible_exact oneHour_made oneBattery_check oneBattery_properBounds zero_le_one
  refine ⟨m, hm, fun o => ?_⟩
  obtain ⟨-, hcomplete, -⟩ := h o
  obtain ⟨v, hv, hflow⟩ := hcomplete _ oneBattery_admits_idle
  exact ⟨v, hv, hflow 0 Nat.one_pos 0 Nat.one_pos⟩

/-- Without a preference, the least objective among the feasible values that complete given columns of
the devices is attained, and it is the cost of their plan; so whatever minimises the objective
minimises the cost of the plan. -/
theorem least_cost_exact (hgrid : p.grid.Made) (hcheck : p.check = .ok ()) {margin : ℝ}
    (hmargin : 0 ≤ margin) :
    ∃ m, p.model (num margin) = .ok m ∧
      let columns := m.handles.deviceColumns.map Prod.fst
      let cost := fun v => p.planCost (m.handles.flow v) (m.handles.level v)
      (∀ v : ℕ → ℝ, (m.plain p).FitsOn columns (fun i => num (v i)) →
        IsLeast ((m.plain p).completionValues columns v) (cost v)) ∧
      ∀ v : ℕ → ℝ, (m.plain p).feasible (fun i => num (v i)) = true →
        (∀ w : ℕ → ℝ, (m.plain p).feasible (fun i => num (w i)) = true →
          (m.plain p).objective.value (fun i => num (v i)) ≤
            (m.plain p).objective.value (fun i => num (w i))) →
        ∀ w : ℕ → ℝ, (m.plain p).FitsOn columns (fun i => num (w i)) → cost v ≤ cost w := by
  have hp := sound_of_check hcheck
  obtain ⟨m, hm, hb⟩ := exists_built hcheck hmargin
  have hhours : 0 ≤ p.realHours := hgrid.realHours_pos.le
  refine ⟨m, hm, ?_⟩
  intro columns cost
  have hvalue : ∀ v : ℕ → ℝ,
      (m.plain p).objective.value (fun i => num (v i)) = num (m.handles.deviationCost v) :=
    fun v => hb.objective_value hp
  have hattained : ∀ v : ℕ → ℝ, (m.plain p).FitsOn columns (fun i => num (v i)) →
      ∃ w : ℕ → ℝ, (∀ i ∈ columns, w i = v i) ∧ (m.plain p).feasible (fun i => num (w i)) = true ∧
        m.handles.deviationCost w = cost v := by
    intro v hv
    obtain ⟨held, site⟩ := hb.fitsOn _ _ hv
    obtain ⟨w, hagree, hfeasible, hcost⟩ := hb.exists_completion hp hhours hmargin held site
    exact ⟨w, hagree, hfeasible _, hcost⟩
  have hbelow : ∀ w : ℕ → ℝ, (m.plain p).feasible (fun i => num (w i)) = true →
      cost w ≤ m.handles.deviationCost w := fun w hw =>
    hb.planCost_le hp ((hb.feasible_iff _ _).mp hw).2.2
  have hcost : ∀ v w : ℕ → ℝ, (∀ i ∈ columns, w i = v i) → cost w = cost v := fun v w hagree =>
    hp.planCost_congr (fun _ hi _ hj => hb.flow_congr hagree hi hj)
      fun _ _ _ hd hs _ hj => hb.level_congr hagree hd hs hj
  refine ⟨fun v hv => ⟨?_, ?_⟩, fun v hv hmin w hw => ?_⟩
  · obtain ⟨w, hagree, hfeasible, hw⟩ := hattained v hv
    exact ⟨w, hagree, hfeasible, by rw [hvalue, hw]⟩
  · rintro x ⟨w, hagree, hfeasible, hx⟩
    rw [hvalue, num_inj] at hx
    rw [← hcost v w hagree, ← hx]
    exact hbelow w hfeasible
  · -- The plan of `w` is compared through the values that carry it out at its own cost.
    obtain ⟨w', -, hfeasible, hw'⟩ := hattained w hw
    have hle := hmin w' hfeasible
    rw [hvalue, hvalue, num_le_num, hw'] at hle
    exact (hbelow v hv).trans hle

/-- A battery that stands still costs nothing. -/
theorem oneBattery_idle_least :
    ∃ m, oneBattery.model (num 1) = .ok m ∧ ∃ v : ℕ → ℝ, m.handles.flow v 0 0 = 0 ∧
      IsLeast ((m.plain oneBattery).completionValues (m.handles.deviceColumns.map Prod.fst) v)
        0 := by
  obtain ⟨m, hm, hleast, -⟩ := least_cost_exact oneHour_made oneBattery_check zero_le_one
  have hp := sound_of_check oneBattery_check
  have hb := built_of_model hm
  obtain ⟨v, held, site, hflow⟩ := hb.exists_held hp zero_le_one oneBattery_admits_idle
  obtain ⟨w, hagree, hfeasible, -⟩ :=
    hb.exists_completion hp oneHour_made.realHours_pos.le zero_le_one held site
  have hzero : m.handles.flow w 0 0 = 0 :=
    (hb.flow_congr hagree Nat.one_pos Nat.one_pos).trans (hflow 0 Nat.one_pos 0 Nat.one_pos)
  have hcost : oneBattery.planCost (m.handles.flow w) (m.handles.level w) = 0 := by
    simp [planCost, oneBattery, Commitment.siteFlow, Commitment.costOf, Commitment.activeSlots,
      measured, committed?, siteFlow, siteMembers, battery, hzero, Commitment.level,
      Commitment.baseline, givenAt]
  refine ⟨m, hm, w, hzero, ?_⟩
  rw [← hcost]
  exact hleast w (Program.fitsOn_of_feasible (hfeasible _) _)

end Problem

end Dispatch
