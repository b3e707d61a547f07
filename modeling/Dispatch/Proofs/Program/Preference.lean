import Dispatch.Proofs.Program.Exactness

/-! # What the preference adds to the objective

* `Problem.unitPrices`, `Problem.biasScale`: the prices of energy, and the scale that a preference has
  from them, in real numbers.
* `Problem.realStep`: the size of the preference, zero where there is none.
* `Problem.ramp`: how far along the horizon a slot counts.
* `Handles.preference`: what the preference adds at given values of the columns.
* `Model.Built.composed_value`: the objective is the cost of the deviations and the preference.

The preference charges both halves of a flow, the more so the later it charges and the sooner it
discharges, so it is never negative where the halves have their signs.
-/

namespace Dispatch
set_option autoImplicit false

open Exact Scalar

/-! ## The scale of the prices -/

namespace Problem

/-- The prices per kWh of exceeding a baseline, of the commitments on flow that are priced slot by
slot. -/
noncomputable def unitPrices (p : Problem Exact) : List ℝ :=
  (p.commitments.filter fun c => c.kind == .flow && c.grouping == .each).flatMap fun c =>
    c.activeSlots.map fun j => c.upRate j / p.realHours

/-- How far the prices lie apart; where they do not, their mean, and 1 at least. -/
noncomputable def biasScale (p : Problem Exact) : ℝ :=
  match p.unitPrices with
  | [] => 1
  | x :: xs =>
    let spread := xs.foldl max x - xs.foldl min x
    if 0 < spread then spread else max |(x :: xs).sum / (x :: xs).length| 1

theorem biasScale_pos (p : Problem Exact) : 0 < p.biasScale := by
  rw [biasScale]
  cases p.unitPrices with
  | nil => exact one_pos
  | cons x xs =>
    simp only
    split_ifs with h
    · exact h
    · exact lt_max_of_lt_right one_pos

theorem Sound.energyPrices_eq {p : Problem Exact} (hp : p.Sound) (hhours : p.realHours ≠ 0) :
    p.energyPrices = p.unitPrices.map num := by
  rw [energyPrices, unitPrices, List.map_flatMap]
  refine List.flatMap_congr fun c hc => ?_
  have hsound := hp.commitment c (List.mem_filter.mp hc).1
  rw [List.map_map]
  refine List.map_congr_left fun j hj => ?_
  rw [hsound.upPrice_eq j hj, hours_eq, num_div _ hhours]
  rfl

theorem Sound.priceSpread_scale {p : Problem Exact} (hp : p.Sound) (hhours : p.realHours ≠ 0) :
    (if gt p.priceSpread.1 0 then p.priceSpread.1 else maxNum (Scalar.abs p.priceSpread.2) 1) =
      num p.biasScale := by
  have hprices := hp.energyPrices_eq hhours
  rw [biasScale]
  cases hunit : p.unitPrices with
  | nil =>
    rw [hunit, List.map_nil] at hprices
    simp [priceSpread, hprices, zero_eq, one_eq]
  | cons x xs =>
    rw [hunit, List.map_cons] at hprices
    have hlow : (num x :: xs.map num).foldl minNum infinity = num (xs.foldl min x) :=
      foldl_min_num xs x
    have hhigh : (num x :: xs.map num).foldl maxNum negInfinity = num (xs.foldl max x) :=
      foldl_max_num xs x
    have hlen : (((x :: xs).length : ℕ) : ℝ) ≠ 0 := Nat.cast_ne_zero.mpr (Nat.succ_ne_zero _)
    have hmean : Scalar.sum (num x :: xs.map num) / Scalar.ofNat (num x :: xs.map num).length =
        num ((x :: xs).sum / (x :: xs).length) := by
      rw [← List.map_cons, sum_num, List.length_map, ofNat_eq, num_div _ hlen]
    simp only [priceSpread, hprices, List.isEmpty_cons, Bool.false_eq_true, if_false, hlow, hhigh,
      hmean, num_sub, zero_eq, one_eq, num_gt, num_abs, num_maxNum, decide_eq_true_eq]
    split_ifs
    · rfl
    · rfl

theorem Sound.biasStep_eq {p : Problem Exact} (hp : p.Sound) (hhours : p.realHours ≠ 0)
    {t : TieBreak Exact} (henabled : t.enabled = true) :
    p.biasStep t = t.relative * num p.biasScale / num 2 := by
  rw [← hp.priceSpread_scale hhours, biasStep, if_pos henabled, ofNat_eq, Nat.cast_ofNat]

/-- The size of the preference, zero where there is none. -/
noncomputable def realStep (p : Problem Exact) (t : TieBreak Exact) : ℝ :=
  if gt (p.biasStep t) 0 then (p.biasStep t).toReal else 0

/-- A preference that is not infinite has a size. -/
theorem Sound.biasStep_num {p : Problem Exact} (hp : p.Sound) (hhours : p.realHours ≠ 0)
    {t : TieBreak Exact} (ht : t.relative ≠ inf) (hstep : gt (p.biasStep t) 0 = true) :
    0 < p.realStep t ∧ p.biasStep t = num (p.realStep t) := by
  have henabled : t.enabled = true := by
    by_contra hno
    rw [biasStep, if_neg hno, zero_eq, num_gt] at hstep
    simp at hstep
  have hstep' := hstep
  rw [hp.biasStep_eq hhours henabled] at hstep'
  cases hrelative : t.relative with
  | num r =>
    have hbeta : p.biasStep t = num (r * p.biasScale / 2) := by
      rw [hp.biasStep_eq hhours henabled, hrelative, num_mul, num_div _ two_ne_zero]
    have hreal : p.realStep t = r * p.biasScale / 2 := by
      rw [realStep, if_pos hstep, hbeta, toReal_num]
    rw [hreal]
    refine ⟨?_, hbeta⟩
    rw [hbeta, zero_eq, num_gt] at hstep
    exact of_decide_eq_true hstep
  | inf => exact absurd hrelative ht
  | negInf =>
    have hmul := negInf_mul_num p.biasScale_pos
    have hhalf : (negInf : Exact) / num 2 = negInf := if_neg (not_lt.mpr zero_le_two)
    rw [hrelative, hmul, hhalf] at hstep'
    cases hstep'
  | nan =>
    rw [hrelative] at hstep'
    cases hstep'

theorem realStep_nonneg (p : Problem Exact) (t : TieBreak Exact) : 0 ≤ p.realStep t := by
  rw [realStep]
  split_ifs with h
  · cases hstep : p.biasStep t with
    | num b =>
      rw [hstep, zero_eq, num_gt] at h
      exact (of_decide_eq_true h).le
    | inf | negInf | nan => exact le_rfl
  · exact le_rfl

end Problem

/-! ## The preference of a slot -/

namespace BiasCurve

noncomputable def real (c : BiasCurve) (x : ℝ) : ℝ :=
  match c with
  | linear => x
  | quadratic => x * x

theorem shape_num (c : BiasCurve) (x : ℝ) : c.shape (num x) = num (c.real x) := by
  cases c with
  | linear => rfl
  | quadratic => rfl

theorem real_mem (c : BiasCurve) {x : ℝ} (h0 : 0 ≤ x) (h1 : x ≤ 1) :
    0 ≤ c.real x ∧ c.real x ≤ 1 := by
  cases c with
  | linear => exact ⟨h0, h1⟩
  | quadratic => exact ⟨mul_self_nonneg x, mul_le_one₀ h1 h0 h1⟩

end BiasCurve

namespace Problem

/-- How far along the horizon the slot counts, from 0 to 1. -/
noncomputable def ramp (p : Problem Exact) (t : TieBreak Exact) (j : ℕ) : ℝ :=
  t.curve.real (if 1 < p.len then j / (p.len - 1 : ℕ) else 0)

theorem ramp_mem (p : Problem Exact) (t : TieBreak Exact) {j : ℕ} (hj : j < p.len) :
    0 ≤ p.ramp t j ∧ p.ramp t j ≤ 1 := by
  rw [ramp]
  split_ifs with hlen
  · have hpos : (0 : ℝ) < (p.len - 1 : ℕ) := Nat.cast_pos.mpr (by omega)
    have hle : (j : ℝ) ≤ (p.len - 1 : ℕ) := Nat.cast_le.mpr (by omega)
    exact t.curve.real_mem (div_nonneg (Nat.cast_nonneg j) hpos.le) ((div_le_one hpos).mpr hle)
  · exact t.curve.real_mem le_rfl zero_le_one

theorem slotBias_eq (p : Problem Exact) (t : TieBreak Exact) (beta : Exact) (j : ℕ) :
    p.slotBias t beta j = ⟨beta * num (1 + p.ramp t j), beta * num (2 - p.ramp t j)⟩ := by
  have hplace : (if 1 < p.len then Scalar.ofNat j / Scalar.ofNat (p.len - 1) else 0 : Exact) =
      num (if 1 < p.len then j / (p.len - 1 : ℕ) else 0) := by
    split_ifs with hlen
    · rw [ofNat_eq, ofNat_eq, num_div _ (Nat.cast_ne_zero.mpr (by omega))]
    · rfl
  simp only [slotBias, hplace, BiasCurve.shape_num]
  rw [one_eq, ofNat_eq, num_add, num_sub, Nat.cast_ofNat]
  rfl

/-- What a slot adds for the halves of a flow. -/
noncomputable def slotPreference (p : Problem Exact) (t : TieBreak Exact) (b : ℝ) (j : ℕ)
    (up down : ℝ) : ℝ :=
  b * ((1 + p.ramp t j) * up - ((2 : ℕ) - p.ramp t j) * down) * p.realHours

theorem slotPreference_nonneg {p : Problem Exact} (hhours : 0 ≤ p.realHours) (t : TieBreak Exact)
    {b : ℝ} (hb : 0 ≤ b) {j : ℕ} (hj : j < p.len) {up down : ℝ} (hup : 0 ≤ up) (hdown : down ≤ 0) :
    0 ≤ p.slotPreference t b j up down := by
  obtain ⟨h0, h1⟩ := p.ramp_mem t hj
  have hcharge : 0 ≤ (1 + p.ramp t j) * up := mul_nonneg (by linarith) hup
  have hdischarge : (2 - p.ramp t j) * down ≤ 0 :=
    mul_nonpos_of_nonneg_of_nonpos (by linarith) hdown
  rw [slotPreference, Nat.cast_ofNat]
  exact mul_nonneg (mul_nonneg hb (by linarith)) hhours

theorem deviceBias_num (p : Problem Exact) (t : TieBreak Exact) (b : ℝ) (c : DeviceColumns) :
    FiniteTerms (p.deviceBias t (num b) c) ∧ ∀ v, termsValue v (p.deviceBias t (num b) c) =
      (p.grid.slots.map fun j =>
        p.slotPreference t b j (v (c.up.getD j 0)) (v (c.down.getD j 0))).sum := by
  have hslot : p.deviceBias t (num b) c = p.grid.slots.flatMap fun j =>
      [(c.up.getD j 0, num (b * (1 + p.ramp t j) * p.realHours)),
        (c.down.getD j 0, num (-(b * (2 - p.ramp t j)) * p.realHours))] := by
    simp only [deviceBias, slotBias_eq, hours_eq, num_neg, num_mul]
  rw [hslot]
  refine ⟨fun y hy => ?_, fun v => ?_⟩
  · obtain ⟨j, -, hy⟩ := List.mem_flatMap.mp hy
    rcases List.mem_cons.mp hy with rfl | hy
    · rfl
    · rw [List.mem_singleton.mp hy]
      rfl
  · rw [termsValue_flatMap]
    refine congrArg List.sum (List.map_congr_left fun j _ => ?_)
    simp only [termsValue, List.map_cons, List.map_nil, List.sum_cons, List.sum_nil, toReal_num,
      slotPreference, Nat.cast_ofNat]
    ring

end Problem

/-! ## The preference in the objective -/

namespace Handles

/-- What the preference adds for the storages that have one. -/
noncomputable def preference (h : Handles Exact) (p : Problem Exact) (t : TieBreak Exact) (b : ℝ)
    (v : ℕ → ℝ) : ℝ :=
  ((p.devices.zip h.devices).map fun (d, c) =>
    if d.stock.isSome && d.chargeSooner then
      (p.grid.slots.map fun j =>
        p.slotPreference t b j (v (c.up.getD j 0)) (v (c.down.getD j 0))).sum
    else 0).sum

theorem preference_zero (h : Handles Exact) (p : Problem Exact) (t : TieBreak Exact) (v : ℕ → ℝ) :
    h.preference p t 0 v = 0 := by
  rw [preference]
  refine List.sum_eq_zero fun x hx => ?_
  obtain ⟨⟨d, c⟩, -, rfl⟩ := List.mem_map.mp hx
  simp only [Problem.slotPreference, zero_mul, List.map_const', List.sum_replicate, smul_zero,
    ite_self]

end Handles

namespace Problem
variable {p : Problem Exact} {t : TieBreak Exact}

theorem biasTerms_num (h : Handles Exact) {b : ℝ} (hb : 0 < b) :
    FiniteTerms (p.biasTerms t (num b) h.devices) ∧
      ∀ v, termsValue v (p.biasTerms t (num b) h.devices) = h.preference p t b v := by
  have hpos : gt (num b) 0 = true := by
    rw [zero_eq, num_gt]
    exact decide_eq_true hb
  rw [biasTerms, if_pos hpos]
  refine ⟨fun y hy => ?_, fun v => ?_⟩
  · obtain ⟨⟨d, c⟩, -, hy⟩ := List.mem_flatMap.mp hy
    simp only at hy
    split_ifs at hy
    · exact (p.deviceBias_num t b c).1 y hy
    · cases hy
  · rw [termsValue_flatMap, Handles.preference]
    refine congrArg List.sum (List.map_congr_left fun x _ => ?_)
    obtain ⟨d, c⟩ := x
    simp only
    split_ifs
    · exact (p.deviceBias_num t b c).2 v
    · rfl

theorem Sound.bias_num (hp : p.Sound) (hhours : p.realHours ≠ 0) (ht : t.relative ≠ inf)
    (h : Handles Exact) :
    FiniteTerms (p.biasTerms t (p.biasStep t) h.devices) ∧
      ∀ v, termsValue v (p.biasTerms t (p.biasStep t) h.devices) =
        h.preference p t (p.realStep t) v := by
  by_cases hstep : gt (p.biasStep t) 0 = true
  · obtain ⟨hpos, heq⟩ := hp.biasStep_num hhours ht hstep
    rw [heq]
    exact biasTerms_num h hpos
  · rw [biasTerms, if_neg hstep, realStep, if_neg hstep]
    exact ⟨List.forall_mem_nil _, fun v => (h.preference_zero p t v).symm⟩

end Problem

namespace Model.Built
variable {p : Problem Exact} {margin : ℝ} {m : Model Exact} {v : ℕ → ℝ} {t : TieBreak Exact}

/-- The objective adds the preference to the cost of the deviations. -/
theorem composed_value (hb : m.Built p (num margin)) (hp : p.Sound) (hhours : p.realHours ≠ 0)
    (ht : t.relative ≠ inf) :
    (m.composed p t).objective.value (fun i => num (v i)) =
      num (m.handles.deviationCost v + m.handles.preference p t (p.realStep t) v) := by
  obtain ⟨hbias, hvalue⟩ := hp.bias_num hhours ht m.handles
  rw [hb.composed_value_of_finite hp hbias, hvalue]

theorem halves_of_mem (hb : m.Built p (num margin)) (hp : p.Sound)
    (held : DevicesHeld p (num margin) m.handles fun i => num (v i)) {d : Device Exact}
    {c : DeviceColumns} (hmem : (d, c) ∈ p.devices.zip m.handles.devices) {j : ℕ} (hj : j < p.len) :
    0 ≤ v (c.up.getD j 0) ∧ v (c.down.getD j 0) ≤ 0 := by
  obtain ⟨i, hi⟩ := List.mem_iff_getElem?.mp hmem
  obtain ⟨hd, hc⟩ := List.getElem?_zip_eq_some.mp hi
  obtain ⟨hup, hdown⟩ := hb.halves hp held hd hj
  have hcolumns : m.handles.devices.getD i .empty = c := by
    rw [List.getD_eq_getElem?_getD, hc, Option.getD_some]
  rw [Handles.up, hcolumns] at hup
  rw [Handles.down, hcolumns] at hdown
  exact ⟨hup ▸ upHalf_nonneg _, hdown ▸ downHalf_nonpos _⟩

/-- Values that fit the devices add no negative preference. -/
theorem preference_nonneg (hb : m.Built p (num margin)) (hp : p.Sound) (hhours : 0 ≤ p.realHours)
    (t : TieBreak Exact) {b : ℝ} (hb0 : 0 ≤ b)
    (held : DevicesHeld p (num margin) m.handles fun i => num (v i)) :
    0 ≤ m.handles.preference p t b v := by
  refine List.sum_nonneg fun x hx => ?_
  obtain ⟨⟨d, c⟩, hmem, rfl⟩ := List.mem_map.mp hx
  simp only
  split_ifs
  · refine List.sum_nonneg fun y hy => ?_
    obtain ⟨j, hj, rfl⟩ := List.mem_map.mp hy
    have hlt : j < p.len := List.mem_range.mp hj
    obtain ⟨hup, hdown⟩ := hb.halves_of_mem hp held hmem hlt
    exact Problem.slotPreference_nonneg hhours t hb0 hlt hup hdown
  · exact le_rfl

end Model.Built

end Dispatch
