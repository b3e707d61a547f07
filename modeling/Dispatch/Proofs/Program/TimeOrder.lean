import Mathlib.Logic.Function.Basic
import Dispatch.Proofs.Program.CostSplit
import Dispatch.Proofs.Program.PreferenceCost
import Dispatch.Proofs.Time.Regular

/-! # How the preference orders time

* `Problem.OrdersSlots`: the biases of the slots lie between the step and its double, and grow along the
  horizon for charging while they fall for discharging.
* `Objective.bias`: what the preference adds at given values of the columns.
* `DeviceColumns.charge`, `DeviceColumns.discharge`: the values with more energy in a half of the flow of
  a slot.
* `Model.OrdersMoves`: charging sooner and discharging later lowers the bias, charging in one slot what
  is discharged in another raises it.
* `Problem.preference_orders_time`: every preference of a positive size does so.

No column has two biases, so changing a half of the flow by an energy changes the bias by the bias of the
slot times that energy (`Model.Built.bias_charge`, `Model.Built.bias_discharge`), and moves compare the
biases of two slots.
-/

namespace Dispatch
set_option autoImplicit false

open Exact Scalar

/-! ## The biases of the slots -/

theorem BiasCurve.real_strictMono (c : BiasCurve) {x y : ℝ} (h0 : 0 ≤ x) (h : x < y) :
    c.real x < c.real y := by
  cases c with
  | linear => exact h
  | quadratic => exact mul_self_lt_mul_self h0 h

namespace Problem
variable {p : Problem Exact} {t : TieBreak Exact}

theorem ramp_strictMono (p : Problem Exact) (t : TieBreak Exact) {i k : ℕ} (hik : i < k)
    (hk : k < p.len) : p.ramp t i < p.ramp t k := by
  have hlen : 1 < p.len := by omega
  have hpos : (0 : ℝ) < (p.len - 1 : ℕ) := Nat.cast_pos.mpr (by omega)
  rw [ramp, ramp, if_pos hlen, if_pos hlen]
  exact t.curve.real_strictMono (div_nonneg (Nat.cast_nonneg i) hpos.le)
    ((div_lt_div_iff_of_pos_right hpos).mpr (Nat.cast_lt.mpr hik))

/-- The bias that the preference gives to a slot. -/
noncomputable def biasOf (p : Problem Exact) (t : TieBreak Exact) (j : ℕ) : SlotBias Exact :=
  p.slotBias t (p.biasStep t) j

/-- A bias of one step at least and two steps at most, dearer for charging and cheaper for discharging
from slot to slot. -/
structure OrdersSlots (p : Problem Exact) (t : TieBreak Exact) : Prop where
  charge : ∀ j < p.len,
    p.biasStep t ≤ (p.biasOf t j).charge ∧ (p.biasOf t j).charge ≤ num 2 * p.biasStep t
  discharge : ∀ j < p.len,
    p.biasStep t ≤ (p.biasOf t j).discharge ∧ (p.biasOf t j).discharge ≤ num 2 * p.biasStep t
  spread : num 0 < p.priceSpread.1 → num 2 * p.biasStep t ≤ t.relative * p.priceSpread.1
  order : t.enabled = true → ∀ i k, i < k → k < p.len →
    (p.biasOf t i).charge < (p.biasOf t k).charge ∧
      (p.biasOf t k).discharge < (p.biasOf t i).discharge

/-- The step is a number, positive where the preference is enabled. -/
theorem Sound.step_cases (hp : p.Sound) (hhours : p.realHours ≠ 0) {r : ℝ}
    (hr : t.relative = num r) (hpos : 0 < r) :
    p.biasStep t = num (p.realStep t) ∧
      (t.enabled = true → 0 < p.realStep t ∧ 2 * p.realStep t = r * p.biasScale) ∧
      (t.enabled = false → p.realStep t = 0) := by
  cases henabled : t.enabled with
  | true =>
    have hstep := hp.realStep_eq hhours henabled hr hpos
    refine ⟨?_, fun _ => ⟨?_, ?_⟩, fun h => absurd h.symm Bool.false_ne_true⟩
    · rw [hstep, hp.biasStep_eq hhours henabled, hr, num_mul, num_div _ two_ne_zero]
    · rw [hstep]
      exact half_pos (mul_pos hpos p.biasScale_pos)
    · rw [hstep]
      ring
  | false =>
    have hstep : p.biasStep t = 0 := by rw [biasStep, henabled, if_neg Bool.false_ne_true]
    have hzero : p.realStep t = 0 := by simp [realStep, hstep, zero_eq]
    exact ⟨by rw [hstep, hzero, zero_eq], fun h => absurd h Bool.false_ne_true, fun _ => hzero⟩

theorem biasOf_eq {b : ℝ} (hb : p.biasStep t = num b) (j : ℕ) :
    p.biasOf t j = ⟨num (b * (1 + p.ramp t j)), num (b * (2 - p.ramp t j))⟩ := by
  rw [biasOf, slotBias_eq, hb, num_mul, num_mul]

/-- A spread that is positive is the scale of the preference. -/
theorem Sound.spread_eq (hp : p.Sound) (hhours : p.realHours ≠ 0) (h : num 0 < p.priceSpread.1) :
    p.priceSpread.1 = num p.biasScale := by
  have hgt : gt p.priceSpread.1 0 = true := h
  rw [← hp.priceSpread_scale hhours, if_pos hgt]

theorem Sound.ordersSlots (hp : p.Sound) (hhours : p.realHours ≠ 0) {r : ℝ}
    (hr : t.relative = num r) (hpos : 0 < r) : p.OrdersSlots t := by
  obtain ⟨hstep, hon, hoff⟩ := hp.step_cases hhours hr hpos
  have hnonneg := p.realStep_nonneg t
  refine ⟨fun j hj => ?_, fun j hj => ?_, fun hspread => ?_, fun henabled i k hik hk => ?_⟩
  · obtain ⟨h0, h1⟩ := p.ramp_mem t hj
    rw [biasOf_eq hstep, hstep, num_mul, num_le_num, num_le_num]
    exact ⟨by nlinarith, by nlinarith⟩
  · obtain ⟨h0, h1⟩ := p.ramp_mem t hj
    rw [biasOf_eq hstep, hstep, num_mul, num_le_num, num_le_num]
    exact ⟨by nlinarith, by nlinarith⟩
  · rw [hp.spread_eq hhours hspread, hstep, hr, num_mul, num_mul, num_le_num]
    cases henabled : t.enabled with
    | true => exact (hon henabled).2.le
    | false =>
      rw [hoff henabled, mul_zero]
      exact (mul_pos hpos p.biasScale_pos).le
  · have hramp := p.ramp_strictMono t hik hk
    have hb := (hon henabled).1
    rw [biasOf_eq hstep, biasOf_eq hstep, num_lt_num, num_lt_num]
    exact ⟨mul_lt_mul_of_pos_left (by linarith) hb, mul_lt_mul_of_pos_left (by linarith) hb⟩

end Problem

/-! ## Changing one value -/

/-- Where no column has two terms, changing the value of one changes the sum by its own term. -/
theorem termsValue_update {ts : List (ℕ × Exact)} (h : (ts.map Prod.fst).Nodup) {column : ℕ} {x : Exact}
    (hmem : (column, x) ∈ ts) (v : ℕ → ℝ) (y : ℝ) :
    termsValue (Function.update v column (v column + y)) ts = termsValue v ts + x.toReal * y := by
  induction ts with
  | nil => cases hmem
  | cons u ts ih =>
    obtain ⟨hfresh, hrest⟩ := List.nodup_cons.mp h
    simp only [termsValue, List.map_cons, List.sum_cons] at ih ⊢
    rcases List.mem_cons.mp hmem with rfl | hmem
    · have hother : ts.map (fun u => u.2.toReal * Function.update v column (v column + y) u.1) =
          ts.map fun u => u.2.toReal * v u.1 := by
        refine List.map_congr_left fun u hu => ?_
        rw [Function.update_of_ne]
        rintro rfl
        exact hfresh (List.mem_map.mpr ⟨u, hu, rfl⟩)
      rw [hother, Function.update_self]
      ring
    · have hne : u.1 ≠ column := by
        rintro rfl
        exact hfresh (List.mem_map.mpr ⟨_, hmem, rfl⟩)
      rw [ih hrest hmem, Function.update_of_ne hne]
      ring

/-- What the preference adds where the columns hold these real numbers. -/
noncomputable def Objective.bias (o : Objective Exact) (h : Handles Exact) (v : ℕ → ℝ) : Exact :=
  (o.evaluate h fun i => num (v i)).tieBreak

namespace DeviceColumns

/-- The values with the energy `e` more in the charging half of a slot. -/
noncomputable def charge (c : DeviceColumns) (hours : ℝ) (j : ℕ) (e : ℝ) (v : ℕ → ℝ) : ℕ → ℝ :=
  Function.update v (c.up.getD j 0) (v (c.up.getD j 0) + e / hours)

/-- The values with the energy `e` more in the discharging half of a slot, which counts below zero. -/
noncomputable def discharge (c : DeviceColumns) (hours : ℝ) (j : ℕ) (e : ℝ) (v : ℕ → ℝ) : ℕ → ℝ :=
  Function.update v (c.down.getD j 0) (v (c.down.getD j 0) + -e / hours)

end DeviceColumns

theorem Problem.mem_biasTerms {p : Problem Exact} {t : TieBreak Exact} {beta : Exact}
    (hbeta : gt beta 0 = true) {devices : List DeviceColumns} {d : Device Exact} {c : DeviceColumns}
    (hmem : (d, c) ∈ p.devices.zip devices) (hprefers : d.hasPreference = true) {j : ℕ}
    (hj : j < p.len) :
    (c.up.getD j 0, (p.slotBias t beta j).charge * p.hours) ∈ p.biasTerms t beta devices ∧
      (c.down.getD j 0, -(p.slotBias t beta j).discharge * p.hours) ∈ p.biasTerms t beta devices := by
  have hprefers' : (d.stock.isSome && d.chargeSooner) = true := hprefers
  have hsubset : p.deviceBias t beta c ⊆ p.biasTerms t beta devices := by
    intro x hx
    rw [biasTerms, if_pos hbeta]
    refine List.mem_flatMap.mpr ⟨(d, c), hmem, ?_⟩
    simp only [hprefers', if_true]
    exact hx
  have hslot : ∀ x ∈ [(c.up.getD j 0, (p.slotBias t beta j).charge * p.hours),
      (c.down.getD j 0, -(p.slotBias t beta j).discharge * p.hours)], x ∈ p.deviceBias t beta c :=
    fun x hx => List.mem_flatMap.mpr ⟨j, List.mem_range.mpr hj, hx⟩
  exact ⟨hsubset (hslot _ List.mem_cons_self),
    hsubset (hslot _ (List.mem_cons_of_mem _ (List.mem_singleton_self _)))⟩

namespace Model.Built
variable {p : Problem Exact} {margin : Exact} {m : Model Exact} {t : TieBreak Exact}
  {d : Device Exact} {c : DeviceColumns} {b : ℝ} {j : ℕ}

/-- The value of the terms of the preference. -/
noncomputable def biasValue (p : Problem Exact) (m : Model Exact) (t : TieBreak Exact) (v : ℕ → ℝ) : ℝ :=
  termsValue v (p.biasTerms t (p.biasStep t) m.handles.devices)

theorem bias_eq (hp : p.Sound) (hhours : p.realHours ≠ 0) (ht : t.relative ≠ inf) (m : Model Exact)
    (v : ℕ → ℝ) :
    (Objective.compose p m.handles t).bias m.handles v = num (biasValue p m t v) :=
  valueOf_num (hp.bias_num hhours ht m.handles).1 v

theorem biasValue_of_zero (hstep : p.biasStep t = num 0) (v : ℕ → ℝ) : biasValue p m t v = 0 := by
  have hzero : ¬gt (num 0) 0 = true := by simp [zero_eq]
  rw [biasValue, hstep, Problem.biasTerms, if_neg hzero, termsValue, List.map_nil, List.sum_nil]

theorem biasValue_update (hb : m.Built p margin) (hhours : p.realHours ≠ 0) {column : ℕ} {x : ℝ}
    (hterm : (column, num x * p.hours) ∈ p.biasTerms t (p.biasStep t) m.handles.devices)
    (v : ℕ → ℝ) (e : ℝ) :
    biasValue p m t (Function.update v column (v column + e / p.realHours)) =
      biasValue p m t v + x * e := by
  have hnodup := hb.nodup_terms t (p.biasStep t)
  rw [List.map_append, List.nodup_append] at hnodup
  rw [biasValue, termsValue_update hnodup.2.1 hterm, p.hours_eq, num_mul, toReal_num,
    mul_assoc, mul_div_cancel₀ _ hhours, biasValue]

/-- More energy in a half of a slot adds the bias of the slot for it. -/
theorem biasValue_moved (hb : m.Built p margin) (hhours : p.realHours ≠ 0)
    (hstep : p.biasStep t = num b) (hnonneg : 0 ≤ b) (hmem : (d, c) ∈ p.devices.zip m.handles.devices)
    (hprefers : d.hasPreference = true) (hj : j < p.len) (v : ℕ → ℝ) (e : ℝ) :
    biasValue p m t (c.charge p.realHours j e v) = biasValue p m t v + b * (1 + p.ramp t j) * e ∧
      biasValue p m t (c.discharge p.realHours j e v) =
        biasValue p m t v + b * (2 - p.ramp t j) * e := by
  rcases hnonneg.eq_or_lt with rfl | hpos
  · simp only [biasValue_of_zero hstep, zero_mul, add_zero, and_self]
  · have hbeta : gt (p.biasStep t) 0 = true := by
      rw [hstep, zero_eq, num_gt]
      exact decide_eq_true hpos
    obtain ⟨hup, hdown⟩ := Problem.mem_biasTerms (t := t) hbeta hmem hprefers hj
    have hslot : p.slotBias t (p.biasStep t) j = _ := Problem.biasOf_eq hstep j
    rw [hslot] at hup hdown
    refine ⟨hb.biasValue_update hhours hup v e, ?_⟩
    have hdown' : (c.down.getD j 0, num (-(b * (2 - p.ramp t j))) * p.hours) ∈
        p.biasTerms t (p.biasStep t) m.handles.devices := hdown
    rw [DeviceColumns.discharge, hb.biasValue_update hhours hdown' v (-e), neg_mul_neg]

end Model.Built

/-! ## Moves of energy -/

/-- What the preference adds falls when a charge moves to an earlier slot or a discharge to a later one.
It rises by two steps per kWh at least when one slot, or another, charges what a slot discharges. -/
structure Model.OrdersMoves (p : Problem Exact) (m : Model Exact) (t : TieBreak Exact)
    (c : DeviceColumns) : Prop where
  sooner : t.enabled = true → ∀ (v : ℕ → ℝ) (i k : ℕ) (e : ℝ), i < k → k < p.len → 0 < e →
    (Objective.compose p m.handles t).bias m.handles
        (c.charge p.realHours i e (c.charge p.realHours k (-e) v)) <
      (Objective.compose p m.handles t).bias m.handles v
  later : t.enabled = true → ∀ (v : ℕ → ℝ) (i k : ℕ) (e : ℝ), i < k → k < p.len → 0 < e →
    (Objective.compose p m.handles t).bias m.handles
        (c.discharge p.realHours k e (c.discharge p.realHours i (-e) v)) <
      (Objective.compose p m.handles t).bias m.handles v
  cycle : ∀ (v : ℕ → ℝ) (i k : ℕ) (e : ℝ), i < p.len → k < p.len → 0 ≤ e →
    (Objective.compose p m.handles t).bias m.handles v + num 2 * p.biasStep t * num e ≤
      (Objective.compose p m.handles t).bias m.handles
        (c.charge p.realHours i e (c.discharge p.realHours k e v))

theorem Model.Built.ordersMoves {p : Problem Exact} {margin : Exact} {m : Model Exact}
    (hb : m.Built p margin) (hp : p.Sound) (hhours : p.realHours ≠ 0) {t : TieBreak Exact} {r : ℝ}
    (hr : t.relative = num r) (hpos : 0 < r) {d : Device Exact} {c : DeviceColumns}
    (hmem : (d, c) ∈ p.devices.zip m.handles.devices) (hprefers : d.hasPreference = true) :
    Model.OrdersMoves p m t c := by
  obtain ⟨hstep, hon, -⟩ := hp.step_cases hhours hr hpos
  have hnonneg := p.realStep_nonneg t
  have hbias := bias_eq hp hhours (fun h => nomatch hr.symm.trans h) m
  have hcharge {j : ℕ} (hj : j < p.len) (v : ℕ → ℝ) (e : ℝ) :=
    (hb.biasValue_moved hhours hstep hnonneg hmem hprefers hj v e).1
  have hdischarge {j : ℕ} (hj : j < p.len) (v : ℕ → ℝ) (e : ℝ) :=
    (hb.biasValue_moved hhours hstep hnonneg hmem hprefers hj v e).2
  -- What a move between the slots changes is the same in both directions: the ramp between them.
  have hgain (henabled : t.enabled = true) {i k : ℕ} (hik : i < k) (hk : k < p.len) {e : ℝ}
      (he : 0 < e) : 0 < p.realStep t * (p.ramp t k - p.ramp t i) * e :=
    mul_pos (mul_pos (hon henabled).1 (sub_pos.mpr (p.ramp_strictMono t hik hk))) he
  refine ⟨fun henabled v i k e hik hk he => ?_, fun henabled v i k e hik hk he => ?_,
    fun v i k e hi hk he => ?_⟩
  · have := hgain henabled hik hk he
    rw [hbias, hbias, num_lt_num, hcharge (hik.trans hk), hcharge hk]
    linarith
  · have := hgain henabled hik hk he
    rw [hbias, hbias, num_lt_num, hdischarge hk, hdischarge (hik.trans hk)]
    linarith
  · -- The one bias is a step at least, and so is the other: neither ramp leaves the unit interval.
    have hslots : 0 ≤ p.realStep t * (1 + p.ramp t i - p.ramp t k) * e := by
      have hi0 := (p.ramp_mem t hi).1
      have hk1 := (p.ramp_mem t hk).2
      exact mul_nonneg (mul_nonneg hnonneg (by linarith)) he
    rw [hbias, hbias, hstep, num_mul, num_mul, num_add, num_le_num, hcharge hi, hdischarge hk]
    linarith

namespace Problem

/-- Every preference of a positive size orders the slots, unless it is disabled, and in every model it
orders the moves of each storage that prefers to charge sooner. -/
theorem preference_orders_time {p : Problem Exact} (hgrid : p.grid.Made) (hcheck : p.check = .ok ())
    {t : TieBreak Exact} {r : ℝ} (hr : t.relative = num r) (hpos : 0 < r) {margin : ℝ}
    (hmargin : 0 ≤ margin) :
    p.OrdersSlots t ∧ ∃ m, p.model (num margin) = .ok m ∧
      ∀ (i : ℕ) (d : Device Exact), p.devices[i]? = some d → d.hasPreference = true →
        Model.OrdersMoves p m t (m.handles.devices.getD i .empty) := by
  have hp := sound_of_check hcheck
  have hhours := hgrid.realHours_pos.ne'
  obtain ⟨m, hm, hb⟩ := exists_built hcheck hmargin
  refine ⟨hp.ordersSlots hhours hr hpos, m, hm, fun i d hd hprefers => ?_⟩
  have hlt : i < m.handles.devices.length :=
    hb.devices.length_eq ▸ (List.getElem?_eq_some_iff.mp hd).1
  have hc : m.handles.devices[i]? = some (m.handles.devices.getD i .empty) := by
    rw [List.getD_eq_getElem?_getD, List.getElem?_eq_getElem hlt, Option.getD_some]
  exact hb.ordersMoves hp hhours hr hpos
    (List.mem_of_getElem? (List.getElem?_zip_eq_some.mpr ⟨hd, hc⟩)) hprefers

/-- The battery on any grid, preferring to charge sooner. -/
noncomputable def eager (g : Grid) : Problem Exact :=
  { idle g with devices := [{ idleBattery g.len with chargeSooner := true }] }

theorem eager_check {g : Grid} (hlen : 0 < g.len) : (eager g).check = .ok () :=
  importing_check hlen (idleBattery_check g.len)

theorem twoHours_made : Grid.twoHours.Made :=
  ⟨⟨0, 0⟩, ⟨7200, 0⟩, Span.ofSeconds 3600, .utc, rfl⟩

/-- Over two hours, moving a kWh of charging from the second to the first lowers the bias. -/
theorem eager_charges_sooner : ∃ m, (eager Grid.twoHours).model (num 1) = .ok m ∧ ∀ v : ℕ → ℝ,
    let c := m.handles.devices.getD 0 .empty
    let hours := (eager Grid.twoHours).realHours
    let o := Objective.compose (eager Grid.twoHours) m.handles .standard
    o.bias m.handles (c.charge hours 0 1 (c.charge hours 1 (-1) v)) < o.bias m.handles v := by
  obtain ⟨-, m, hm, hmoves⟩ := preference_orders_time (t := .standard) twoHours_made
    (eager_check two_pos) (lit_eq 1 3) (by norm_num) zero_le_one
  exact ⟨m, hm, fun v => (hmoves 0 _ rfl rfl).sooner rfl v 0 1 1 one_pos one_lt_two one_pos⟩

/-- A disabled preference has a size too, but gives every slot the same bias. -/
theorem disabled_preference_orders_nothing : (eager Grid.twoHours).check = .ok () ∧
    (∃ r : ℝ, 0 < r ∧ (TieBreak.disabled : TieBreak Exact).relative = num r) ∧
    ¬((eager Grid.twoHours).biasOf .disabled 0).charge <
      ((eager Grid.twoHours).biasOf .disabled 1).charge := by
  have hstep : (eager Grid.twoHours).biasStep .disabled = num 0 := rfl
  refine ⟨eager_check two_pos, ⟨_, by norm_num, lit_eq 1 3⟩, ?_⟩
  simp only [biasOf_eq hstep, zero_mul, num_lt_num, lt_irrefl, not_false_eq_true]

end Problem

end Dispatch
