import Mathlib.Topology.Order.IntermediateValue
import Mathlib.Topology.Instances.Real.Lemmas
import Dispatch.Proofs.Plan.Checks

/-! # The levels that a storage can reach

* `Stock.path_mono`: more flow never leads to a lower level.
* `Stock.exists_path_eq`: between two series of flows lie flows that lead to any level between theirs.
* `Stock.OnlyTarget`: a target in one slot, and no other limit on the level.
* `Device.reachable_levels`: what flows inside the power band can reach is what lies between the levels
  of the lowest and of the highest flows.
-/

namespace Dispatch
set_option autoImplicit false

open Exact Scalar

namespace Stock
variable {s : Stock Exact} {len : ℕ}

/-! ## More flow -/

theorem SoundSlot.realChange_mono {j : ℕ} (h : s.SoundSlot j) {hours : ℝ} (hh : 0 ≤ hours)
    {flow flow' : ℝ} (hle : flow ≤ flow') :
    s.realChange hours j (upHalf flow) (downHalf flow) ≤
      s.realChange hours j (upHalf flow') (downHalf flow') := by
  have hup : hours * s.upShare j * upHalf flow ≤ hours * s.upShare j * upHalf flow' :=
    mul_le_mul_of_nonneg_left (max_le_max_right 0 hle) (mul_nonneg hh h.upShare_pos.le)
  have hdown : hours / s.downShare j * downHalf flow ≤ hours / s.downShare j * downHalf flow' :=
    mul_le_mul_of_nonneg_left (min_le_min_right 0 hle) (div_nonneg hh h.downShare_pos.le)
  unfold realChange
  linarith

theorem SoundSlot.step_mono {j : ℕ} (h : s.SoundSlot j) {hours : ℝ} (hh : 0 ≤ hours)
    {level level' flow flow' : ℝ} (hlevel : level ≤ level') (hflow : flow ≤ flow') :
    s.step hours j level (upHalf flow) (downHalf flow) ≤
      s.step hours j level' (upHalf flow') (downHalf flow') := by
  obtain ⟨-, ⟨hcarry, -⟩, hintake, -⟩ := h.coefficients
  exact add_le_add (mul_le_mul_of_nonneg_right hlevel hcarry.le)
    (mul_le_mul_of_nonneg_right (h.realChange_mono hh hflow) hintake.le)

/-- Both shares of a slot are positive, so a higher level stays higher. -/
theorem Sound.path_mono (h : s.Sound len) {hours : ℝ} (hh : 0 ≤ hours) {flow flow' : ℕ → ℝ}
    (hle : ∀ j < len, flow j ≤ flow' j) {n : ℕ} (hn : n ≤ len) :
    s.path hours flow n ≤ s.path hours flow' n := by
  induction n with
  | zero => exact le_rfl
  | succ n ih => exact (h.slot n hn).step_mono hh (ih (Nat.le_of_succ_le hn)) (hle n hn)

/-! ## Flows in between -/

/-- The flows at a share `x` of the way from the lower ones to the higher ones. -/
def between (low high : ℕ → ℝ) (x : ℝ) (j : ℕ) : ℝ := low j + x * (high j - low j)

theorem between_mem {low high : ℕ → ℝ} {x : ℝ} (hx : x ∈ Set.Icc (0 : ℝ) 1) {j : ℕ}
    (hle : low j ≤ high j) : low j ≤ between low high x j ∧ between low high x j ≤ high j := by
  have hgap : 0 ≤ high j - low j := sub_nonneg.mpr hle
  have hpart : 0 ≤ x * (high j - low j) := mul_nonneg hx.1 hgap
  have hwhole : x * (high j - low j) ≤ high j - low j := mul_le_of_le_one_left hgap hx.2
  exact ⟨by unfold between; linarith, by unfold between; linarith⟩

theorem between_zero (low high : ℕ → ℝ) : between low high 0 = low := by
  funext j
  rw [between, zero_mul, add_zero]

theorem between_one (low high : ℕ → ℝ) : between low high 1 = high := by
  funext j
  rw [between, one_mul, add_sub_cancel]

theorem continuous_path (s : Stock Exact) (hours : ℝ) (low high : ℕ → ℝ) (n : ℕ) :
    Continuous fun x => s.path hours (between low high x) n := by
  induction n with
  | zero => exact continuous_const
  | succ n ih =>
    have hflow : Continuous fun x => between low high x n := by
      unfold between
      fun_prop
    have hup : Continuous fun x => upHalf (between low high x n) := hflow.max continuous_const
    have hdown : Continuous fun x => downHalf (between low high x n) := hflow.min continuous_const
    show Continuous fun x => s.step hours n (s.path hours (between low high x) n)
      (upHalf (between low high x n)) (downHalf (between low high x n))
    unfold step realChange
    fun_prop

/-- The level moves from the one end to the other without a jump while the flows do. -/
theorem exists_path_eq (s : Stock Exact) (hours : ℝ) (low high : ℕ → ℝ) {n : ℕ} {level : ℝ}
    (hlow : s.path hours low n ≤ level) (hhigh : level ≤ s.path hours high n) :
    ∃ x ∈ Set.Icc (0 : ℝ) 1, s.path hours (between low high x) n = level := by
  have hends : level ∈ Set.Icc (s.path hours (between low high 0) n)
      (s.path hours (between low high 1) n) := by
    rw [between_zero, between_one]
    exact ⟨hlow, hhigh⟩
  exact intermediate_value_Icc zero_le_one (s.continuous_path hours low high n).continuousOn hends

/-! ## Targets -/

/-- The level is to be `e` above the initial one after slot `j`; otherwise it is free. -/
structure OnlyTarget (s : Stock Exact) (len j : ℕ) (e : Exact) : Prop where
  min : ∀ i < len, valueAt s.min i = negInf
  max : ∀ i < len, valueAt s.max i = inf
  target : givenAt s.equals j = some e
  others : ∀ i < len, i ≠ j → givenAt s.equals i = none

theorem OnlyTarget.violations_eq_nil {j : ℕ} {e : Exact} (ht : s.OnlyTarget len j e)
    (h : s.Sound len) (hj : j < len) (hours : ℝ) (flow : ℕ → ℝ) :
    s.violations (s.replayed hours len flow) 0 = [] ↔
      valueAt (s.replayed hours len flow) j = s.initial + e := by
  have he : e = num e.toReal := (h.slot j hj).target_eq e ht.target
  have hfree : ∀ i < len, ∀ level, (∀ e', givenAt s.equals i = some e' →
      level - s.start - e'.toReal = 0) ↔ LevelPasses s 0 i level := by
    intro i hi level
    have hlow : ¬num (level - s.start) < negInf - num 0 := by rintro ⟨⟩
    have hhigh : ¬inf + num 0 < num (level - s.start) := by rintro ⟨⟩
    constructor
    · intro hmet
      exact ⟨by rwa [ht.min i hi], by rwa [ht.max i hi], fun e' he' => by rw [hmet e' he', abs_zero]⟩
    · intro hpasses e' he'
      exact abs_nonpos_iff.mp (hpasses.target e' he')
  rw [replayed, replay_eq h, zero_eq, Dispatch.violations_eq_nil h, ← replay_eq h,
    valueAt_replay h hours flow hj, h.initial_eq, he, num_add, num_inj]
  constructor
  · intro hall
    have hmet := (hfree j hj _).mpr (hall j hj) e ht.target
    linarith
  · intro hmet i hi
    refine (hfree i hi _).mp fun e' he' => ?_
    rcases eq_or_ne i j with rfl | hne
    · rw [Option.some.inj (he'.symm.trans ht.target), hmet]
      ring
    · rw [ht.others i hi hne] at he'
      cases he'

end Stock

/-! ## Inside the power band -/

namespace Device

def WithinBand (d : Device Exact) (len : ℕ) (flow : ℕ → ℝ) : Prop :=
  ∀ j < len, valueAt d.powerMin j ≤ num (flow j) ∧ num (flow j) ≤ valueAt d.powerMax j

theorem Sound.withinBand_iff {d : Device Exact} {len : ℕ} (h : d.Sound len) (flow : ℕ → ℝ) :
    d.WithinBand len flow ↔ ∀ j < len, d.InBand j (flow j) :=
  forall₂_congr fun j hj => by
    rw [h.powerMin_eq j hj, h.powerMax_eq j hj, num_le_num, num_le_num, InBand]

/-- Flows inside the band reach just the levels between those of its two ends. -/
theorem Sound.reachable_iff {d : Device Exact} {len : ℕ} (h : d.Sound len) {s : Stock Exact}
    (hs : d.stock = some s) {hours : ℝ} (hh : 0 ≤ hours) {j : ℕ} (hj : j < len) (level : Exact) :
    (∃ flow, d.WithinBand len flow ∧ valueAt (s.replayed hours len flow) j = level) ↔
      valueAt (s.replay d.powerMin (num hours)) j ≤ level ∧
        level ≤ valueAt (s.replay d.powerMax (num hours)) j := by
  have hsound := h.stock s hs
  rw [eq_map_range h.powerMin_length h.powerMin_eq, eq_map_range h.powerMax_length h.powerMax_eq,
    Stock.valueAt_replay hsound hours d.low hj, Stock.valueAt_replay hsound hours d.high hj]
  constructor
  · rintro ⟨flow, hflow, rfl⟩
    have hband := (h.withinBand_iff flow).mp hflow
    rw [hsound.valueAt_replayed hours flow hj, num_le_num, num_le_num]
    exact ⟨hsound.path_mono hh (fun i hi => (hband i hi).1) hj,
      hsound.path_mono hh (fun i hi => (hband i hi).2) hj⟩
  · rintro ⟨hlow, hhigh⟩
    cases level with
    | num x =>
      obtain ⟨share, hshare, hpath⟩ := s.exists_path_eq hours d.low d.high
        ((num_le_num _ _).mp hlow) ((num_le_num _ _).mp hhigh)
      refine ⟨Stock.between d.low d.high share, (h.withinBand_iff _).mpr fun i hi =>
        Stock.between_mem hshare (h.low_le_high i hi), ?_⟩
      rw [hsound.valueAt_replayed hours _ hj, hpath]
    | inf => cases hhigh
    | negInf => cases hlow
    | nan => cases hlow

/-- More flow in every slot leaves every level as high or higher. The levels that flows inside the power
band can reach in a slot are all those between the levels of the lowest and of the highest flows, and so
are the targets that can be met where nothing else limits the level. -/
theorem reachable_levels {d : Device Exact} {len : ℕ} (hd : d.check len = .ok ()) {s : Stock Exact}
    (hs : d.stock = some s) {hours : ℝ} (hh : 0 < hours) :
    (∀ flow flow' : ℕ → ℝ, (∀ j < len, flow j ≤ flow' j) → ∀ j < len,
      valueAt (s.replayed hours len flow) j ≤ valueAt (s.replayed hours len flow') j) ∧
    ∀ j < len, (∀ level : Exact,
      (∃ flow, d.WithinBand len flow ∧ valueAt (s.replayed hours len flow) j = level) ↔
        valueAt (s.replay d.powerMin (num hours)) j ≤ level ∧
          level ≤ valueAt (s.replay d.powerMax (num hours)) j) ∧
      ∀ e, s.OnlyTarget len j e →
        ((∃ flow, d.WithinBand len flow ∧ s.violations (s.replayed hours len flow) 0 = []) ↔
          valueAt (s.replay d.powerMin (num hours)) j ≤ s.initial + e ∧
            s.initial + e ≤ valueAt (s.replay d.powerMax (num hours)) j) := by
  have hsound := sound_of_check hd
  have hstock := hsound.stock s hs
  refine ⟨fun flow flow' hle j hj => ?_, fun j hj => ⟨hsound.reachable_iff hs hh.le hj, fun e ht => ?_⟩⟩
  · rw [hstock.valueAt_replayed hours flow hj, hstock.valueAt_replayed hours flow' hj, num_le_num]
    exact hstock.path_mono hh.le hle hj
  · rw [← hsound.reachable_iff hs hh.le hj]
    exact exists_congr fun flow =>
      and_congr_right fun _ => ht.violations_eq_nil hstock hj hours flow

end Device

/-! ## A battery with a target -/

/-- The stock of the battery without its lower limit, with a target instead. -/
noncomputable def aimedStock (e : ℝ) : Stock Exact :=
  { Problem.batteryStock with min := [negInf], equals := [some (num e)] }

noncomputable def aimedBattery (e : ℝ) : Device Exact :=
  { Problem.battery with stock := some (aimedStock e) }

theorem aimedBattery_check (e : ℝ) : (aimedBattery e).check 1 = .ok () :=
  Problem.battery_check (s := aimedStock e)
    (Problem.batteryStock_check negInf (some e) rfl one_pos le_rfl) false

theorem aimedStock_onlyTarget (e : ℝ) : (aimedStock e).OnlyTarget 1 0 (num e) where
  min i hi := by rw [Nat.lt_one_iff.mp hi]; rfl
  max i hi := by rw [Nat.lt_one_iff.mp hi]; rfl
  target := rfl
  others i hi hne := absurd (Nat.lt_one_iff.mp hi) hne

theorem aimedStock_replay (e x : ℝ) :
    valueAt ((aimedStock e).replay [num x] (num 1)) 0 = num (1 + (min x 0 + max x 0 / 2)) := by
  have hlossless : (aimedStock e).coefficients 0 = (num 1, num 1) := by
    simp [Stock.coefficients, Decay.coefficients, losslessMargin, aimedStock, Problem.batteryStock,
      valueAt, one_eq]
  have hone : (num (min x 0) : Exact) / num 1 = num (min x 0) := by
    rw [num_div _ one_ne_zero, div_one]
  simp only [Stock.replay, Stock.replayFrom, Stock.after, Stock.change, hlossless]
  simp [aimedStock, Problem.batteryStock, valueAt, zero_eq, hone, div_eq_mul_inv]

/-- Charging at half its worth the battery gains at most half a kilowatt hour in its hour. -/
theorem aimedBattery_levels :
    (∃ flow, (aimedBattery (1 / 4)).WithinBand 1 flow ∧
      (aimedStock (1 / 4)).violations ((aimedStock (1 / 4)).replayed 1 1 flow) 0 = []) ∧
    ¬∃ flow, (aimedBattery 1).WithinBand 1 flow ∧
      (aimedStock 1).violations ((aimedStock 1).replayed 1 1 flow) 0 = [] := by
  have hmet := ((Device.reachable_levels (aimedBattery_check (1 / 4)) rfl one_pos).2 0 one_pos).2 _
    (aimedStock_onlyTarget (1 / 4))
  have hmissed := ((Device.reachable_levels (aimedBattery_check 1) rfl one_pos).2 0 one_pos).2 _
    (aimedStock_onlyTarget 1)
  have hlowest (e : ℝ) :
      valueAt ((aimedStock e).replay (aimedBattery e).powerMin (num 1)) 0 = num 0 := by
    rw [show (aimedBattery e).powerMin = [num (-1)] from rfl, aimedStock_replay]
    norm_num
  have hhighest (e : ℝ) :
      valueAt ((aimedStock e).replay (aimedBattery e).powerMax (num 1)) 0 = num (3 / 2) := by
    rw [show (aimedBattery e).powerMax = [num 1] from rfl, aimedStock_replay]
    norm_num
  have hlevel (e : ℝ) : (aimedStock e).initial + num e = num (1 + e) := rfl
  rw [hmet, hmissed, hlowest, hlowest, hhighest, hhighest, hlevel, hlevel]
  simp only [num_le_num]
  norm_num

end Dispatch
