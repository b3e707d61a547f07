import Mathlib.Tactic.Linarith
import Mathlib.Tactic.Positivity
import Dispatch.Proofs.Problem.Sound
import Dispatch.Proofs.Stock.Shares

/-! # The levels that flows lead to

* `Stock.step`: the level after a slot, in real numbers.
* `Stock.path`: the levels before slots `0`, `1`, … for given flows; `Stock.replay` lists them from
  the first slot's end on.
* `Device.bound`: no flow of a device is larger.
* `Device.reach`: no level is larger that flows inside the power band lead to.

The share of a level that a slot keeps and the share of a change that it stores both lie in `(0, 1]`
for every decay, so a level moves away from zero by at most the change of the slot.
-/

namespace Dispatch
set_option autoImplicit false

open Exact Scalar

/-! ## Halves of a flow -/

noncomputable def upHalf (flow : ℝ) : ℝ := max flow 0

noncomputable def downHalf (flow : ℝ) : ℝ := min flow 0

theorem upHalf_nonneg (flow : ℝ) : 0 ≤ upHalf flow := le_max_right _ _

theorem downHalf_nonpos (flow : ℝ) : downHalf flow ≤ 0 := min_le_right _ _

theorem upHalf_add_downHalf (flow : ℝ) : upHalf flow + downHalf flow = flow := by
  rw [upHalf, downHalf, max_add_min, add_zero]

/-- A flow made of two halves, one of which is zero, has these halves. -/
theorem halves_of_add {up down : ℝ} (hu : 0 ≤ up) (hd : down ≤ 0) (h : up = 0 ∨ down = 0) :
    upHalf (up + down) = up ∧ downHalf (up + down) = down := by
  rcases h with rfl | rfl
  · rw [upHalf, downHalf, zero_add, max_eq_right hd, min_eq_left hd]
    exact ⟨rfl, rfl⟩
  · rw [upHalf, downHalf, add_zero, max_eq_left hu, min_eq_right hu]
    exact ⟨rfl, rfl⟩

namespace Stock

/-- The share of the level that a slot keeps. -/
noncomputable def carry (s : Stock Exact) (j : ℕ) : ℝ := (s.coefficients j).1.toReal

/-- The share of its change that a slot stores. -/
noncomputable def intake (s : Stock Exact) (j : ℕ) : ℝ := (s.coefficients j).2.toReal

theorem SoundSlot.shares_eq {s : Stock Exact} {j : ℕ} (h : s.SoundSlot j) :
    s.mode.shares (s.kept j) = (s.carry j, s.intake j) := by
  rw [carry, intake, Stock.coefficients, h.retention_eq, s.mode.coefficients_eq h.kept_pos h.kept_le,
    toReal_num, toReal_num]

theorem SoundSlot.coefficients {s : Stock Exact} {j : ℕ} (h : s.SoundSlot j) :
    s.coefficients j = (num (s.carry j), num (s.intake j)) ∧
      (0 < s.carry j ∧ s.carry j ≤ 1) ∧ 0 < s.intake j ∧ s.intake j ≤ 1 := by
  have hcoef : s.coefficients j = (num (s.carry j), num (s.intake j)) := by
    rw [Stock.coefficients, h.retention_eq, s.mode.coefficients_eq h.kept_pos h.kept_le, h.shares_eq]
  have hpos := s.mode.shares_pos h.kept_pos h.kept_le
  have hle := s.mode.shares_le_one h.kept_pos h.kept_le
  rw [h.shares_eq] at hpos hle
  exact ⟨hcoef, ⟨hpos.1, hle.1⟩, hpos.2, hle.2⟩

/-! ## Levels in real numbers -/

/-- The change of a slot from both halves of its flow, before decay. -/
noncomputable def realChange (s : Stock Exact) (hours : ℝ) (j : ℕ) (up down : ℝ) : ℝ :=
  hours * s.upShare j * up + hours / s.downShare j * down + s.drift j

noncomputable def step (s : Stock Exact) (hours : ℝ) (j : ℕ) (level up down : ℝ) : ℝ :=
  level * s.carry j + s.realChange hours j up down * s.intake j

/-- The level before slot `j` under given flows. -/
noncomputable def path (s : Stock Exact) (hours : ℝ) (flow : ℕ → ℝ) : ℕ → ℝ
  | 0 => s.start
  | j + 1 => s.step hours j (path s hours flow j) (upHalf (flow j)) (downHalf (flow j))

theorem SoundSlot.change_eq {s : Stock Exact} {j : ℕ} (h : s.SoundSlot j) (hours flow : ℝ) :
    s.change j (maxNum (num flow) 0) (minNum (num flow) 0) (num hours) =
      num (s.realChange hours j (upHalf flow) (downHalf flow)) := by
  simp only [change, h.etaUp_eq, h.etaDown_eq, h.delta_eq, zero_eq, num_maxNum, num_minNum, num_mul,
    num_add, num_div _ h.downShare_pos.ne', realChange, num_inj, upHalf, downHalf]
  ring

theorem SoundSlot.after_eq {s : Stock Exact} {j : ℕ} (h : s.SoundSlot j) (hours level flow : ℝ) :
    s.after (num hours) j (num level) (num flow) =
      num (s.step hours j level (upHalf flow) (downHalf flow)) := by
  obtain ⟨hcoef, -⟩ := h.coefficients
  simp only [after, h.change_eq, hcoef, num_mul, num_add]
  rw [step, mul_comm level, mul_comm (s.realChange hours j _ _)]

/-- Replayed flows follow the path, wherever on it the replay begins. -/
theorem replayFrom_eq {s : Stock Exact} {len : ℕ} (h : s.Sound len) (hours : ℝ) (flow : ℕ → ℝ)
    (n j : ℕ) (hn : j + n ≤ len) :
    s.replayFrom (num hours) j (num (s.path hours flow j))
        ((List.range' j n).map fun i => num (flow i)) =
      (List.range' j n).map fun i => num (s.path hours flow (i + 1)) := by
  induction n generalizing j with
  | zero => rfl
  | succ n ih =>
    rw [List.range'_succ, List.map_cons, List.map_cons, replayFrom,
      (h.slot j (by omega)).after_eq]
    have hrest := ih (j + 1) (by omega)
    exact congrArg _ hrest

theorem replay_eq {s : Stock Exact} {len : ℕ} (h : s.Sound len) (hours : ℝ) (flow : ℕ → ℝ) :
    s.replay ((List.range len).map fun i => num (flow i)) (num hours) =
      (List.range len).map fun i => num (s.path hours flow (i + 1)) := by
  rw [replay, h.initial_eq, List.range_eq_range']
  exact replayFrom_eq h hours flow len 0 (by omega)

theorem valueAt_replay {s : Stock Exact} {len : ℕ} (h : s.Sound len) (hours : ℝ) (flow : ℕ → ℝ)
    {j : ℕ} (hj : j < len) :
    valueAt (s.replay ((List.range len).map fun i => num (flow i)) (num hours)) j =
      num (s.path hours flow (j + 1)) := by
  rw [replay_eq h, valueAt_range hj]

/-- The levels at the ends of the slots under given flows. -/
noncomputable def replayed (s : Stock Exact) (hours : ℝ) (len : ℕ) (flow : ℕ → ℝ) : List Exact :=
  s.replay ((List.range len).map fun j => num (flow j)) (num hours)

theorem Sound.valueAt_replayed {s : Stock Exact} {len : ℕ} (h : s.Sound len) (hours : ℝ)
    (flow : ℕ → ℝ) {j : ℕ} (hj : j < len) :
    valueAt (s.replayed hours len flow) j = num (s.path hours flow (j + 1)) :=
  valueAt_replay h hours flow hj

theorem path_congr (s : Stock Exact) (hours : ℝ) {flow flow' : ℕ → ℝ} {n : ℕ}
    (h : ∀ j < n, flow j = flow' j) : s.path hours flow n = s.path hours flow' n := by
  induction n with
  | zero => rfl
  | succ n ih => rw [path, path, ih fun j hj => h j (by omega), h n (by omega)]

end Stock

/-! ## Bounds of a device -/

namespace Device

noncomputable def bound (d : Device Exact) : ℝ := d.flowBound.toReal

theorem Sound.allFinite {d : Device Exact} {len : ℕ} (h : d.Sound len) :
    AllFinite ((d.powerMin ++ d.powerMax).map Scalar.abs) := by
  intro x hx
  obtain ⟨y, hy, rfl⟩ := List.mem_map.mp hx
  rcases List.mem_append.mp hy with hy | hy
  · obtain ⟨j, hj, rfl⟩ := exists_valueAt hy
    rw [h.powerMin_eq j (h.powerMin_length ▸ hj)]
    rfl
  · obtain ⟨j, hj, rfl⟩ := exists_valueAt hy
    rw [h.powerMax_eq j (h.powerMax_length ▸ hj)]
    rfl

theorem Sound.flowBound_peak {d : Device Exact} {len : ℕ} (h : d.Sound len) :
    d.flowBound = num (peak (((d.powerMin ++ d.powerMax).map Scalar.abs).map toReal)) := by
  rw [flowBound, h.allFinite.eq_map, largest_num, ← h.allFinite.eq_map]

theorem Sound.flowBound_eq {d : Device Exact} {len : ℕ} (h : d.Sound len) :
    d.flowBound = num d.bound := by
  rw [bound, h.flowBound_peak, toReal_num]

theorem Sound.bound_eq {d : Device Exact} {len : ℕ} (h : d.Sound len) :
    d.bound = peak (((d.powerMin ++ d.powerMax).map Scalar.abs).map toReal) := by
  rw [bound, h.flowBound_peak, toReal_num]

theorem Sound.bound_nonneg {d : Device Exact} {len : ℕ} (h : d.Sound len) : 0 ≤ d.bound :=
  h.bound_eq ▸ peak_nonneg _

theorem Sound.abs_low_le {d : Device Exact} {len j : ℕ} (h : d.Sound len) (hj : j < len) :
    |d.low j| ≤ d.bound := by
  rw [h.bound_eq]
  have hmem : valueAt d.powerMin j ∈ d.powerMin := valueAt_mem (h.powerMin_length.symm ▸ hj)
  rw [h.powerMin_eq j hj] at hmem
  exact le_peak (List.mem_map.mpr ⟨_, List.mem_map.mpr ⟨_, List.mem_append_left _ hmem, rfl⟩, rfl⟩)

theorem Sound.abs_high_le {d : Device Exact} {len j : ℕ} (h : d.Sound len) (hj : j < len) :
    |d.high j| ≤ d.bound := by
  rw [h.bound_eq]
  have hmem : valueAt d.powerMax j ∈ d.powerMax := valueAt_mem (h.powerMax_length.symm ▸ hj)
  rw [h.powerMax_eq j hj] at hmem
  exact le_peak (List.mem_map.mpr ⟨_, List.mem_map.mpr ⟨_, List.mem_append_right _ hmem, rfl⟩, rfl⟩)

/-- A flow inside the power band of a slot. -/
def InBand (d : Device Exact) (j : ℕ) (flow : ℝ) : Prop := d.low j ≤ flow ∧ flow ≤ d.high j

theorem Sound.abs_flow_le {d : Device Exact} {len j : ℕ} (h : d.Sound len) (hj : j < len)
    {flow : ℝ} (hf : d.InBand j flow) : |flow| ≤ d.bound := by
  have hlow := abs_le.mp (h.abs_low_le hj)
  have hhigh := abs_le.mp (h.abs_high_le hj)
  obtain ⟨h1, h2⟩ := hf
  exact abs_le.mpr ⟨by linarith, by linarith⟩

/-- No level before slot `j` is larger, if all flows are inside the power band. -/
noncomputable def reach (d : Device Exact) (s : Stock Exact) (hours : ℝ) : ℕ → ℝ
  | 0 => |s.start|
  | j + 1 =>
    reach d s hours j +
      max (max (d.high j) 0 * s.upShare j) (max (-d.low j) 0 / s.downShare j) * hours + |s.drift j|

theorem Sound.stockBound_eq {d : Device Exact} {len : ℕ} (h : d.Sound len) {s : Stock Exact}
    (hs : d.stock = some s) (hours : ℝ) : d.stockBound (num hours) = num (d.reach s hours len) := by
  have hsound := h.stock s hs
  suffices hfold : ∀ n ≤ len, (List.range n).foldl
      (fun acc j =>
        let inflow := maxNum (valueAt d.powerMax j) 0 * valueAt s.etaUp j
        let outflow := maxNum (-(valueAt d.powerMin j)) 0 / valueAt s.etaDown j
        acc + maxNum inflow outflow * num hours + Scalar.abs (valueAt s.delta j))
      (Scalar.abs s.initial) = num (d.reach s hours n) by
    simp only [stockBound, hs, Device.len]
    rw [h.powerMin_length]
    exact hfold len le_rfl
  intro n hn
  induction n with
  | zero => rw [List.range_zero, List.foldl_nil, hsound.initial_eq, num_abs, reach]
  | succ n ih =>
    have hslot := hsound.slot n hn
    rw [List.range_succ, List.foldl_append, ih (by omega), List.foldl_cons, List.foldl_nil]
    simp only [h.powerMax_eq n hn, h.powerMin_eq n hn, hslot.etaUp_eq, hslot.etaDown_eq,
      hslot.delta_eq, zero_eq, num_neg, num_maxNum, num_mul, num_add, num_abs,
      num_div _ hslot.downShare_pos.ne', reach]

/-- One of the halves of a flow is zero, so it changes the level by at most the larger of the changes
that its bounds on either side of zero make. -/
theorem abs_flowChange_le {s : Stock Exact} {j : ℕ} (hslot : s.SoundSlot j) {hours : ℝ}
    (hh : 0 ≤ hours) {flow up down : ℝ} (hup : flow ≤ up) (hdown : -flow ≤ down) :
    |hours * s.upShare j * upHalf flow + hours / s.downShare j * downHalf flow| ≤
      max (up * s.upShare j) (down / s.downShare j) * hours := by
  have hu := hslot.upShare_pos
  have hd := hslot.downShare_pos
  set top := max (up * s.upShare j) (down / s.downShare j) with htop
  rw [upHalf, downHalf]
  -- Only the half on the side of the flow is left.
  rcases le_total 0 flow with h0 | h0
  · rw [max_eq_left h0, min_eq_right h0, mul_zero, add_zero, abs_of_nonneg (by positivity)]
    have hle : flow * s.upShare j ≤ top :=
      (mul_le_mul_of_nonneg_right hup hu.le).trans (le_max_left _ _)
    calc hours * s.upShare j * flow = flow * s.upShare j * hours := by ring
      _ ≤ top * hours := mul_le_mul_of_nonneg_right hle hh
  · rw [max_eq_right h0, min_eq_left h0, mul_zero, zero_add, abs_mul, abs_of_nonpos h0,
      abs_of_nonneg (by positivity)]
    have hle : -flow / s.downShare j ≤ top :=
      ((div_le_div_iff_of_pos_right hd).mpr hdown).trans (le_max_right _ _)
    calc hours / s.downShare j * -flow = -flow / s.downShare j * hours := by ring
      _ ≤ top * hours := mul_le_mul_of_nonneg_right hle hh

/-- A flow inside the power band changes the level by at most the larger of the changes at the two
ends of the band. -/
theorem abs_realChange_le {d : Device Exact} {s : Stock Exact} {j : ℕ} (hslot : s.SoundSlot j)
    {hours : ℝ} (hh : 0 ≤ hours) {flow : ℝ} (hf : d.InBand j flow) :
    |s.realChange hours j (upHalf flow) (downHalf flow)| ≤
      max (max (d.high j) 0 * s.upShare j) (max (-d.low j) 0 / s.downShare j) * hours +
        |s.drift j| := by
  have hflow := abs_flowChange_le hslot hh (hf.2.trans (le_max_left _ 0))
    ((neg_le_neg hf.1).trans (le_max_left _ 0))
  exact (abs_add_le _ _).trans (add_le_add_left hflow _)

/-- Every level on a path is reached. The induction follows the recurrence. -/
theorem Sound.abs_path_le {d : Device Exact} {len : ℕ} (h : d.Sound len) {s : Stock Exact}
    (hs : d.stock = some s) {hours : ℝ} (hh : 0 ≤ hours) {flow : ℕ → ℝ}
    (hf : ∀ j < len, d.InBand j (flow j)) {n : ℕ} (hn : n ≤ len) :
    |s.path hours flow n| ≤ d.reach s hours n := by
  induction n with
  | zero => exact le_rfl
  | succ n ih =>
    have hslot := (h.stock s hs).slot n hn
    obtain ⟨-, ⟨hc0, hc1⟩, hi0, hi1⟩ := hslot.coefficients
    have hlevel : |s.path hours flow n * s.carry n| ≤ d.reach s hours n := by
      rw [abs_mul, abs_of_pos hc0]
      exact (mul_le_of_le_one_right (abs_nonneg _) hc1).trans (ih (by omega))
    have hchange : |s.realChange hours n (upHalf (flow n)) (downHalf (flow n)) * s.intake n| ≤
        max (max (d.high n) 0 * s.upShare n) (max (-d.low n) 0 / s.downShare n) * hours +
          |s.drift n| := by
      rw [abs_mul, abs_of_pos hi0]
      exact (mul_le_of_le_one_right (abs_nonneg _) hi1).trans
        (abs_realChange_le hslot hh (hf n hn))
    calc |s.path hours flow (n + 1)| ≤ _ := abs_add_le _ _
      _ ≤ d.reach s hours (n + 1) := by rw [reach]; linarith

theorem Sound.reach_mono {d : Device Exact} {len : ℕ} (h : d.Sound len) {s : Stock Exact}
    (hs : d.stock = some s) {hours : ℝ} (hh : 0 ≤ hours) {n k : ℕ} (hnk : n ≤ k) (hk : k ≤ len) :
    d.reach s hours n ≤ d.reach s hours k := by
  induction k with
  | zero => rw [Nat.le_zero.mp hnk]
  | succ k ih =>
    rcases Nat.lt_or_ge k n with hlt | hle
    · rw [show n = k + 1 by omega]
    · have hslot := (h.stock s hs).slot k hk
      have hstep : 0 ≤ max (max (d.high k) 0 * s.upShare k) (max (-d.low k) 0 / s.downShare k) :=
        le_max_of_le_left (mul_nonneg (le_max_right _ _) hslot.upShare_pos.le)
      have hrest := ih hle (by omega)
      rw [reach]
      have := mul_nonneg hstep hh
      linarith [abs_nonneg (s.drift k)]

end Device

end Dispatch
