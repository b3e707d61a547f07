import Mathlib.Analysis.Convex.SpecificFunctions.Basic
import Mathlib.Analysis.SpecialFunctions.Log.Deriv
import Mathlib.Tactic.Linarith
import Mathlib.Tactic.NormNum
import Dispatch.Stock
import Dispatch.Proofs.Exact.Basic

/-! # What is kept of a level and of a change

* `lossSeries`, `lossQuotient`: the two forms of `linearLossFactor` in real numbers, and `lossFactor`,
  which takes the first near 1 and the second elsewhere.
* `lossFactor_mem`, `lossFactor_mono`: it lies between the retention and 1, and rises with it.
* `Decay.shares`: the coefficients of a slot in real numbers.
* `Decay.shares_mono`, `Decay.shares_ordered`: they rise with the retention, and from one decay to the
  next.

The coefficients change their form at two retentions. They jump there, but never down.
-/

namespace Dispatch
set_option autoImplicit false

open Exact Scalar

/-! ## The share of an even inflow -/

noncomputable def lossSeries (r : ℝ) : ℝ :=
  1 + (r - 1) / (2 : ℕ) - (r - 1) * (r - 1) / (12 : ℕ) + (r - 1) * (r - 1) * (r - 1) / (24 : ℕ)

noncomputable def lossQuotient (r : ℝ) : ℝ := (r - 1) / Real.log r

noncomputable def lossFactor (r : ℝ) : ℝ :=
  if 1 - r < 1 / 10000 then lossSeries r else lossQuotient r

theorem linearLossFactor_eq {r : ℝ} (h0 : 0 < r) (h1 : r ≤ 1) :
    linearLossFactor (num r) = num (lossFactor r) := by
  have hdistance : |r - 1| = 1 - r := by rw [abs_sub_comm, abs_of_nonneg (sub_nonneg.mpr h1)]
  have hmargin : ((1 : ℕ) : ℝ) / 10 ^ 4 = 1 / 10000 := by norm_num
  simp only [linearLossFactor, one_eq, num_sub, num_abs, lit_eq, num_lt, ofNat_eq, num_mul,
    hdistance, hmargin]
  by_cases hnear : 1 - r < 1 / 10000
  · rw [lossFactor, if_pos (decide_eq_true hnear), if_pos hnear, num_div _ (by norm_num),
      num_div _ (by norm_num), num_div _ (by norm_num), num_add, num_sub, num_add, lossSeries]
  · have hlog : Real.log r < 0 := Real.log_neg h0 (by linarith)
    rw [lossFactor, if_neg (by simpa using hnear), if_neg hnear, log_eq h0, num_div _ hlog.ne,
      lossQuotient]

theorem lossSeries_mono {r r' : ℝ} (hr : r ≤ r') (h1 : r' ≤ 1) : lossSeries r ≤ lossSeries r' := by
  set x := 1 - r with hx
  set y := 1 - r' with hy
  have hy0 : 0 ≤ y := by linarith
  have hyx : y ≤ x := by linarith
  have hfactor : lossSeries r' - lossSeries r =
      (x - y) * (1 / 2 + (x + y) / 12 + (x * x + x * y + y * y) / 24) := by
    rw [lossSeries, lossSeries, show r - 1 = -x by linarith, show r' - 1 = -y by linarith]
    push_cast
    ring
  have hpos : 0 ≤ (x - y) * (1 / 2 + (x + y) / 12 + (x * x + x * y + y * y) / 24) := by
    have hx0 : 0 ≤ x := hy0.trans hyx
    have hgap : 0 ≤ x - y := sub_nonneg.mpr hyx
    positivity
  linarith

theorem lossSeries_mem {r : ℝ} (h0 : 0 < r) (h1 : r ≤ 1) : r ≤ lossSeries r ∧ lossSeries r ≤ 1 := by
  have hx0 : 0 ≤ 1 - r := sub_nonneg.mpr h1
  have hdrop : lossSeries r - r = (1 - r) * (1 / 2 - (1 - r) / 12 - (1 - r) * (1 - r) / 24) := by
    rw [lossSeries]
    push_cast
    ring
  have hsmall : (1 - r) * (1 - r) ≤ 1 := mul_le_one₀ (by linarith) hx0 (by linarith)
  have hpos : 0 ≤ (1 - r) * (1 / 2 - (1 - r) / 12 - (1 - r) * (1 - r) / 24) :=
    mul_nonneg hx0 (by linarith)
  have htop : lossSeries 1 = 1 := by norm_num [lossSeries]
  exact ⟨by linarith, htop ▸ lossSeries_mono h1 le_rfl⟩

theorem lossQuotient_mem {r : ℝ} (h0 : 0 < r) (h1 : r < 1) :
    r ≤ lossQuotient r ∧ lossQuotient r ≤ 1 := by
  have hlog : Real.log r < 0 := Real.log_neg h0 h1
  have htangent : Real.log r ≤ r - 1 := Real.log_le_sub_one_of_pos h0
  have hinverse : 1 - r⁻¹ ≤ Real.log r := Real.one_sub_inv_le_log_of_pos h0
  refine ⟨?_, ?_⟩
  · rw [lossQuotient, le_div_iff_of_neg hlog]
    have hscaled : r * (1 - r⁻¹) ≤ r * Real.log r := mul_le_mul_of_nonneg_left hinverse h0.le
    rw [mul_sub, mul_inv_cancel₀ h0.ne'] at hscaled
    linarith
  · rw [lossQuotient, div_le_one_of_neg hlog]
    exact htangent

/-- The slope of the logarithm towards 1 falls. -/
theorem lossQuotient_mono {r r' : ℝ} (h0 : 0 < r) (hr : r ≤ r') (h1 : r' < 1) :
    lossQuotient r ≤ lossQuotient r' := by
  have hr' : 0 < r' := h0.trans_le hr
  have hslope : 0 < Real.log r' / (r' - 1) :=
    div_pos_of_neg_of_neg (Real.log_neg hr' h1) (sub_neg.mpr h1)
  have hsecant : Real.log r' / (r' - 1) ≤ Real.log r / (r - 1) := by
    have hconvex := strictConcaveOn_log_Ioi.concaveOn.neg.secant_mono (Set.mem_Ioi.mpr one_pos)
      h0 hr' (hr.trans_lt h1).ne h1.ne hr
    simp only [Pi.neg_apply, Real.log_one, neg_zero, sub_zero, neg_div] at hconvex
    linarith
  have hinverse := one_div_le_one_div_of_le hslope hsecant
  rwa [one_div_div, one_div_div] at hinverse

/-- Where the series takes over it lies above the quotient, by less than `10 ^ -17`. -/
theorem lossQuotient_le_lossSeries : lossQuotient (9999 / 10000) ≤ lossSeries (9999 / 10000) := by
  have hlog : Real.log (9999 / 10000) < 0 := Real.log_neg (by norm_num) (by norm_num)
  have htaylor := Real.abs_log_sub_add_sum_range_le (x := 1 / 10000)
    (by rw [abs_of_pos (by norm_num)]; norm_num) 6
  have hbound := (abs_le.mp htaylor).2
  rw [show (1 : ℝ) - 1 / 10000 = 9999 / 10000 by norm_num] at hbound
  norm_num [Finset.sum_range_succ] at hbound
  rw [lossQuotient, div_le_iff_of_neg hlog]
  norm_num [lossSeries]
  linarith

theorem lossFactor_mem {r : ℝ} (h0 : 0 < r) (h1 : r ≤ 1) : r ≤ lossFactor r ∧ lossFactor r ≤ 1 := by
  unfold lossFactor
  split_ifs with hnear
  · exact lossSeries_mem h0 h1
  · exact lossQuotient_mem h0 (by linarith)

theorem lossFactor_mono {r r' : ℝ} (h0 : 0 < r) (hr : r ≤ r') (h1 : r' ≤ 1) :
    lossFactor r ≤ lossFactor r' := by
  unfold lossFactor
  split_ifs with hnear hnear' hnear'
  · exact lossSeries_mono hr h1
  · exact absurd (by linarith) hnear'
  · -- The one is left of the point where the series takes over, the other right of it.
    calc lossQuotient r ≤ lossQuotient (9999 / 10000) :=
          lossQuotient_mono h0 (by linarith) (by norm_num)
      _ ≤ lossSeries (9999 / 10000) := lossQuotient_le_lossSeries
      _ ≤ lossSeries r' := lossSeries_mono (by linarith) h1
  · exact lossQuotient_mono h0 hr (by linarith)

/-! ## The coefficients of a slot -/

namespace Decay

noncomputable def shares (mode : Decay) (r : ℝ) : ℝ × ℝ :=
  if 1 - r ≤ 1e-12 then (1, 1)
  else match mode with
    | perfect => (1, 1)
    | left => (r, r)
    | right => (r, 1)
    | linear => (r, lossFactor r)

theorem coefficients_eq (mode : Decay) {r : ℝ} (h0 : 0 < r) (h1 : r ≤ 1) :
    mode.coefficients (num r) = (num (mode.shares r).1, num (mode.shares r).2) := by
  have hdistance : |r - 1| = 1 - r := by rw [abs_sub_comm, abs_of_nonneg (sub_nonneg.mpr h1)]
  have hmargin : ((1 : ℕ) : ℝ) / 10 ^ 12 = 1e-12 := by norm_num
  rw [coefficients.eq_def, one_eq, num_sub, num_abs, hdistance, losslessMargin, lit_eq, num_le,
    hmargin, shares.eq_def]
  by_cases hlossless : 1 - r ≤ 1e-12
  · rw [if_pos (decide_eq_true hlossless), if_pos hlossless]
  · rw [if_neg (by simpa using hlossless), if_neg hlossless]
    cases mode with
    | perfect => rfl
    | left => rfl
    | right => rfl
    | linear => simp only [linearLossFactor_eq h0 h1]

theorem shares_pos (mode : Decay) {r : ℝ} (h0 : 0 < r) (h1 : r ≤ 1) :
    0 < (mode.shares r).1 ∧ 0 < (mode.shares r).2 := by
  have hfactor : 0 < lossFactor r := h0.trans_le (lossFactor_mem h0 h1).1
  unfold shares
  split_ifs
  · exact ⟨one_pos, one_pos⟩
  · cases mode with
    | perfect => exact ⟨one_pos, one_pos⟩
    | left => exact ⟨h0, h0⟩
    | right => exact ⟨h0, one_pos⟩
    | linear => exact ⟨h0, hfactor⟩

theorem shares_le_one (mode : Decay) {r : ℝ} (h0 : 0 < r) (h1 : r ≤ 1) : mode.shares r ≤ (1, 1) := by
  have hfactor := (lossFactor_mem h0 h1).2
  unfold shares
  split_ifs
  · exact le_rfl
  · cases mode with
    | perfect => exact le_rfl
    | left => exact ⟨h1, h1⟩
    | right => exact ⟨h1, le_rfl⟩
    | linear => exact ⟨h1, hfactor⟩

/-- Where a slot counts as lossless, nothing is kept more than wholly. -/
theorem shares_mono (mode : Decay) {r r' : ℝ} (h0 : 0 < r) (hr : r ≤ r') (h1 : r' ≤ 1) :
    mode.shares r ≤ mode.shares r' := by
  by_cases hlossless : 1 - r' ≤ 1e-12
  · rw [show mode.shares r' = (1, 1) from if_pos hlossless]
    exact mode.shares_le_one h0 (hr.trans h1)
  · have hlossy : ¬1 - r ≤ 1e-12 := by linarith
    rw [shares.eq_def, shares.eq_def, if_neg hlossless, if_neg hlossy]
    cases mode with
    | perfect => exact le_rfl
    | left => exact ⟨hr, hr⟩
    | right => exact ⟨hr, le_rfl⟩
    | linear => exact ⟨hr, lossFactor_mono h0 hr h1⟩

theorem shares_ordered {r : ℝ} (h0 : 0 < r) (h1 : r ≤ 1) :
    left.shares r ≤ linear.shares r ∧ linear.shares r ≤ right.shares r ∧
      right.shares r ≤ perfect.shares r := by
  obtain ⟨hlow, hhigh⟩ := lossFactor_mem h0 h1
  unfold shares
  split_ifs
  · exact ⟨le_rfl, le_rfl, le_rfl⟩
  · exact ⟨⟨le_rfl, hlow⟩, ⟨le_rfl, hhigh⟩, h1, le_rfl⟩

end Decay

end Dispatch
