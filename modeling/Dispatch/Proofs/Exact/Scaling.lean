import Mathlib.Tactic.Ring
import Dispatch.Proofs.Exact.Basic

/-! # Sums and positive multiples of exact numbers

* `Exact.add_comm`, `Exact.add_assoc`: sums may be rearranged, whatever infinities are among the terms.
* `Exact.scale_add`, `Exact.add_scale`, `Exact.scale_mul`: a positive number is distributed over sums
  and taken out of products as in the reals.
* `Exact.div_eq_scale`: division by a positive number is such a multiple.

Zero and negative numbers do not distribute: a sum of a finite number and an infinity has no multiple
by zero.
-/

namespace Dispatch.Exact
set_option autoImplicit false

protected theorem add_comm (x y : Exact) : x + y = y + x := by
  cases x with
  | num a =>
    cases y with
    | num b => rw [num_add, num_add, add_comm]
    | inf | negInf | nan => rfl
  | inf | negInf | nan => cases y <;> rfl

protected theorem add_assoc (x y z : Exact) : x + y + z = x + (y + z) := by
  cases x with
  | num a =>
    cases y with
    | num b =>
      cases z with
      | num c => rw [num_add, num_add, num_add, num_add, add_assoc]
      | inf | negInf | nan => rfl
    | inf | negInf | nan => cases z <;> rfl
  | inf | negInf | nan => cases y <;> cases z <;> rfl

protected theorem mul_comm (x y : Exact) : x * y = y * x := by
  cases x with
  | num a =>
    cases y with
    | num b => rw [num_mul, num_mul, mul_comm]
    | inf | negInf | nan => rfl
  | inf | negInf | nan => cases y <;> rfl

theorem add_nan (x : Exact) : x + nan = nan := by cases x <;> rfl

theorem nan_add (x : Exact) : nan + x = nan := by cases x <;> rfl

theorem nan_mul (x : Exact) : nan * x = nan := by cases x <;> rfl

/-! ## Positive multiples -/

section
variable {a b : ℝ}

theorem infinityOf_mul (ha : 0 < a) (s : ℝ) : infinityOf (a * s) = infinityOf s := by
  have hneg : a * s < 0 ↔ s < 0 := by rw [← neg_pos, ← mul_neg, mul_pos_iff_of_pos_left ha, neg_pos]
  simp only [infinityOf, mul_pos_iff_of_pos_left ha, hneg]

theorem infinityOf_zero : infinityOf 0 = nan := by
  rw [infinityOf, if_neg (lt_irrefl _), if_neg (lt_irrefl _)]

theorem scale_inf (ha : 0 < a) : num a * inf = inf := if_pos ha

theorem scale_negInf (ha : 0 < a) : num a * negInf = negInf := negInf_mul_num ha

theorem scale_infinityOf (ha : 0 < a) (s : ℝ) : num a * infinityOf s = infinityOf s := by
  unfold infinityOf
  split_ifs
  · exact scale_inf ha
  · exact scale_negInf ha
  · rfl

theorem one_scale (x : Exact) : num 1 * x = x := by
  cases x with
  | num y => rw [num_mul, one_mul]
  | inf => exact scale_inf one_pos
  | negInf => exact scale_negInf one_pos
  | nan => rfl

theorem scale_mul (ha : 0 < a) (x y : Exact) : num a * (x * y) = num a * x * y := by
  cases x with
  | num s =>
    cases y with
    | num t => rw [num_mul, num_mul, num_mul, num_mul, mul_assoc]
    | inf => exact (scale_infinityOf ha s).trans (infinityOf_mul ha s).symm
    | negInf =>
      refine (scale_infinityOf ha (-s)).trans ?_
      rw [← infinityOf_mul ha, mul_neg]
      rfl
    | nan => rfl
  | inf =>
    rw [scale_inf ha]
    cases y with
    | num t => exact scale_infinityOf ha t
    | inf => exact scale_inf ha
    | negInf => exact scale_negInf ha
    | nan => rfl
  | negInf =>
    rw [scale_negInf ha]
    cases y with
    | num t => exact scale_infinityOf ha (-t)
    | inf => exact scale_negInf ha
    | negInf => exact scale_inf ha
    | nan => rfl
  | nan => rw [nan_mul, show num a * nan = nan from rfl, nan_mul]

theorem scale_add (ha : 0 < a) (x y : Exact) : num a * (x + y) = num a * x + num a * y := by
  cases x with
  | num s =>
    cases y with
    | num t => rw [num_add, num_mul, num_mul, num_mul, num_add, mul_add]
    | inf => rw [num_add_inf, scale_inf ha, num_mul, num_add_inf]
    | negInf => rw [num_add_negInf, scale_negInf ha, num_mul, num_add_negInf]
    | nan => rfl
  | inf =>
    rw [scale_inf ha]
    cases y with
    | num t => exact scale_inf ha
    | inf => rw [scale_inf ha]; exact scale_inf ha
    | negInf => rw [scale_negInf ha]; rfl
    | nan => rfl
  | negInf =>
    rw [scale_negInf ha]
    cases y with
    | num t => exact scale_negInf ha
    | inf => rw [scale_inf ha]; rfl
    | negInf => rw [scale_negInf ha]; exact scale_negInf ha
    | nan => rfl
  | nan => rfl

theorem add_scale (ha : 0 < a) (hb : 0 < b) (x : Exact) :
    num (a + b) * x = num a * x + num b * x := by
  cases x with
  | num s => rw [num_mul, num_mul, num_mul, num_add, add_mul]
  | inf => rw [scale_inf ha, scale_inf hb, scale_inf (add_pos ha hb)]; rfl
  | negInf => rw [scale_negInf ha, scale_negInf hb, scale_negInf (add_pos ha hb)]; rfl
  | nan => rfl

theorem div_eq_scale (ha : 0 < a) (x : Exact) : x / num a = num a⁻¹ * x := by
  cases x with
  | num s => rw [num_div s ha.ne', num_mul, div_eq_inv_mul]
  | inf => rw [scale_inf (inv_pos.mpr ha)]; exact if_neg ha.not_gt
  | negInf => rw [scale_negInf (inv_pos.mpr ha)]; exact if_neg ha.not_gt
  | nan => rfl

end

/-! ## Parts -/

protected theorem add_div {k : ℝ} (hk : 0 < k) (x y : Exact) : (x + y) / num k = x / num k + y / num k := by
  rw [div_eq_scale hk, div_eq_scale hk, div_eq_scale hk, scale_add (inv_pos.mpr hk)]

protected theorem mul_div {k : ℝ} (hk : 0 < k) (x y : Exact) :
    x * (y / num k) = x * y / num k := by
  rw [div_eq_scale hk, div_eq_scale hk, Exact.mul_comm, ← scale_mul (inv_pos.mpr hk), Exact.mul_comm y]

/-- Zero takes the infinities to no number. -/
theorem zero_scale (x : Exact) : num 0 * x = num 0 ∨ num 0 * x = nan := by
  cases x with
  | num y => exact Or.inl (by rw [num_mul, zero_mul])
  | inf => exact Or.inr infinityOf_zero
  | negInf => exact Or.inr ((congrArg infinityOf neg_zero).trans infinityOf_zero)
  | nan => exact Or.inr rfl

theorem zero_scale_div {k : ℝ} (hk : 0 < k) (x : Exact) : num 0 * (x / num k) = num 0 * x := by
  rw [Exact.mul_div hk]
  rcases zero_scale x with h | h
  · rw [h, num_div _ hk.ne', zero_div]
  · rw [h]
    rfl

end Dispatch.Exact
