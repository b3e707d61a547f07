import Mathlib.Analysis.SpecialFunctions.Pow.Real
import Dispatch.Proofs.Exact.Basic

/-! # Powers and roots of exact numbers

* `Exact.root`: the `k`-th root, taken as a power.
* `Exact.root_pow`: the power for a part of the time is the root of the power for the whole, also at zero
  and at the infinities.
-/

namespace Dispatch.Exact
set_option autoImplicit false

/-! ## Powers -/

theorem pow_of_pos {x : ℝ} (h : 0 < x) (y : ℝ) : Scalar.pow (num x) (num y) = num (x ^ y) :=
  if_pos (Or.inl h)

theorem pow_one_eq (e : Exact) : Scalar.pow e (num 1) = e := by
  show Exact.pow e (num 1) = e
  cases e with
  | num x =>
    rcases lt_trichotomy x 0 with hneg | rfl | hpos
    · simp [Exact.pow, powReal, hneg]
    · simp [Exact.pow, powReal]
    · simp [Exact.pow, powReal, hpos]
  | inf => exact if_pos one_pos
  | negInf =>
    have hodd : ∃ n : ℤ, ((2 * n + 1 : ℤ) : ℝ) = 1 := ⟨0, by norm_num⟩
    simp only [Exact.pow, if_neg one_ne_zero, if_neg (not_lt.mpr zero_le_one), if_pos hodd]
  | nan => exact if_neg one_ne_zero

theorem pow_zero_eq (q : Exact) : Scalar.pow q (num 0) = num 1 := by
  show Exact.pow q (num 0) = num 1
  cases q with
  | num x =>
    rcases lt_trichotomy x 0 with hneg | rfl | hpos
    · simp [Exact.pow, powReal, hneg]
    · simp [Exact.pow, powReal]
    · simp [Exact.pow, powReal, hpos]
  | inf | negInf | nan => simp [Exact.pow]

theorem zero_pow_of_pos {y : ℝ} (h : 0 < y) : Scalar.pow (num 0) (num y) = num 0 := by
  show powReal 0 y = num 0
  simp [powReal, h.not_gt, Real.zero_rpow h.ne']

theorem zero_pow_of_neg {y : ℝ} (h : y < 0) : Scalar.pow (num 0) (num y) = inf := by
  show powReal 0 y = inf
  simp [powReal, h]

theorem inf_pow_of_pos {y : ℝ} (h : 0 < y) : Scalar.pow inf (num y) = inf := if_pos h

theorem inf_pow_of_neg {y : ℝ} (h : y < 0) : Scalar.pow inf (num y) = num 0 := by
  show Exact.pow inf (num y) = num 0
  simp only [Exact.pow, if_neg h.not_gt, if_neg h.ne]

theorem negInf_pow_of_neg {y : ℝ} (h : y < 0) : Scalar.pow negInf (num y) = num 0 := by
  show Exact.pow negInf (num y) = num 0
  simp only [Exact.pow, if_neg h.ne, if_pos h]

theorem negInf_pow_of_pos {y : ℝ} (h : 0 < y) :
    Scalar.pow negInf (num y) = inf ∨ Scalar.pow negInf (num y) = negInf := by
  have hpow : Scalar.pow negInf (num y) = Exact.pow negInf (num y) := rfl
  simp only [hpow, Exact.pow, if_neg h.ne', if_neg h.not_gt]
  split_ifs
  · exact Or.inr rfl
  · exact Or.inl rfl

/-! ## Roots -/

noncomputable def root (k : ℕ) (e : Exact) : Exact := Scalar.pow e (1 / Scalar.ofNat k)

variable {k : ℕ}

theorem root_eq (hk : 0 < k) (e : Exact) : root k e = Scalar.pow e (num (k : ℝ)⁻¹) := by
  rw [root, one_eq, ofNat_eq, num_div _ (Nat.cast_ne_zero.mpr hk.ne'), one_div]

theorem root_of_pos (hk : 0 < k) {r : ℝ} (h : 0 < r) : root k (num r) = num (r ^ (k : ℝ)⁻¹) := by
  rw [root_eq hk, pow_of_pos h]

theorem root_zero (hk : 0 < k) : root k (num 0) = num 0 := by
  rw [root_eq hk, zero_pow_of_pos (inv_pos.mpr (Nat.cast_pos.mpr hk))]

theorem root_inf (hk : 0 < k) : root k inf = inf := by
  rw [root_eq hk, inf_pow_of_pos (inv_pos.mpr (Nat.cast_pos.mpr hk))]

/-- No whole number lies strictly between zero and one. -/
theorem inv_ne_intCast (hk : 1 < k) (n : ℤ) : (n : ℝ) ≠ (k : ℝ)⁻¹ := by
  intro h
  have hpos : (0 : ℝ) < (k : ℝ)⁻¹ := inv_pos.mpr (Nat.cast_pos.mpr (by omega))
  have hlt : (k : ℝ)⁻¹ < 1 := inv_lt_one_of_one_lt₀ (Nat.one_lt_cast.mpr hk)
  rw [← h] at hpos hlt
  have h0 : 0 < n := by exact_mod_cast hpos
  have h1 : n < 1 := by exact_mod_cast hlt
  omega

theorem root_of_neg (hk : 1 < k) {r : ℝ} (h : r < 0) : root k (num r) = nan := by
  rw [root_eq (by omega)]
  show powReal r _ = _
  simp [powReal, h.not_gt, h.ne, inv_ne_intCast hk]

theorem root_negInf (hk : 1 < k) : root k negInf = inf := by
  have hpos : (0 : ℝ) < (k : ℝ)⁻¹ := inv_pos.mpr (Nat.cast_pos.mpr (by omega))
  have hodd : ¬∃ n : ℤ, ((2 * n + 1 : ℤ) : ℝ) = (k : ℝ)⁻¹ := fun ⟨n, hn⟩ => inv_ne_intCast hk _ hn
  rw [root_eq (by omega)]
  show Exact.pow negInf _ = _
  simp only [Exact.pow, if_neg hpos.ne', if_neg hpos.not_gt, if_neg hodd]

theorem root_one (e : Exact) : root 1 e = e := by
  rw [root_eq one_pos, Nat.cast_one, inv_one, pow_one_eq]

/-- A power of a positive number is taken back by its root. -/
theorem root_pow_num (hk : 0 < k) {z : ℝ} (hz : 0 < z) : root k (num (z ^ k)) = num z := by
  rw [root_of_pos hk (pow_pos hz k), Real.pow_rpow_inv_natCast hz.le hk.ne']

theorem root_pow_of_pos (hk : 0 < k) {x : ℝ} (hx : 0 < x) (y : ℝ) :
    root k (Scalar.pow (num x) (num (k * y))) = Scalar.pow (num x) (num y) := by
  rw [pow_of_pos hx, pow_of_pos hx, mul_comm, Real.rpow_mul_natCast hx.le,
    root_pow_num hk (Real.rpow_pos_of_pos hx y)]

/-- A negative number has whole powers only, of either sign. -/
theorem root_pow_of_neg (hk : 0 < k) {x : ℝ} (hx : x < 0) {y : ℝ}
    (h : 0 ≤ Scalar.pow (num x) (num y)) :
    root k (Scalar.pow (num x) (num (k * y))) = Scalar.pow (num x) (num y) := by
  have hwhole (n : ℤ) : Scalar.pow (num x) (num n) = num (x ^ n) := by
    rw [← Real.rpow_intCast]
    exact if_pos (Or.inr ⟨hx, n, rfl⟩)
  by_cases hint : ∃ n : ℤ, (n : ℝ) = y
  · obtain ⟨n, rfl⟩ := hint
    have hmany : (k : ℝ) * n = (n * k : ℤ) := by
      push_cast
      ring
    rw [hwhole, zero_eq, num_le_num] at h
    have hpos : 0 < x ^ n := h.lt_of_ne' (zpow_ne_zero n hx.ne)
    rw [hmany, hwhole, hwhole, zpow_mul, zpow_natCast, root_pow_num hk hpos]
  · have hnan : Scalar.pow (num x) (num y) = nan := by
      show powReal x y = nan
      simp only [powReal, hx.not_gt, hx, hint, hx.ne, and_false, or_false, if_false]
    rw [hnan] at h
    cases h

/-- What a part of the time keeps is the root of what the whole of it keeps. -/
theorem root_pow (hk : 0 < k) (q : Exact) (y : ℝ) (h : 0 ≤ Scalar.pow q (num y)) :
    root k (Scalar.pow q (num (k * y))) = Scalar.pow q (num y) := by
  have hcast : (0 : ℝ) < k := Nat.cast_pos.mpr hk
  rcases lt_trichotomy y 0 with hneg | rfl | hpos
  · have hmany : (k : ℝ) * y < 0 := mul_neg_of_pos_of_neg hcast hneg
    cases q with
    | num x =>
      rcases lt_trichotomy x 0 with hx | rfl | hx
      · exact root_pow_of_neg hk hx h
      · rw [zero_pow_of_neg hmany, zero_pow_of_neg hneg, root_inf hk]
      · exact root_pow_of_pos hk hx y
    | inf => rw [inf_pow_of_neg hmany, inf_pow_of_neg hneg, root_zero hk]
    | negInf => rw [negInf_pow_of_neg hmany, negInf_pow_of_neg hneg, root_zero hk]
    | nan =>
      rw [show Scalar.pow nan (num y) = nan from if_neg hneg.ne] at h
      cases h
  · rw [mul_zero, pow_zero_eq]
    simpa using root_pow_num hk one_pos
  · have hmany : 0 < (k : ℝ) * y := mul_pos hcast hpos
    cases q with
    | num x =>
      rcases lt_trichotomy x 0 with hx | rfl | hx
      · exact root_pow_of_neg hk hx h
      · rw [zero_pow_of_pos hmany, zero_pow_of_pos hpos, root_zero hk]
      · exact root_pow_of_pos hk hx y
    | inf => rw [inf_pow_of_pos hmany, inf_pow_of_pos hpos, root_inf hk]
    | negInf =>
      rcases Nat.lt_or_eq_of_le hk with hparts | rfl
      · rcases negInf_pow_of_pos hpos with hpow | hpow
        · rw [hpow]
          rcases negInf_pow_of_pos hmany with hwhole | hwhole
          · rw [hwhole, root_inf hk]
          · rw [hwhole, root_negInf hparts]
        · rw [hpow] at h
          cases h
      · rw [Nat.cast_one, one_mul, root_one]
    | nan =>
      rw [show Scalar.pow nan (num y) = nan from if_neg hpos.ne'] at h
      cases h

end Dispatch.Exact
