import Mathlib.Analysis.SpecialFunctions.Pow.Real
import Dispatch.Series.Values

/-! # Exact numbers

* `Exact`: the real numbers together with both infinities and a value that is no number, the
  numbers of floating point without rounding and without a sign of zero.
* `Exact.toReal`: the real number behind a finite value.

Every operation follows the rules of floating point on infinities and on `nan`, and is the operation
of the reals on finite values: the lemmas named after two finite operands say so, and they are all
that later modules use.
-/

namespace Dispatch
set_option autoImplicit false

inductive Exact where
  | num (x : ℝ)
  | inf
  | negInf
  | nan

namespace Exact

/-- The infinity with the sign of a number, and no number for zero. -/
noncomputable def infinityOf (s : ℝ) : Exact := if 0 < s then inf else if s < 0 then negInf else nan

def add : Exact → Exact → Exact
  | num x, num y => num (x + y)
  | nan, _ | _, nan => nan
  | inf, negInf | negInf, inf => nan
  | inf, _ | _, inf => inf
  | negInf, _ | _, negInf => negInf

def neg : Exact → Exact
  | num x => num (-x)
  | inf => negInf
  | negInf => inf
  | nan => nan

noncomputable def mul : Exact → Exact → Exact
  | num x, num y => num (x * y)
  | nan, _ | _, nan => nan
  | num x, inf | inf, num x => infinityOf x
  | num x, negInf | negInf, num x => infinityOf (-x)
  | inf, inf | negInf, negInf => inf
  | inf, negInf | negInf, inf => negInf

noncomputable def div : Exact → Exact → Exact
  | num x, num y => if y = 0 then infinityOf x else num (x / y)
  | nan, _ | _, nan => nan
  | num _, inf | num _, negInf => num 0
  | inf, num y => if y < 0 then negInf else inf
  | negInf, num y => if y < 0 then inf else negInf
  | inf, inf | inf, negInf | negInf, inf | negInf, negInf => nan

noncomputable def lt : Exact → Exact → Bool
  | num x, num y => decide (x < y)
  | negInf, num _ | negInf, inf | num _, inf => true
  | _, _ => false

noncomputable def le : Exact → Exact → Bool
  | num x, num y => decide (x ≤ y)
  | nan, _ | _, nan => false
  | negInf, _ | _, inf => true
  | _, _ => false

noncomputable def eq : Exact → Exact → Bool
  | num x, num y => decide (x = y)
  | inf, inf | negInf, negInf => true
  | _, _ => false

def abs : Exact → Exact
  | num x => num |x|
  | inf | negInf => inf
  | nan => nan

noncomputable def sqrt : Exact → Exact
  | num x => if x < 0 then nan else num (Real.sqrt x)
  | inf => inf
  | negInf | nan => nan

noncomputable def log : Exact → Exact
  | num x => if x < 0 then nan else if x = 0 then negInf else num (Real.log x)
  | inf => inf
  | negInf | nan => nan

open Classical in
/-- A negative base has integer powers only. -/
noncomputable def powReal (x y : ℝ) : Exact :=
  if 0 < x ∨ (x < 0 ∧ ∃ n : ℤ, (n : ℝ) = y) then num (x ^ y)
  else if x = 0 then if y < 0 then inf else num (x ^ y)
  else nan

open Classical in
noncomputable def pow : Exact → Exact → Exact
  | num x, num y => powReal x y
  | num x, inf => if |x| < 1 then num 0 else if |x| = 1 then num 1 else inf
  | num x, negInf => if |x| < 1 then inf else if |x| = 1 then num 1 else num 0
  | num x, nan => if x = 1 then num 1 else nan
  | inf, num y => if 0 < y then inf else if y = 0 then num 1 else num 0
  | negInf, num y =>
    if y = 0 then num 1 else if y < 0 then num 0
    else if ∃ n : ℤ, ((2 * n + 1 : ℤ) : ℝ) = y then negInf else inf
  | nan, num y => if y = 0 then num 1 else nan
  | inf, inf | negInf, inf => inf
  | inf, negInf | negInf, negInf => num 0
  | inf, nan | negInf, nan | nan, inf | nan, negInf | nan, nan => nan

def isNaN : Exact → Bool
  | nan => true
  | _ => false

def isFinite : Exact → Bool
  | num _ => true
  | _ => false

/-- The value `± digits * 10 ^ exponent`. -/
noncomputable def ofDecimal (d : Decimal) : Exact :=
  let magnitude := (d.digits : ℝ) * (10 : ℝ) ^ d.exponent
  num (if d.negative then -magnitude else magnitude)

/-- The least and the greatest signed 64-bit integer. -/
def wordMin : ℤ := -9223372036854775808

def wordMax : ℤ := 9223372036854775807

noncomputable def roundInt : Exact → ℤ
  | num x => max wordMin (min wordMax (if 0 ≤ x then ⌊x + 1 / 2⌋ else ⌈x - 1 / 2⌉))
  | inf => wordMax
  | negInf => wordMin
  | nan => 0

noncomputable def roundTimes? (n : ℕ) : Exact → Option ℤ
  | num x =>
    let y := n * x
    some (if Int.fract y = 1 / 2 ∧ ⌊y⌋ % 2 = 0 then ⌊y⌋ else ⌊y + 1 / 2⌋)
  | _ => none

end Exact

noncomputable instance : Scalar Exact where
  zero := .num 0
  one := .num 1
  add := Exact.add
  sub a b := Exact.add a (Exact.neg b)
  mul := Exact.mul
  div := Exact.div
  neg := Exact.neg
  ofDecimal := Exact.ofDecimal
  infinity := .inf
  lt := Exact.lt
  le := Exact.le
  eq := Exact.eq
  abs := Exact.abs
  sqrt := Exact.sqrt
  log := Exact.log
  pow := Exact.pow
  isNaN := Exact.isNaN
  isFinite := Exact.isFinite
  roundInt := Exact.roundInt
  roundTimes? := Exact.roundTimes?

namespace Exact
open Scalar

/-! ## Order -/

instance : LE Exact := ⟨fun a b => Scalar.le a b = true⟩

instance : LT Exact := ⟨fun a b => Scalar.lt a b = true⟩

theorem le_def (a b : Exact) : a ≤ b ↔ Scalar.le a b = true := Iff.rfl

theorem lt_def (a b : Exact) : a < b ↔ Scalar.lt a b = true := Iff.rfl

/-! ## Operations on finite values -/

theorem zero_eq : (0 : Exact) = num 0 := rfl

theorem one_eq : (1 : Exact) = num 1 := rfl

@[simp] theorem num_inj (x y : ℝ) : num x = num y ↔ x = y := by
  rw [num.injEq]

@[simp] theorem num_add (x y : ℝ) : num x + num y = num (x + y) := rfl

@[simp] theorem num_sub (x y : ℝ) : num x - num y = num (x - y) := by
  rw [sub_eq_add_neg]
  rfl

@[simp] theorem num_mul (x y : ℝ) : num x * num y = num (x * y) := rfl

@[simp] theorem num_neg (x : ℝ) : -num x = num (-x) := rfl

theorem num_div (x : ℝ) {y : ℝ} (h : y ≠ 0) : num x / num y = num (x / y) := by
  show Exact.div (num x) (num y) = num (x / y)
  simp [Exact.div, h]

@[simp] theorem num_abs (x : ℝ) : Scalar.abs (num x) = num |x| := rfl

@[simp] theorem num_lt (x y : ℝ) : Scalar.lt (num x) (num y) = decide (x < y) := rfl

@[simp] theorem num_le (x y : ℝ) : Scalar.le (num x) (num y) = decide (x ≤ y) := rfl

@[simp] theorem num_eq (x y : ℝ) : Scalar.eq (num x) (num y) = decide (x = y) := rfl

@[simp] theorem num_gt (x y : ℝ) : Scalar.gt (num x) (num y) = decide (y < x) := rfl

@[simp] theorem num_ge (x y : ℝ) : Scalar.ge (num x) (num y) = decide (y ≤ x) := rfl

@[simp] theorem num_le_num (x y : ℝ) : num x ≤ num y ↔ x ≤ y := by
  rw [le_def, num_le, decide_eq_true_eq]

@[simp] theorem num_lt_num (x y : ℝ) : num x < num y ↔ x < y := by
  rw [lt_def, num_lt, decide_eq_true_eq]

@[simp] theorem num_isFinite (x : ℝ) : Scalar.isFinite (num x) = true := rfl

@[simp] theorem num_isNaN (x : ℝ) : Scalar.isNaN (num x) = false := rfl

@[simp] theorem num_maxNum (x y : ℝ) : maxNum (num x) (num y) = num (max x y) := by
  rw [maxNum, num_isNaN, num_lt, max_def]
  by_cases h : x < y
  · simp [h, h.le]
  · have hyx : y ≤ x := not_lt.mp h
    by_cases hxy : x ≤ y
    · simp [le_antisymm hxy hyx]
    · simp [h, hxy]

@[simp] theorem num_minNum (x y : ℝ) : minNum (num x) (num y) = num (min x y) := by
  rw [minNum, num_isNaN, num_lt, min_def]
  by_cases h : y < x
  · simp [h, not_le.mpr h]
  · simp [h, not_lt.mp h]

@[simp] theorem ofNat_eq (n : ℕ) : (Scalar.ofNat n : Exact) = num n := by
  show Exact.ofDecimal (Decimal.ofNat n) = num n
  simp [Exact.ofDecimal, Decimal.ofNat]

@[simp] theorem ofInt_eq (i : ℤ) : (Scalar.ofInt i : Exact) = num i := by
  show Exact.ofDecimal (Decimal.ofInt i) = num i
  have habs : ((i.natAbs : ℕ) : ℝ) = |(i : ℝ)| := by
    rw [Nat.cast_natAbs, Int.cast_abs]
  by_cases h : i < 0
  · have hi : (i : ℝ) < 0 := by exact_mod_cast h
    simp [Exact.ofDecimal, Decimal.ofInt, h, habs, abs_of_neg hi]
  · have hi : (0 : ℝ) ≤ i := by exact_mod_cast not_lt.mp h
    simp [Exact.ofDecimal, Decimal.ofInt, h, habs, abs_of_nonneg hi]

@[simp] theorem lit_eq (digits places : ℕ) :
    (Scalar.lit digits places : Exact) = num (digits / 10 ^ places) := by
  show Exact.ofDecimal ⟨false, digits, -(places : ℤ)⟩ = num (digits / 10 ^ places)
  simp [Exact.ofDecimal, div_eq_mul_inv]

theorem log_eq {x : ℝ} (h : 0 < x) : Scalar.log (num x) = num (Real.log x) := by
  show Exact.log (num x) = num (Real.log x)
  simp [Exact.log, not_lt.mpr h.le, h.ne']

/-! ## Infinities -/

@[simp] theorem infinity_eq : (Scalar.infinity : Exact) = inf := rfl

@[simp] theorem negInfinity_eq : (Scalar.negInfinity : Exact) = negInf := rfl

@[simp] theorem negInf_le_num (x : ℝ) : negInf ≤ num x := rfl

@[simp] theorem num_le_inf (x : ℝ) : num x ≤ inf := rfl

@[simp] theorem num_add_inf (x : ℝ) : num x + inf = inf := rfl

@[simp] theorem num_add_negInf (x : ℝ) : num x + negInf = negInf := rfl

theorem num_ne_negInf (x : ℝ) : num x ≠ negInf := by
  rintro ⟨⟩

theorem nan_ne_negInf : nan ≠ negInf := by
  rintro ⟨⟩

theorem inf_mul_num {x : ℝ} (h : 0 < x) : inf * num x = inf := if_pos h

theorem negInf_mul_num {x : ℝ} (h : 0 < x) : negInf * num x = negInf := by
  show infinityOf (-x) = negInf
  rw [infinityOf, if_neg (not_lt.mpr (neg_nonpos.mpr h.le)), if_pos (neg_neg_iff_pos.mpr h)]

theorem add_ne_negInf {a b : Exact} (ha : a ≠ negInf) (hb : b ≠ negInf) : a + b ≠ negInf := by
  intro h
  cases a <;> cases b <;> first | exact ha rfl | exact hb rfl | cases h

/-! ## The number behind a value -/

/-- The real number of a finite value, zero for the others. -/
noncomputable def toReal : Exact → ℝ
  | num x => x
  | _ => 0

@[simp] theorem toReal_num (x : ℝ) : (num x).toReal = x := rfl

@[simp] theorem toReal_zero : (0 : Exact).toReal = 0 := rfl

theorem num_toReal {a : Exact} (h : Scalar.isFinite a = true) : num a.toReal = a := by
  cases a with
  | num x => rfl
  | inf | negInf | nan => exact absurd h (by decide)

theorem isFinite_iff (a : Exact) : Scalar.isFinite a = true ↔ ∃ x, a = num x :=
  ⟨fun h => ⟨a.toReal, (num_toReal h).symm⟩, fun ⟨_, h⟩ => h ▸ rfl⟩

/-! ## What finite results come from -/

theorem isFinite_of_add {a b : Exact} (h : Scalar.isFinite (a + b) = true) :
    Scalar.isFinite a = true ∧ Scalar.isFinite b = true := by
  cases a <;> cases b <;> first | exact ⟨rfl, rfl⟩ | cases h

theorem isFinite_of_mul_num {a : Exact} {x : ℝ} (h : Scalar.isFinite (a * num x) = true) :
    Scalar.isFinite a = true := by
  have hinfinity : ∀ s : ℝ, Scalar.isFinite (infinityOf s) = false := fun s => by
    rw [infinityOf]
    split_ifs
    · rfl
    · rfl
    · rfl
  cases a with
  | num y => rfl
  | inf => exact absurd ((hinfinity x).symm.trans h) Bool.false_ne_true
  | negInf => exact absurd ((hinfinity (-x)).symm.trans h) Bool.false_ne_true
  | nan => cases h

/-! ## Limits -/

theorem num_add_sub_cancel (a : ℝ) (y : Exact) : num a + (y - num a) = y := by
  cases y with
  | num x => rw [num_sub, num_add, add_sub_cancel]
  | inf | negInf | nan => rfl

theorem pinned_iff (x : ℝ) (y : Exact) : y ≤ num x ∧ num x ≤ y ↔ num x = y := by
  cases y with
  | num z => rw [num_le_num, num_le_num, num_inj, ← le_antisymm_iff, eq_comm]
  | inf | negInf | nan =>
    constructor
    · rintro ⟨⟨⟩, ⟨⟩⟩
    · rintro ⟨⟩

theorem maxNum_negInf {a : Exact} (h : Scalar.isNaN a = false) : maxNum a negInf = a := by
  cases a <;> first | rfl | cases h

theorem minNum_inf {a : Exact} (h : Scalar.isNaN a = false) : minNum a inf = a := by
  cases a <;> first | rfl | cases h

theorem isNaN_maxNum {a : Exact} (b : Exact) (h : Scalar.isNaN a = false) :
    Scalar.isNaN (maxNum a b) = false := by
  rw [maxNum, h, if_neg Bool.false_ne_true]
  cases hlt : Scalar.lt a b with
  | false => rwa [if_neg Bool.false_ne_true]
  | true =>
    rw [if_pos rfl]
    cases b with
    | num x => rfl
    | inf | negInf => rfl
    | nan => cases a <;> cases hlt

theorem isNaN_minNum {a : Exact} (b : Exact) (h : Scalar.isNaN a = false) :
    Scalar.isNaN (minNum a b) = false := by
  rw [minNum, h, if_neg Bool.false_ne_true]
  cases hlt : Scalar.lt b a with
  | false => rwa [if_neg Bool.false_ne_true]
  | true =>
    rw [if_pos rfl]
    cases b with
    | num x => rfl
    | inf | negInf => rfl
    | nan => cases hlt

theorem lt_of_le_num {a b : Exact} {x : ℝ} (ha : a ≤ num x) (hb : num x < b) : a < b := by
  cases a with
  | num y =>
    cases b with
    | num z => exact (num_lt_num y z).mpr (((num_le_num y x).mp ha).trans_lt ((num_lt_num x z).mp hb))
    | inf => rfl
    | negInf | nan => cases hb
  | negInf =>
    cases b with
    | num z => rfl
    | inf => rfl
    | negInf | nan => cases hb
  | inf | nan => cases ha

theorem lt_of_num_le {a b : Exact} {x : ℝ} (ha : num x ≤ a) (hb : b < num x) : b < a := by
  cases a with
  | num y =>
    cases b with
    | num z => exact (num_lt_num z y).mpr (((num_lt_num z x).mp hb).trans_le ((num_le_num x y).mp ha))
    | negInf => rfl
    | inf | nan => cases hb
  | inf =>
    cases b with
    | num z => rfl
    | negInf => rfl
    | inf | nan => cases hb
  | negInf | nan => cases ha

theorem not_lt_self (a : Exact) : ¬a < a := by
  cases a with
  | num x => exact (num_lt_num x x).not.mpr (lt_irrefl x)
  | inf | negInf | nan => rintro ⟨⟩

theorem not_lt_of_maxNum_le {a b : Exact} {x : ℝ} (h : maxNum a b ≤ num x) : ¬num x < b := by
  intro hlt
  rw [maxNum] at h
  split_ifs at h with hnumber hless
  · exact not_lt_self b (lt_of_le_num h hlt)
  · exact not_lt_self b (lt_of_le_num h hlt)
  · exact hless (lt_of_le_num h hlt)

theorem not_lt_of_le_minNum {a b : Exact} {x : ℝ} (h : num x ≤ minNum a b) : ¬b < num x := by
  intro hlt
  rw [minNum] at h
  split_ifs at h with hnumber hless
  · exact not_lt_self b (lt_of_num_le h hlt)
  · exact not_lt_self b (lt_of_num_le h hlt)
  · exact hless (lt_of_num_le h hlt)

/-! ## Real numbers behind operations -/

theorem toReal_sub_of_finite {a b : Exact} (h : Scalar.isFinite (a - b) = true) :
    (a - b).toReal = a.toReal - b.toReal := by
  cases a <;> cases b <;> first | rfl | cases h

theorem toReal_sqrt (a : Exact) : (Scalar.sqrt a).toReal = √a.toReal := by
  cases a with
  | num x =>
    show (if x < 0 then nan else num (√x)).toReal = √x
    split_ifs with h
    · exact (Real.sqrt_eq_zero_of_nonpos h.le).symm
    · rfl
  | inf | negInf | nan => exact Real.sqrt_zero.symm

/-- A power that is a number is the real power. -/
theorem real_of_pow {a : Exact} {y z : ℝ} (hy : 0 < y) (h : Scalar.pow a (num y) = num z) :
    z = a.toReal ^ y := by
  change Exact.pow a (num y) = num z at h
  cases a with
  | num x =>
    change powReal x y = num z at h
    rw [powReal] at h
    split_ifs at h with hbase hzero
    · exact ((num_inj _ _).mp h).symm
    · exact ((num_inj _ _).mp h).symm
  | inf =>
    change (if 0 < y then inf else if y = 0 then num 1 else num 0) = num z at h
    rw [if_pos hy] at h
    cases h
  | negInf =>
    simp only [Exact.pow, hy.ne', hy.not_gt, if_false] at h
    split_ifs at h
  | nan =>
    change (if y = 0 then num 1 else nan) = num z at h
    rw [if_neg hy.ne'] at h
    cases h

end Exact

end Dispatch
