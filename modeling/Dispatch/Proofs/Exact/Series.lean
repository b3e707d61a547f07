import Mathlib.Data.List.GetD
import Dispatch.Proofs.Exact.Basic

/-! # Series of exact numbers

Sums and largest magnitudes of finite values are those of the reals behind them.
-/

namespace Dispatch.Exact
open Scalar
set_option autoImplicit false

def AllFinite (xs : List Exact) : Prop := ∀ x ∈ xs, Scalar.isFinite x = true

theorem AllFinite.eq_map {xs : List Exact} (h : AllFinite xs) : xs = (xs.map toReal).map num := by
  rw [List.map_map]
  conv_lhs => rw [← List.map_id xs]
  exact List.map_congr_left fun x hx => (num_toReal (h x hx)).symm

/-! ## Sums -/

theorem foldl_add_num (xs : List ℝ) (a : ℝ) :
    (xs.map num).foldl (· + ·) (num a) = num (a + xs.sum) := by
  induction xs generalizing a with
  | nil => simp
  | cons x xs ih =>
    rw [List.map_cons, List.foldl_cons, num_add, ih, List.sum_cons, add_assoc]

@[simp] theorem sum_num (xs : List ℝ) : Scalar.sum (xs.map num) = num xs.sum := by
  rw [Scalar.sum, zero_eq, foldl_add_num, zero_add]

theorem sum_map_num {ι : Type} (xs : List ι) (f : ι → ℝ) :
    Scalar.sum (xs.map fun i => num (f i)) = num (xs.map f).sum := by
  rw [← sum_num, List.map_map]
  rfl

theorem isFinite_of_sum {xs : List Exact} (h : Scalar.isFinite (Scalar.sum xs) = true) :
    AllFinite xs := by
  induction xs using List.reverseRecOn with
  | nil => exact List.forall_mem_nil _
  | append_singleton xs x ih =>
    rw [sum_append_singleton] at h
    obtain ⟨hxs, hx⟩ := isFinite_of_add h
    exact List.forall_mem_append.mpr ⟨ih hxs, List.forall_mem_singleton.mpr hx⟩

theorem sum_ne_negInf {xs : List Exact} (h : ∀ x ∈ xs, x ≠ negInf) : Scalar.sum xs ≠ negInf := by
  induction xs using List.reverseRecOn with
  | nil => exact num_ne_negInf 0
  | append_singleton xs x ih =>
    obtain ⟨hxs, hx⟩ := List.forall_mem_append.mp h
    rw [sum_append_singleton]
    exact add_ne_negInf (ih hxs) (hx x (List.mem_singleton_self x))

/-! ## Largest values -/

/-- The largest of some reals, zero if none of them is positive. -/
noncomputable def peak (xs : List ℝ) : ℝ := xs.foldl max 0

theorem foldl_max_num (xs : List ℝ) (a : ℝ) :
    (xs.map num).foldl maxNum (num a) = num (xs.foldl max a) := by
  induction xs generalizing a with
  | nil => rfl
  | cons x xs ih => rw [List.map_cons, List.foldl_cons, num_maxNum, ih, List.foldl_cons]

theorem foldl_min_num (xs : List ℝ) (a : ℝ) :
    (xs.map num).foldl minNum (num a) = num (xs.foldl min a) := by
  induction xs generalizing a with
  | nil => rfl
  | cons x xs ih => rw [List.map_cons, List.foldl_cons, num_minNum, ih, List.foldl_cons]

theorem largest_num (xs : List ℝ) : largest (xs.map num) = num (peak xs) := foldl_max_num xs 0

theorem largest_map_num {ι : Type} (xs : List ι) (f : ι → ℝ) :
    largest (xs.map fun i => num (f i)) = num (peak (xs.map f)) := by
  rw [← largest_num, List.map_map]
  rfl

theorem foldl_max_le {xs : List ℝ} {a b : ℝ} : xs.foldl max a ≤ b ↔ a ≤ b ∧ ∀ x ∈ xs, x ≤ b := by
  induction xs generalizing a with
  | nil => simp
  | cons x xs ih =>
    rw [List.foldl_cons, ih, max_le_iff, List.forall_mem_cons, and_assoc]

theorem peak_le_iff {xs : List ℝ} {b : ℝ} : peak xs ≤ b ↔ 0 ≤ b ∧ ∀ x ∈ xs, x ≤ b := foldl_max_le

theorem peak_nonneg (xs : List ℝ) : 0 ≤ peak xs := (peak_le_iff.mp le_rfl).1

theorem le_peak {xs : List ℝ} {x : ℝ} (h : x ∈ xs) : x ≤ peak xs := (peak_le_iff.mp le_rfl).2 x h

@[simp] theorem peak_singleton (x : ℝ) : peak [x] = max x 0 := max_comm 0 x

/-! ## Values of a slot -/

theorem valueAt_range {n j : ℕ} (h : j < n) (f : ℕ → Exact) :
    valueAt ((List.range n).map f) j = f j := by
  rw [valueAt, List.getD_eq_getElem _ _ (by simpa using h), List.getElem_map, List.getElem_range]

theorem eq_map_range {xs : List Exact} {n : ℕ} {f : ℕ → ℝ} (hlen : xs.length = n)
    (h : ∀ j < n, valueAt xs j = num (f j)) : xs = (List.range n).map fun j => num (f j) := by
  refine List.ext_getElem (by simp [hlen]) fun j hj hj' => ?_
  rw [List.getElem_map, List.getElem_range, ← h j (hlen ▸ hj), valueAt, List.getD_eq_getElem _ _ hj]

theorem valueAt_replicate {n j : ℕ} (h : j < n) (x : Exact) : valueAt (List.replicate n x) j = x := by
  rw [valueAt, List.getD_eq_getElem _ _ (by simpa using h), List.getElem_replicate]

theorem valueAt_map {f : Exact → Exact} {xs : List Exact} {j : ℕ} (h : j < xs.length) :
    valueAt (xs.map f) j = f (valueAt xs j) := by
  rw [valueAt, valueAt, List.getD_eq_getElem _ _ (by rwa [List.length_map]), List.getElem_map,
    List.getD_eq_getElem _ _ h]

theorem valueAt_zipWith {β : Type} {f : Exact → β → Exact} {xs : List Exact} {ys : List β} {j : ℕ}
    (h : j < (List.zipWith f xs ys).length) (d : β) :
    valueAt (List.zipWith f xs ys) j = f (valueAt xs j) (ys.getD j d) := by
  have hlt := h
  rw [List.length_zipWith, lt_min_iff] at hlt
  rw [valueAt, List.getD_eq_getElem _ _ h, List.getElem_zipWith, valueAt,
    List.getD_eq_getElem _ _ hlt.1, List.getD_eq_getElem _ _ hlt.2]

theorem givenAt_replicate {α : Type} {n j : ℕ} (h : j < n) (x : Option α) :
    givenAt (List.replicate n x) j = x := by
  rw [givenAt, List.getD_eq_getElem _ _ (by simpa using h), List.getElem_replicate]

theorem valueAt_mem {xs : List Exact} {j : ℕ} (h : j < xs.length) : valueAt xs j ∈ xs := by
  rw [valueAt, List.getD_eq_getElem _ _ h]
  exact List.getElem_mem h

theorem exists_valueAt {xs : List Exact} {x : Exact} (h : x ∈ xs) :
    ∃ j < xs.length, valueAt xs j = x := by
  obtain ⟨j, hj, rfl⟩ := List.getElem_of_mem h
  exact ⟨j, hj, by rw [valueAt, List.getD_eq_getElem _ _ hj]⟩

end Dispatch.Exact
