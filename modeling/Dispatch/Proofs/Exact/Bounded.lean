import Dispatch.Proofs.Exact.Scaling
import Dispatch.Proofs.Exact.Series

/-! # Numbers that are no infinities

* `Bounded`: a real number or `nan`. Sums of such numbers are such numbers.
* `isFinite_add`, `isFinite_sum`: a sum is finite just when every part of it is.
-/

namespace Dispatch.Exact
open Scalar
set_option autoImplicit false

/-- A real number or `nan`. -/
def Bounded (x : Exact) : Prop := x ≠ inf ∧ x ≠ negInf

theorem Bounded.finite {x : Exact} (h : x.Bounded) (hnan : x ≠ nan) : Scalar.isFinite x = true := by
  cases x with
  | num y => rfl
  | inf => exact absurd rfl h.1
  | negInf => exact absurd rfl h.2
  | nan => exact absurd rfl hnan

theorem Bounded.add {x y : Exact} (hx : x.Bounded) (hy : y.Bounded) : (x + y).Bounded := by
  cases x with
  | num a =>
    cases y with
    | num b => exact ⟨nofun, nofun⟩
    | inf => exact absurd rfl hy.1
    | negInf => exact absurd rfl hy.2
    | nan => exact ⟨nofun, nofun⟩
  | inf => exact absurd rfl hx.1
  | negInf => exact absurd rfl hx.2
  | nan => rw [nan_add]; exact ⟨nofun, nofun⟩

theorem bounded_sum {xs : List Exact} (h : ∀ x ∈ xs, x.Bounded) : (Scalar.sum xs).Bounded := by
  induction xs using List.reverseRecOn with
  | nil => exact ⟨nofun, nofun⟩
  | append_singleton xs x ih =>
    obtain ⟨hxs, hx⟩ := List.forall_mem_append.mp h
    rw [sum_append_singleton]
    exact (ih hxs).add (hx x (List.mem_singleton_self x))

theorem add_negInf (x : Exact) : x + negInf = negInf ∨ x + negInf = nan := by
  cases x with
  | num y => exact .inl rfl
  | negInf => exact .inl rfl
  | inf | nan => exact .inr rfl

theorem not_le_nan (x : Exact) : ¬x ≤ nan := by
  cases x <;> rintro ⟨⟩

theorem not_abs_le_negInf (x : Exact) : ¬Scalar.abs x ≤ negInf := by
  cases x <;> rintro ⟨⟩

theorem eq_negInf_of_le {x : Exact} (h : x ≤ negInf) : x = negInf := by
  cases x with
  | negInf => rfl
  | num y => cases h
  | inf | nan => cases h

theorem eq_negInf_of_le_add {x y : Exact} (h : x ≤ y + negInf) : x = negInf := by
  rcases add_negInf y with hy | hy
  · exact eq_negInf_of_le (hy ▸ h)
  · exact absurd (hy ▸ h) (not_le_nan x)

theorem isFinite_add {x y : Exact} :
    Scalar.isFinite (x + y) = true ↔ Scalar.isFinite x = true ∧ Scalar.isFinite y = true := by
  refine ⟨isFinite_of_add, fun ⟨hx, hy⟩ => ?_⟩
  obtain ⟨a, rfl⟩ := (isFinite_iff x).mp hx
  obtain ⟨b, rfl⟩ := (isFinite_iff y).mp hy
  rfl

theorem isFinite_mul {x y : Exact} (hx : Scalar.isFinite x = true) (hy : Scalar.isFinite y = true) :
    Scalar.isFinite (x * y) = true := by
  obtain ⟨a, rfl⟩ := (isFinite_iff x).mp hx
  obtain ⟨b, rfl⟩ := (isFinite_iff y).mp hy
  rfl

theorem isFinite_sum {xs : List Exact} : Scalar.isFinite (Scalar.sum xs) = true ↔ AllFinite xs := by
  refine ⟨isFinite_of_sum, fun h => ?_⟩
  rw [h.eq_map, sum_num]
  rfl

end Dispatch.Exact
