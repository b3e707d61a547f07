import Dispatch.Proofs.Plan.Reading

/-! # What deviations that pass may cost

* `Answer.Pairs`: a pair of deviations is at least zero, and one of the two is zero where the pair has
  a selector, both up to the tolerance.
* `GroupColumns.costRoom`: how far the cost of such a pair may fall short.
* `cost_le_of_linkPasses`: a pair that passes the check of its links and is such a pair costs what it
  measures, but for this room.

The check of the links asks nothing of the signs and the selector, and its room grows with both
deviations; so the conditions on the pair stand beside it.
-/

namespace Dispatch
set_option autoImplicit false

open Exact

/-- The deviations are at least zero, and at most one of them exceeds zero where a selector has to keep
the other at zero, all up to the tolerance. -/
structure Answer.Pairs (a : Answer) (t : ℝ) (g : GroupColumns Exact) : Prop where
  up : -t ≤ a.filled g.up
  down : -t ≤ a.filled g.down
  one_side : g.selector.isSome = true → a.filled g.up ≤ t ∨ a.filled g.down ≤ t

/-- The tolerance and the largest room of a link, at the prices of the group. -/
noncomputable def GroupColumns.costRoom (g : GroupColumns Exact) (t : ℝ) (a : Answer) (x q : ℕ → ℝ) :
    ℝ :=
  (|g.upPrice.toReal| + |g.downPrice.toReal|) *
    (t + peak (g.slots.map fun j => linkRoom t (x j) (q j) (a.filled g.up) (a.filled g.down)))

/-! ## One pair -/

/-- A factor on the right side of zero loses no more than the tolerance. -/
theorem neg_mul_le {s w t y : ℝ} (hw : |s| ≤ w) (ht : 0 ≤ t) (h : 0 ≤ s ∧ -t ≤ y ∨ s ≤ 0 ∧ y ≤ t) :
    -(w * t) ≤ s * y := by
  obtain ⟨hlow, hhigh⟩ := abs_le.mp hw
  rcases h with ⟨hs, hy⟩ | ⟨hs, hy⟩
  · calc -(w * t) ≤ -(s * t) := neg_le_neg (mul_le_mul_of_nonneg_right hhigh ht)
      _ = s * -t := by ring
      _ ≤ s * y := mul_le_mul_of_nonneg_left hy hs
  · calc -(w * t) = -w * t := by ring
      _ ≤ s * t := mul_le_mul_of_nonneg_right hlow ht
      _ ≤ s * y := mul_le_mul_of_nonpos_left hy hs

/-- A pair on the side of the excess: growing costs it money, or one of its deviations is near zero. -/
theorem excess_cost_le {x up down u d t r : ℝ} (hx : 0 ≤ x) (ht : 0 ≤ t)
    (hlink : |x - up + down| ≤ r) (hdown : -t ≤ down) (h : 0 ≤ u + d ∨ up ≤ t ∨ down ≤ t) :
    u * x - (|u| + |d|) * (t + r) ≤ u * up + d * down := by
  set e := x - up + down with he
  have hr : 0 ≤ r := (abs_nonneg _).trans hlink
  have hmiss (k : ℝ) : |k * e| ≤ |k| * r := by
    rw [abs_mul]
    exact mul_le_mul_of_nonneg_left hlink (abs_nonneg k)
  have hsum : |u + d| ≤ |u| + |d| := abs_add_le u d
  -- The pair is compared through `down`, or through `up` where only that is known to be near zero.
  have hthrough : -((|u| + |d|) * t) ≤ (u + d) * down ∨ -((|u| + |d|) * t) ≤ (u + d) * (up - x) := by
    rcases le_total 0 (u + d) with hs | hs
    · exact .inl (neg_mul_le hsum ht (.inl ⟨hs, hdown⟩))
    · rcases h with hcost | hnear | hnear
      · exact .inl (neg_mul_le hsum ht (.inl ⟨hcost, hdown⟩))
      · exact .inr (neg_mul_le hsum ht (.inr ⟨hs, by linarith⟩))
      · exact .inl (neg_mul_le hsum ht (.inr ⟨hs, hnear⟩))
  rcases hthrough with hcost | hcost
  · have hsplit : u * up + d * down = u * x + (u + d) * down - u * e := by rw [he]; ring
    linarith [(abs_le.mp (hmiss u)).2, mul_nonneg (abs_nonneg d) hr]
  · have hsplit : u * up + d * down = u * x + (u + d) * (up - x) + d * e := by rw [he]; ring
    linarith [(abs_le.mp (hmiss d)).1, mul_nonneg (abs_nonneg u) hr]

/-- The same on either side of the baseline, the side of the shortfall by exchanging the two. -/
theorem pair_cost_le_near {x q up down u d t r : ℝ} (ht : 0 ≤ t) (hlink : |x - q - up + down| ≤ r)
    (hup : -t ≤ up) (hdown : -t ≤ down) (h : 0 ≤ u + d ∨ up ≤ t ∨ down ≤ t) :
    u * max (x - q) 0 + d * max (q - x) 0 - (|u| + |d|) * (t + r) ≤ u * up + d * down := by
  rcases le_total q x with hle | hle
  · rw [max_eq_left (sub_nonneg.mpr hle), max_eq_right (sub_nonpos.mpr hle), mul_zero, add_zero]
    exact excess_cost_le (sub_nonneg.mpr hle) ht hlink hdown h
  · rw [max_eq_right (sub_nonpos.mpr hle), max_eq_left (sub_nonneg.mpr hle), mul_zero, zero_add,
      add_comm |u|, add_comm (u * up)]
    refine excess_cost_le (sub_nonneg.mpr hle) ht ?_ hup ?_
    · rwa [← abs_neg, show -(q - x - down + up) = x - q - up + down by ring]
    · exact h.imp (fun h => by rwa [add_comm]) Or.symm

/-! ## Groups and commitments -/

section
variable {t : ℝ} {a : Answer} {c : Commitment Exact} {len : ℕ} {group : DeviationGroup Exact}
  {g : GroupColumns Exact} {x : ℕ → ℝ}

/-- A pair that passes costs what its group measures, up to its room. -/
theorem cost_le_of_linkPasses (ht : 0 ≤ t) (hc : c.Sound len) (hgroup : group ∈ c.groups)
    (hshape : GroupShape c group g) (hpairs : a.Pairs t g)
    (hlink : ∀ j ∈ g.slots,
      LinkPasses t c.grouping (x j) (c.level j) (a.filled g.up) (a.filled g.down)) :
    group.cost c x - g.costRoom t a x c.level ≤
      g.upPrice.toReal * a.filled g.up + g.downPrice.toReal * a.filled g.down := by
  set room := peak (g.slots.map fun j =>
    linkRoom t (x j) (c.level j) (a.filled g.up) (a.filled g.down)) with hroom
  have hle : ∀ j ∈ g.slots,
      linkRoom t (x j) (c.level j) (a.filled g.up) (a.filled g.down) ≤ room := fun j hj =>
    le_peak (List.mem_map.mpr ⟨j, hj, rfl⟩)
  have hroom0 : 0 ≤ room := peak_nonneg _
  rw [GroupColumns.costRoom, ← hroom]
  rcases hc.groups_cases hgroup with ⟨heach, j, hj, rfl⟩ | ⟨hany, -, heq⟩
  · have hmem : j ∈ g.slots := hshape.slots ▸ List.mem_singleton_self j
    have hj' := hlink j hmem
    rw [heach] at hj'
    simp only [hshape.upPrice, hshape.downPrice, DeviationGroup.cost, DeviationGroup.excess,
      DeviationGroup.shortfall, List.map_cons, List.map_nil, peak_singleton, toReal_num]
    refine pair_cost_le_near ht (hj'.trans (hle j hmem)) hpairs.up hpairs.down ?_
    rcases le_or_gt 0 (c.upRate j + c.downRate j) with h | h
    · exact .inl h
    · refine .inr (hpairs.one_side (hshape.selector.mpr ⟨heach, ?_⟩))
      simpa [DeviationGroup.needsSelector, zero_eq] using h
  · -- Neither price of a group of all slots is negative, so each side is compared alone.
    obtain ⟨hup, hdown⟩ := hc.any_prices_nonneg hany hgroup
    have hexcess : group.excess c x ≤ a.filled g.up + (t + room) := by
      refine peak_le_iff.mpr ⟨by linarith [hpairs.up], fun y hy => ?_⟩
      obtain ⟨j, hj, rfl⟩ := List.mem_map.mp hy
      rw [← hshape.slots] at hj
      have hj' := hlink j hj
      rw [hany] at hj'
      linarith [hj'.1, hle j hj]
    have hshortfall : group.shortfall c x ≤ a.filled g.down + (t + room) := by
      refine peak_le_iff.mpr ⟨by linarith [hpairs.down], fun y hy => ?_⟩
      obtain ⟨j, hj, rfl⟩ := List.mem_map.mp hy
      rw [← hshape.slots] at hj
      have hj' := hlink j hj
      rw [hany] at hj'
      linarith [hj'.2, hle j hj]
    rw [hshape.upPrice, hshape.downPrice, DeviationGroup.cost, abs_of_nonneg hup,
      abs_of_nonneg hdown]
    have h1 := mul_le_mul_of_nonneg_left hexcess hup
    have h2 := mul_le_mul_of_nonneg_left hshortfall hdown
    linarith

end

end Dispatch
