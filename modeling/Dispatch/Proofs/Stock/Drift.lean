import Dispatch.Proofs.Stock.Trajectory

/-! # Levels that miss the recurrence

* `Stock.before`: the level that a slot starts from, among given levels.
* `Stock.gap`, `Stock.imbalance`: how far given levels miss the recurrence, in one slot and in all
  slots up to one.
* `Stock.abs_before_sub_path_le`: given levels are off the path by their imbalance at most.
* `Stock.abs_path_sub_path_le`: how far apart two families of flows lead.

A slot keeps at most what it is given, so an error made in a slot never grows in later ones.
-/

namespace Dispatch
set_option autoImplicit false

namespace Stock

/-- The level that slot `j` starts from, where `level` tells the levels that slots end with. -/
noncomputable def before (s : Stock Exact) (level : ℕ → ℝ) : ℕ → ℝ
  | 0 => s.start
  | j + 1 => level j

/-- How far the level after slot `j` is from where the slot leads. -/
noncomputable def gap (s : Stock Exact) (hours : ℝ) (flow level : ℕ → ℝ) (j : ℕ) : ℝ :=
  |level j - s.step hours j (s.before level j) (upHalf (flow j)) (downHalf (flow j))|

/-- How far the levels after the first `n` slots miss the recurrence altogether. -/
noncomputable def imbalance (s : Stock Exact) (hours : ℝ) (flow level : ℕ → ℝ) (n : ℕ) : ℝ :=
  ((List.range n).map (s.gap hours flow level)).sum

variable {s : Stock Exact} {j : ℕ}

theorem imbalance_succ (s : Stock Exact) (hours : ℝ) (flow level : ℕ → ℝ) (n : ℕ) :
    s.imbalance hours flow level (n + 1) = s.imbalance hours flow level n + s.gap hours flow level n := by
  rw [imbalance, List.range_succ, List.map_append, List.sum_append, List.map_singleton,
    List.sum_singleton, imbalance]

theorem realChange_sub (s : Stock Exact) (hours : ℝ) (j : ℕ) (up down up' down' : ℝ) :
    s.realChange hours j up down - s.realChange hours j up' down' =
      hours * s.upShare j * (up - up') + hours / s.downShare j * (down - down') := by
  rw [realChange, realChange]
  ring

/-- A slot brings two levels no further apart than they were, but for the changes it makes. -/
theorem SoundSlot.abs_step_sub_le (h : s.SoundSlot j) (hours level level' up down up' down' : ℝ) :
    |s.step hours j level up down - s.step hours j level' up' down'| ≤
      |level - level'| + |s.realChange hours j up down - s.realChange hours j up' down'| := by
  obtain ⟨-, ⟨hcarry, hcarry'⟩, hintake, hintake'⟩ := h.coefficients
  calc |s.step hours j level up down - s.step hours j level' up' down'|
      = |(level - level') * s.carry j +
          (s.realChange hours j up down - s.realChange hours j up' down') * s.intake j| := by
        rw [step, step]
        congr 1
        ring
    _ ≤ |level - level'| * s.carry j +
          |s.realChange hours j up down - s.realChange hours j up' down'| * s.intake j := by
        refine (abs_add_le _ _).trans_eq ?_
        rw [abs_mul, abs_mul, abs_of_pos hcarry, abs_of_pos hintake]
    _ ≤ _ := add_le_add (mul_le_of_le_one_right (abs_nonneg _) hcarry')
        (mul_le_of_le_one_right (abs_nonneg _) hintake')

theorem before_path (s : Stock Exact) (hours : ℝ) (flow : ℕ → ℝ) (j : ℕ) :
    s.before (fun j => s.path hours flow (j + 1)) j = s.path hours flow j := by
  cases j with
  | zero => rfl
  | succ j => rfl

variable {len : ℕ}

/-- Levels are off the path by their imbalance at most. The induction follows the recurrence. -/
theorem Sound.abs_before_sub_path_le (h : s.Sound len) (hours : ℝ) (flow level : ℕ → ℝ) {n : ℕ}
    (hn : n ≤ len) :
    |s.before level n - s.path hours flow n| ≤ s.imbalance hours flow level n := by
  induction n with
  | zero => simp [before, path, imbalance]
  | succ n ih =>
    have hslot := h.slot n hn
    set next := s.step hours n (s.before level n) (upHalf (flow n)) (downHalf (flow n)) with hnext
    have hstep : |next - s.path hours flow (n + 1)| ≤ s.imbalance hours flow level n := by
      have hsame := hslot.abs_step_sub_le hours (s.before level n) (s.path hours flow n)
        (upHalf (flow n)) (downHalf (flow n)) (upHalf (flow n)) (downHalf (flow n))
      rw [sub_self, abs_zero, add_zero] at hsame
      exact hsame.trans (ih (by omega))
    calc |level n - s.path hours flow (n + 1)|
        ≤ |level n - next| + |next - s.path hours flow (n + 1)| := abs_sub_le _ _ _
      _ ≤ s.gap hours flow level n + s.imbalance hours flow level n := add_le_add le_rfl hstep
      _ = s.imbalance hours flow level (n + 1) := by rw [imbalance_succ, add_comm]

/-- The levels that other flows lead to miss the recurrence by the difference of the changes. -/
theorem Sound.gap_path_le (h : s.Sound len) (hours : ℝ) (flow flow' : ℕ → ℝ) (hj : j < len) :
    s.gap hours flow (fun j => s.path hours flow' (j + 1)) j ≤
      |s.realChange hours j (upHalf (flow' j)) (downHalf (flow' j)) -
        s.realChange hours j (upHalf (flow j)) (downHalf (flow j))| := by
  have hstep := (h.slot j hj).abs_step_sub_le hours (s.path hours flow' j) (s.path hours flow' j)
    (upHalf (flow' j)) (downHalf (flow' j)) (upHalf (flow j)) (downHalf (flow j))
  rw [sub_self, abs_zero, zero_add] at hstep
  rw [gap, before_path]
  exact hstep

/-- Two families of flows lead no further apart than the changes of their slots add up to. -/
theorem Sound.abs_path_sub_path_le (h : s.Sound len) (hours : ℝ) {flow flow' : ℕ → ℝ} {e : ℕ → ℝ}
    (hchange : ∀ j < len, |s.realChange hours j (upHalf (flow' j)) (downHalf (flow' j)) -
      s.realChange hours j (upHalf (flow j)) (downHalf (flow j))| ≤ e j) {n : ℕ} (hn : n ≤ len) :
    |s.path hours flow' n - s.path hours flow n| ≤ ((List.range n).map e).sum := by
  have hoff := h.abs_before_sub_path_le hours flow (fun j => s.path hours flow' (j + 1)) hn
  rw [before_path] at hoff
  refine hoff.trans (List.sum_le_sum fun j hj => ?_)
  have hlt : j < len := (List.mem_range.mp hj).trans_le hn
  exact (h.gap_path_le hours flow flow' hlt).trans (hchange j hlt)

end Stock

end Dispatch
