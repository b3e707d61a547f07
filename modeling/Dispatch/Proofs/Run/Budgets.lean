import Dispatch.Config.Basic
import Dispatch.Proofs.Exact.Basic

/-! # Budgets that grow

* `RetryPolicy.Budgets`: each budget is the one before, grown by the factor.
* `RetryPolicy.Modest`: the factor, the attempts and the first budget are in the ranges that a
  configuration may have.
* `RetryPolicy.Modest.has_budgets`: then there are budgets for all attempts; `mono` and `lt_longest`
  say that they never decrease and are never too long, and `awaitSlot_ne_none` that no attempt with one
  of them crashes before half of what a clock can show is over.

Ten attempts that begin with a day and grow tenfold stay far below the longest span, and rounding to
the nanosecond never crosses a whole number of them.
-/

namespace Dispatch
set_option autoImplicit false

open Exact Scalar

/-- As far as there are attempts, each budget is the one before, grown by the factor. -/
structure RetryPolicy.Budgets {α : Type} [Scalar α] (retry : RetryPolicy α) (first : Span)
    (budget : ℕ → Span) : Prop where
  first : budget 0 = first
  grown : ∀ i, i + 1 < max 1 retry.maxAttempts →
    (budget i).grown? retry.growth = some (budget (i + 1))

/-! ## Growing by an exact factor -/

/-- Rounding crosses no integer. -/
theorem Exact.roundTimes?_num (n : ℕ) (x : ℝ) : ∃ r, Scalar.roundTimes? n (num x) = some r ∧
    (∀ k : ℤ, (k : ℝ) ≤ n * x → k ≤ r) ∧ ∀ k : ℤ, n * x ≤ k → r ≤ k := by
  refine ⟨_, rfl, fun k h => ?_, fun k h => ?_⟩
  · have hfloor : k ≤ ⌊n * x⌋ := Int.le_floor.mpr h
    split_ifs
    · exact hfloor
    · exact hfloor.trans (Int.floor_mono (by linarith))
  · split_ifs
    · exact_mod_cast (Int.floor_le (n * x)).trans h
    · exact Int.lt_add_one_iff.mp (Int.floor_lt.mpr (by push_cast; linarith))

namespace Span

theorem seconds_exact (d : Span) : (d.seconds : Exact) = num (d.nanos / 1000000000) := by
  have hsplit : (d.nanos : ℝ) =
      1000000000 * (d.nanos / 1000000000 : ℤ) + (d.nanos % 1000000000 : ℤ) := by
    exact_mod_cast (Int.mul_ediv_add_emod d.nanos 1000000000).symm
  rw [seconds, ofInt_eq, ofInt_eq, ofNat_eq, num_div _ (by norm_num), num_add, num_inj, hsplit]
  push_cast
  ring

theorem grown?_exact {d : Span} {g : ℝ} (hd : 0 ≤ d.nanos) (hg : 0 ≤ g) :
    ∃ r : ℤ, (∀ k : ℤ, (k : ℝ) ≤ g * d.nanos → k ≤ r) ∧ (∀ k : ℤ, g * d.nanos ≤ k → r ≤ k) ∧
      ∀ e, d.grown? (num g) = some e ↔ e = ⟨r⟩ ∧ e < longest := by
  have hproduct : (num g * d.seconds : Exact) = num (g * d.nanos / 1000000000) := by
    rw [seconds_exact, num_mul, num_inj]
    ring
  have hpos : Scalar.lt (num (g * d.nanos / 1000000000)) 0 = false := by
    rw [zero_eq, num_lt, decide_eq_false_iff_not, not_lt]
    have : (0 : ℝ) ≤ d.nanos := by exact_mod_cast hd
    positivity
  have hnanos : ((1000000000 : ℕ) : ℝ) * (g * d.nanos / 1000000000) = g * d.nanos := by
    push_cast
    ring
  obtain ⟨r, hround, hleast, hmost⟩ := Exact.roundTimes?_num 1000000000 (g * d.nanos / 1000000000)
  rw [hnanos] at hleast hmost
  refine ⟨r, hleast, hmost, fun e => ?_⟩
  rw [grown?]
  simp only [hproduct, hround, hpos, Bool.false_eq_true, if_false, Option.ite_none_right_eq_some,
    Option.some.injEq]
  constructor
  · rintro ⟨hlt, rfl⟩
    exact ⟨rfl, hlt⟩
  · rintro ⟨rfl, hlt⟩
    exact ⟨hlt, rfl⟩

/-- A factor from one to ten makes a span longer, at most tenfold. -/
theorem grown?_bounds {d e : Span} {g : ℝ} (hd : 0 ≤ d.nanos) (hg : 1 ≤ g) (hg' : g ≤ 10)
    (h : d.grown? (num g) = some e) :
    d.nanos ≤ e.nanos ∧ e.nanos ≤ 10 * d.nanos ∧ e < longest := by
  obtain ⟨r, hleast, hmost, hgrown⟩ := grown?_exact hd (zero_le_one.trans hg)
  obtain ⟨rfl, hlt⟩ := (hgrown e).mp h
  have hpos : (0 : ℝ) ≤ d.nanos := by exact_mod_cast hd
  refine ⟨hleast _ ?_, hmost _ ?_, hlt⟩
  · exact le_mul_of_one_le_left hpos hg
  · push_cast
    exact mul_le_mul_of_nonneg_right hg' hpos

theorem exists_grown? {d : Span} {g : ℝ} (hd : 0 ≤ d.nanos) (hg : 1 ≤ g) (hg' : g ≤ 10)
    (hshort : 10 * d.nanos < longest.nanos) : ∃ e, d.grown? (num g) = some e := by
  obtain ⟨r, -, hmost, hgrown⟩ := grown?_exact hd (zero_le_one.trans hg)
  have hpos : (0 : ℝ) ≤ d.nanos := by exact_mod_cast hd
  have hr : r ≤ 10 * d.nanos := by
    refine hmost _ ?_
    push_cast
    exact mul_le_mul_of_nonneg_right hg' hpos
  exact ⟨⟨r⟩, (hgrown _).mpr ⟨rfl, lt_iff.mpr (hr.trans_lt hshort)⟩⟩

end Span

/-! ## Budgets in the ranges of a configuration -/

namespace RetryPolicy
variable {retry : RetryPolicy Exact} {first : Span} {budget : ℕ → Span} {g : ℝ}

/-- The factor is from one to ten, and there are ten attempts of at most a day to begin with. -/
structure Modest (retry : RetryPolicy Exact) (first : Span) (g : ℝ) : Prop where
  growth : retry.growth = num g
  least : 1 ≤ g
  most : g ≤ 10
  attempts : retry.maxAttempts ≤ 10
  first_nonneg : 0 ≤ first.nanos
  first_le : first.nanos ≤ 86400000000000

/-- After so many retries a budget has grown tenfold at most each time. -/
def Keeps (first : Span) (i : ℕ) (b : Span) : Prop :=
  0 ≤ b.nanos ∧ b.nanos ≤ 10 ^ i * first.nanos

namespace Modest

theorem tenfold_lt (h : retry.Modest first g) {i : ℕ} {b : Span} (hb : Keeps first i b)
    (hi : i + 1 < max 1 retry.maxAttempts) : 10 * b.nanos < Span.longest.nanos := by
  have hattempts := h.attempts
  have hpow : (10 : ℤ) ^ i ≤ 10 ^ 8 := pow_le_pow_right₀ (by norm_num) (by omega)
  have hfirst : (10 : ℤ) ^ i * first.nanos ≤ 10 ^ 8 * 86400000000000 :=
    mul_le_mul hpow h.first_le h.first_nonneg (by norm_num)
  have hlongest : Span.longest.nanos = 18446744073709551616000000000 := rfl
  have := hb.2
  omega

theorem grown (h : retry.Modest first g) {i : ℕ} {b : Span} (hb : Keeps first i b)
    (hi : i + 1 < max 1 retry.maxAttempts) : ∃ e, b.grown? retry.growth = some e := by
  rw [h.growth]
  exact Span.exists_grown? hb.1 h.least h.most (h.tenfold_lt hb hi)

theorem keeps_next (h : retry.Modest first g) {i : ℕ} {b e : Span} (hb : Keeps first i b)
    (he : b.grown? retry.growth = some e) : b.nanos ≤ e.nanos ∧ Keeps first (i + 1) e := by
  obtain ⟨hle, hmost, -⟩ := Span.grown?_bounds hb.1 h.least h.most (h.growth ▸ he)
  refine ⟨hle, hb.1.trans hle, hmost.trans ?_⟩
  rw [pow_succ']
  have := hb.2
  linarith

theorem keeps (h : retry.Modest first g) (hb : retry.Budgets first budget) (i : ℕ)
    (hi : i < max 1 retry.maxAttempts) : Keeps first i (budget i) := by
  induction i with
  | zero =>
    rw [hb.first]
    exact ⟨h.first_nonneg, by rw [pow_zero, one_mul]⟩
  | succ i ih => exact (h.keeps_next (ih (by omega)) (hb.grown i hi)).2

theorem mono (h : retry.Modest first g) (hb : retry.Budgets first budget) {i j : ℕ} (hij : i ≤ j)
    (hj : j < max 1 retry.maxAttempts) : budget i ≤ budget j := by
  induction j, hij using Nat.le_induction with
  | base => exact Int.le_refl _
  | succ j _ ih =>
    exact (ih (by omega)).trans (h.keeps_next (h.keeps hb j (by omega)) (hb.grown j hj)).1

theorem lt_longest (h : retry.Modest first g) (hb : retry.Budgets first budget) {i : ℕ}
    (hi : i < max 1 retry.maxAttempts) : budget i < Span.longest := by
  cases i with
  | zero =>
    rw [hb.first, Span.lt_iff]
    exact h.first_le.trans_lt (by decide)
  | succ i =>
    have hgrown := hb.grown i hi
    rw [h.growth] at hgrown
    exact (Span.grown?_bounds (h.keeps hb i (by omega)).1 h.least h.most hgrown).2.2

theorem awaitSlot_ne_none (h : retry.Modest first g) (hb : retry.Budgets first budget) {i : ℕ}
    (hi : i < max 1 retry.maxAttempts) {grace : Span} (hgrace : grace ≤ Span.ofSeconds 60) {w : Watch}
    (hnow : w.now + w.now < Watch.clockEnd) : w.awaitSlot (budget i) grace ≠ none := by
  have hattempts := h.attempts
  have hpow : (10 : ℤ) ^ i ≤ 10 ^ 9 := pow_le_pow_right₀ (by norm_num) (by omega)
  have hbudget : (budget i).nanos ≤ 10 ^ 9 * 86400000000000 :=
    (h.keeps hb i hi).2.trans (mul_le_mul hpow h.first_le h.first_nonneg (by norm_num))
  have hlongest : Span.longest.nanos = 18446744073709551616000000000 := rfl
  have hend : Watch.clockEnd.nanos = 9223372036854775808000000000 := rfl
  have hminute : (Span.ofSeconds 60).nanos = 60000000000 := rfl
  rw [ne_eq, Watch.awaitSlot_eq_none_iff]
  simp only [Span.le_iff, Span.lt_iff, Span.nanos_add] at hgrace hnow ⊢
  omega

end Modest

/-- Every budget grown from the one before; one that cannot be grown stays. -/
noncomputable def budgets (retry : RetryPolicy Exact) (first : Span) : ℕ → Span
  | 0 => first
  | i + 1 => ((budgets retry first i).grown? retry.growth).getD (budgets retry first i)

theorem Modest.has_budgets (h : retry.Modest first g) :
    retry.Budgets first (retry.budgets first) := by
  have hnext : ∀ i, i + 1 < max 1 retry.maxAttempts → Keeps first i (retry.budgets first i) →
      (retry.budgets first i).grown? retry.growth = some (retry.budgets first (i + 1)) := by
    intro i hi hb
    obtain ⟨e, he⟩ := h.grown hb hi
    rw [RetryPolicy.budgets, he, Option.getD_some]
  have hkeeps : ∀ i < max 1 retry.maxAttempts, Keeps first i (retry.budgets first i) := by
    intro i hi
    induction i with
    | zero => exact ⟨h.first_nonneg, by rw [RetryPolicy.budgets, pow_zero, one_mul]⟩
    | succ i ih =>
      have hb := ih (by omega)
      exact (h.keeps_next hb (hnext i hi hb)).2
  exact ⟨rfl, fun i hi => hnext i hi (hkeeps i (by omega))⟩

end RetryPolicy

theorem Config.modest_of_valid {c : Config Exact} (h : c.valid = true)
    (hnum : Scalar.isNaN c.retry.growth = false) :
    1 ≤ c.retry.maxAttempts ∧ ∃ g, c.retry.Modest c.solveSettings.budget g := by
  simp only [valid, Bool.and_eq_true, decide_eq_true_eq] at h
  obtain ⟨⟨⟨⟨⟨⟨⟨⟨⟨⟨hlimit, hlimit'⟩, -⟩, -⟩, -⟩, -⟩, hattempts⟩, hattempts'⟩, hgrowth⟩, -⟩, -⟩ := h
  refine ⟨hattempts, ?_⟩
  obtain ⟨g, hg, hleast, hmost⟩ : ∃ g, c.retry.growth = num g ∧ 1 ≤ g ∧ g ≤ 10 := by
    cases hvalue : c.retry.growth with
    | num g =>
      rw [hvalue, inRange, one_eq, ofNat_eq, num_lt, num_lt] at hgrowth
      simpa using hgrowth
    | inf =>
      rw [hvalue, inRange, Bool.and_eq_true] at hgrowth
      exact absurd (hgrowth.2 : false = true) Bool.false_ne_true
    | negInf =>
      rw [hvalue, inRange, Bool.and_eq_true] at hgrowth
      exact absurd (hgrowth.1 : false = true) Bool.false_ne_true
    | nan =>
      rw [hvalue] at hnum
      cases hnum
  refine ⟨g, hg, hleast, hmost, hattempts', ?_, ?_⟩
  · simp only [solveSettings, Span.ofSeconds]
    omega
  · simp only [solveSettings, Span.ofSeconds]
    omega

theorem Config.grace_le_of_valid {c : Config Exact} (h : c.valid = true) :
    c.solveSettings.grace ≤ Span.ofSeconds 60 := by
  simp only [valid, Bool.and_eq_true, decide_eq_true_eq] at h
  obtain ⟨⟨⟨⟨⟨⟨⟨⟨⟨-, hgrace⟩, -⟩, -⟩, -⟩, -⟩, -⟩, -⟩, -⟩, -⟩ := h
  simp only [solveSettings, Span.le_iff, Span.ofMillis, Span.ofSeconds]
  omega

/-- Without layers, a configuration has the standard settings. -/
theorem Config.exists_standard : ∃ c : Config Exact, Config.read [] = .ok c ∧
    c.retry = .standard ∧ c.solveSettings = .standard := by
  obtain ⟨c, hc⟩ : ∃ c : Config Exact, ofSetting? defaults = some c := ⟨_, rfl⟩
  have hdecimal : ∀ digits places : ℕ,
      (Scalar.ofDecimal ⟨false, digits, -(places : ℤ)⟩ : Exact) = num (digits / 10 ^ places) := lit_eq
  have hread : (read [] : Except ConfigFault (Config Exact)) =
      if c.valid then .ok c else .error .outOfRange := by
    change (match (ofSetting? defaults : Option (Config Exact)) with
      | none => Except.error ConfigFault.unreadable
      | some c => if c.valid then .ok c else .error .outOfRange) = _
    rw [hc]
  cases hc
  refine ⟨_, hread.trans (if_pos ?_), rfl, ?_⟩
  · simp only [valid, inRange, hdecimal, lit_eq, ofNat_eq, zero_eq, one_eq, num_lt]
    norm_num
  · have hbias : gt (Scalar.ofDecimal ⟨false, 1, -(3 : ℕ)⟩ : Exact) 0 = true := by
      rw [hdecimal, zero_eq, num_gt]
      norm_num
    simp only [solveSettings, tieBreak, hbias]
    rfl

end Dispatch
