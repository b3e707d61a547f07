import Dispatch.Proofs.Problem.Plans

/-! # Stocks that decay

* `Stock.decaying`: a stock with another decay and other retentions.
* `Stock.path_decaying_mono`: where a stock only fills, larger shares leave it with higher levels.
* `Stock.decays_ordered`: decay after the change leaves the least, then decay during the slot, then
  decay before the change, and no decay the most; a lower retention never leaves more.
-/

namespace Dispatch
set_option autoImplicit false

open Exact Scalar

namespace Stock

def decaying (s : Stock Exact) (mode : Decay) (kept : List Exact) : Stock Exact :=
  { s with mode := mode, retention := kept }

variable {s : Stock Exact} {len : ℕ}

theorem SoundSlot.decaying {j : ℕ} (h : s.SoundSlot j) (mode : Decay) {kept : List Exact}
    (hkept : isShare (valueAt kept j) = true) : (s.decaying mode kept).SoundSlot j := by
  obtain ⟨r, hr, hpos, hle⟩ := (isShare_iff _).mp hkept
  have hreal : (s.decaying mode kept).kept j = r := by
    rw [Stock.kept, show (s.decaying mode kept).retention = kept from rfl, hr, toReal_num]
  exact {
    etaUp_eq := h.etaUp_eq
    upShare_pos := h.upShare_pos
    upShare_le := h.upShare_le
    etaDown_eq := h.etaDown_eq
    downShare_pos := h.downShare_pos
    downShare_le := h.downShare_le
    retention_eq := by rw [hreal]; exact hr
    kept_pos := hreal ▸ hpos
    kept_le := hreal ▸ hle
    delta_eq := h.delta_eq
    target_eq := h.target_eq
    min_le_max := h.min_le_max }

theorem Sound.decaying (h : s.Sound len) (mode : Decay) {kept : List Exact}
    (hkept : ∀ j < len, isShare (valueAt kept j) = true) : (s.decaying mode kept).Sound len where
  initial_eq := h.initial_eq
  min_length := h.min_length
  max_length := h.max_length
  equals_length := h.equals_length
  slot j hj := (h.slot j hj).decaying mode (hkept j hj)

/-! ## Stocks that only fill -/

/-- Nothing is missing at the start, and no slot takes anything away. -/
structure Fills (s : Stock Exact) (hours : ℝ) (len : ℕ) (flow : ℕ → ℝ) : Prop where
  start : 0 ≤ s.start
  change : ∀ j < len, 0 ≤ s.realChange hours j (upHalf (flow j)) (downHalf (flow j))

theorem Fills.decaying {hours : ℝ} {flow : ℕ → ℝ} (hfills : s.Fills hours len flow) (mode : Decay)
    (kept : List Exact) : (s.decaying mode kept).Fills hours len flow := ⟨hfills.start, hfills.change⟩

theorem Fills.path_nonneg {hours : ℝ} {flow : ℕ → ℝ} (hfills : s.Fills hours len flow)
    (h : s.Sound len) {n : ℕ} (hn : n ≤ len) : 0 ≤ s.path hours flow n := by
  induction n with
  | zero => exact hfills.start
  | succ n ih =>
    obtain ⟨-, ⟨hcarry, -⟩, hintake, -⟩ := (h.slot n hn).coefficients
    exact add_nonneg (mul_nonneg (ih (Nat.le_of_succ_le hn)) hcarry.le)
      (mul_nonneg (hfills.change n hn) hintake.le)

/-- The slots see the same changes; only what is kept of them differs. -/
theorem path_decaying_mono {hours : ℝ} {flow : ℕ → ℝ} (hfills : s.Fills hours len flow)
    {mode mode' : Decay} {kept kept' : List Exact} (h : (s.decaying mode kept).Sound len)
    (h' : (s.decaying mode' kept').Sound len)
    (hshares : ∀ j < len, mode.shares (valueAt kept j).toReal ≤ mode'.shares (valueAt kept' j).toReal)
    {n : ℕ} (hn : n ≤ len) :
    (s.decaying mode kept).path hours flow n ≤ (s.decaying mode' kept').path hours flow n := by
  induction n with
  | zero => exact le_rfl
  | succ n ih =>
    obtain ⟨-, ⟨hcarry, -⟩, -⟩ := (h.slot n hn).coefficients
    have hle := hshares n hn
    rw [show mode.shares (valueAt kept n).toReal = _ from (h.slot n hn).shares_eq,
      show mode'.shares (valueAt kept' n).toReal = _ from (h'.slot n hn).shares_eq] at hle
    have hlevel := ih (Nat.le_of_succ_le hn)
    have hnonneg := (hfills.decaying mode kept).path_nonneg h (Nat.le_of_succ_le hn)
    exact add_le_add (mul_le_mul hlevel hle.1 hcarry.le (hnonneg.trans hlevel))
      (mul_le_mul_of_nonneg_left hle.2 (hfills.change n hn))

/-! ## The order of the decays -/

/-- The level after slot `j` under another decay and other retentions. -/
noncomputable def levelUnder (s : Stock Exact) (hours : ℝ) (len : ℕ) (flow : ℕ → ℝ) (mode : Decay)
    (kept : List Exact) (j : ℕ) : Exact :=
  valueAt ((s.decaying mode kept).replayed hours len flow) j

theorem Sound.levelUnder_eq (h : s.Sound len) (hours : ℝ) (flow : ℕ → ℝ) (mode : Decay)
    {kept : List Exact} (hkept : ∀ j < len, isShare (valueAt kept j) = true) {j : ℕ} (hj : j < len) :
    s.levelUnder hours len flow mode kept j =
      num ((s.decaying mode kept).path hours flow (j + 1)) :=
  (h.decaying mode hkept).valueAt_replayed hours flow hj

theorem Sound.isShare_retention (h : s.Sound len) {j : ℕ} (hj : j < len) :
    isShare (valueAt s.retention j) = true :=
  (isShare_iff _).mpr ⟨_, (h.slot j hj).retention_eq, (h.slot j hj).kept_pos, (h.slot j hj).kept_le⟩

theorem isShare_of_le {x y : Exact} (hpos : 0 < x) (hle : x ≤ y) (hy : isShare y = true) :
    isShare x = true := by
  obtain ⟨r, rfl, -, hr⟩ := (isShare_iff y).mp hy
  cases x with
  | num v =>
    exact (isShare_iff _).mpr ⟨v, rfl, (num_lt_num 0 v).mp hpos, ((num_le_num v r).mp hle).trans hr⟩
  | inf => cases hle
  | negInf => cases hpos
  | nan => cases hle

/-- While a stock only fills, the decays are ordered by what they leave, in every slot and over any
horizon, and the less is kept in some slots, the less there is in every one. The share of an even inflow
lies between the retention and 1. -/
theorem decays_ordered (h : s.check len = .ok ()) (hinitial : 0 ≤ s.initial) {hours : ℝ}
    {flow : ℕ → ℝ}
    (hchange : ∀ j < len,
      0 ≤ s.change j (maxNum (num (flow j)) 0) (minNum (num (flow j)) 0) (num hours)) :
    (∀ j < len,
      0 ≤ s.levelUnder hours len flow .left s.retention j ∧
      s.levelUnder hours len flow .left s.retention j ≤
        s.levelUnder hours len flow .linear s.retention j ∧
      s.levelUnder hours len flow .linear s.retention j ≤
        s.levelUnder hours len flow .right s.retention j ∧
      s.levelUnder hours len flow .right s.retention j ≤
        s.levelUnder hours len flow .perfect s.retention j) ∧
    (∀ kept : List Exact, (∀ j < len, 0 < valueAt kept j ∧ valueAt kept j ≤ valueAt s.retention j) →
      ∀ mode, ∀ j < len, s.levelUnder hours len flow mode kept j ≤
        s.levelUnder hours len flow mode s.retention j) ∧
    ∀ e : ℝ, 0 < e → e ≤ 1 → num e ≤ linearLossFactor (num e) ∧ linearLossFactor (num e) ≤ 1 := by
  have hsound := sound_of_check h
  have hretention := fun j hj => hsound.isShare_retention (j := j) hj
  have hfills : s.Fills hours len flow := by
    refine ⟨?_, fun j hj => ?_⟩
    · rwa [hsound.initial_eq, zero_eq, num_le_num] at hinitial
    · have hj' := hchange j hj
      rwa [(hsound.slot j hj).change_eq, zero_eq, num_le_num] at hj'
  have hordered {mode mode' : Decay} (hshares : ∀ j < len,
      mode.shares (s.kept j) ≤ mode'.shares (s.kept j)) {j : ℕ} (hj : j < len) :
      s.levelUnder hours len flow mode s.retention j ≤
        s.levelUnder hours len flow mode' s.retention j := by
    rw [hsound.levelUnder_eq hours flow mode hretention hj,
      hsound.levelUnder_eq hours flow mode' hretention hj, num_le_num]
    exact path_decaying_mono hfills (hsound.decaying mode hretention)
      (hsound.decaying mode' hretention) hshares hj
  refine ⟨fun j hj => ⟨?_, ?_, ?_, ?_⟩, fun kept hkept mode j hj => ?_, fun e h0 h1 => ?_⟩
  · rw [hsound.levelUnder_eq hours flow .left hretention hj, zero_eq, num_le_num]
    exact (hfills.decaying .left s.retention).path_nonneg (hsound.decaying .left hretention) hj
  · exact hordered (fun i hi =>
      (Decay.shares_ordered (hsound.slot i hi).kept_pos (hsound.slot i hi).kept_le).1) hj
  · exact hordered (fun i hi =>
      (Decay.shares_ordered (hsound.slot i hi).kept_pos (hsound.slot i hi).kept_le).2.1) hj
  · exact hordered (fun i hi =>
      (Decay.shares_ordered (hsound.slot i hi).kept_pos (hsound.slot i hi).kept_le).2.2) hj
  · have hlower := fun i hi => isShare_of_le (hkept i hi).1 (hkept i hi).2 (hretention i hi)
    rw [hsound.levelUnder_eq hours flow mode hlower hj,
      hsound.levelUnder_eq hours flow mode hretention hj, num_le_num]
    refine path_decaying_mono hfills (hsound.decaying mode hlower)
      (hsound.decaying mode hretention) (fun i hi => ?_) hj
    obtain ⟨r, hr, hpos, -⟩ := (isShare_iff _).mp (hlower i hi)
    have hle := (hkept i hi).2
    rw [hr, (hsound.slot i hi).retention_eq, num_le_num] at hle
    rw [hr, toReal_num]
    exact mode.shares_mono hpos hle (hsound.slot i hi).kept_le
  · obtain ⟨hlow, hhigh⟩ := lossFactor_mem h0 h1
    rw [linearLossFactor_eq h0 h1, one_eq, num_le_num, num_le_num]
    exact ⟨hlow, hhigh⟩

end Stock

/-! ## A battery that leaks -/

/-- The stock of the battery, of which a slot keeps the share `r`. -/
noncomputable def leakyStock (r : ℝ) : Stock Exact := Problem.batteryStock.decaying .linear [num r]

theorem leakyStock_check {r : ℝ} (h0 : 0 < r) (h1 : r ≤ 1) : (leakyStock r).check 1 = .ok () := by
  exact Problem.batteryStock_check (num (-1)) none rfl h0 h1

/-- Charged for an hour the battery holds no more if a little more of it leaks, although the loss is
then taken from the logarithm and not from the series. -/
theorem leakyStock_ordered :
    (leakyStock 0.99995).levelUnder 1 1 (fun _ => 1) .left [num 0.99995] 0 ≤
      (leakyStock 0.99995).levelUnder 1 1 (fun _ => 1) .linear [num 0.99995] 0 ∧
    (leakyStock 0.99995).levelUnder 1 1 (fun _ => 1) .linear [num 0.9999] 0 ≤
      (leakyStock 0.99995).levelUnder 1 1 (fun _ => 1) .linear [num 0.99995] 0 := by
  have hcheck : (leakyStock 0.99995).check 1 = .ok () := leakyStock_check (by norm_num) (by norm_num)
  have hchange : ∀ j < 1, 0 ≤ (leakyStock 0.99995).change j (maxNum (num 1) 0) (minNum (num 1) 0)
      (num 1) := by
    intro j hj
    rw [((Stock.sound_of_check hcheck).slot j hj).change_eq, Nat.lt_one_iff.mp hj, zero_eq, num_le_num]
    norm_num [Stock.realChange, Stock.upShare, Stock.downShare, Stock.drift, leakyStock,
      Stock.decaying, Problem.batteryStock, valueAt, upHalf, downHalf]
  obtain ⟨hmodes, hlower, -⟩ :=
    Stock.decays_ordered hcheck ((num_le_num 0 1).mpr zero_le_one) hchange
  refine ⟨(hmodes 0 one_pos).2.1, hlower [num 0.9999] (fun j hj => ?_) .linear 0 one_pos⟩
  rw [Nat.lt_one_iff.mp hj]
  exact ⟨(num_lt_num 0 _).mpr (by norm_num), (num_le_num _ _).mpr (by norm_num)⟩

end Dispatch
