import Dispatch.Proofs.Plan.Rounding
import Dispatch.Proofs.Stock.Decays
import Dispatch.Proofs.Stock.Reachable

/-! # The bound on the level of a storage

* `Device.Sound.abs_replayed_le`: no level that flows inside the power band lead to is larger than
  `Device.stockBound`.
* `SelectorAdmits`: the rows of a direction selector leave room for a deviation to either side.
* `Device.stockBound_covers`: the bound is one, and what is built on it holds: the constant of the
  selectors of committed levels, and the room that the levels of an answer are given.

A slot keeps a share in `(0, 1]` of the level and stores a share in `(0, 1]` of the change, so the level
after it is larger than the one before by the change at most, and the bound adds up the changes. For the
same reason an answer whose balances are a little off ends with levels that are off by the sum of it.
-/

namespace Dispatch
set_option autoImplicit false

open Exact Scalar

theorem Decay.isShare_coefficients (mode : Decay) {e : Exact} (h : Stock.isShare e = true) :
    Stock.isShare (mode.coefficients e).1 = true ∧ Stock.isShare (mode.coefficients e).2 = true := by
  obtain ⟨r, rfl, h0, h1⟩ := (Stock.isShare_iff e).mp h
  rw [mode.coefficients_eq h0 h1]
  have hpos := mode.shares_pos h0 h1
  have hle := mode.shares_le_one h0 h1
  exact ⟨(Stock.isShare_iff _).mpr ⟨_, rfl, hpos.1, hle.1⟩,
    (Stock.isShare_iff _).mpr ⟨_, rfl, hpos.2, hle.2⟩⟩

theorem Device.Sound.abs_replayed_le {d : Device Exact} {len : ℕ} (h : d.Sound len) {s : Stock Exact}
    (hs : d.stock = some s) {hours : ℝ} (hh : 0 ≤ hours) {flow : ℕ → ℝ} (hflow : d.WithinBand len flow)
    {j : ℕ} (hj : j < len) :
    Scalar.abs (valueAt (s.replayed hours len flow) j) ≤ d.stockBound (num hours) := by
  rw [(h.stock s hs).valueAt_replayed hours flow hj, h.stockBound_eq hs, num_abs, num_le_num]
  calc |s.path hours flow (j + 1)| ≤ d.reach s hours (j + 1) :=
        h.abs_path_le hs hh ((h.withinBand_iff flow).mp hflow) hj
    _ ≤ d.reach s hours len := h.reach_mono hs hh hj le_rfl

/-! ## Selectors of committed levels -/

/-- Where the columns of a pair hold the deviations of `x` from `q`, the selector has a value for which
its rows hold. -/
def SelectorAdmits (bigM x q : Exact) : Prop :=
  ∀ (up down selector : ℕ) (v : ℕ → ℝ), num (v up) = maxNum (x - q) 0 →
    num (v down) = maxNum (q - x) 0 → num (v selector) = (if Scalar.lt q x then 1 else 0) →
      Within 0 1 true (num (v selector)) ∧
        (Row.le (.col up) (.term bigM selector)).holds (fun i => num (v i)) = true ∧
        (Row.le (.term bigM selector + .col down) (.const bigM)).holds (fun i => num (v i)) = true

theorem selectorAdmits_of_le {bigM x q : ℝ} (h : |x| + |q| ≤ bigM) :
    SelectorAdmits (num bigM) (num x) (num q) := by
  intro up down selector v hup hdown hselector
  obtain ⟨hlow, hhigh⟩ := abs_le.mp ((abs_sub x q).trans h)
  have hterm := LinExpr.means_term bigM selector
  rw [num_sub, zero_eq, num_maxNum, num_inj] at hup hdown
  rw [num_lt, one_eq, zero_eq, ← apply_ite num, num_inj] at hselector
  rw [within_binary, Row.le_holds_iff (LinExpr.means_col up) hterm,
    Row.le_holds_iff (hterm.add (LinExpr.means_col down)) (LinExpr.means_const bigM), hup, hdown,
    hselector]
  -- Only the deviation on the side of `x` is left, and the selector stands on that side.
  rcases lt_or_ge q x with hlt | hle
  · rw [if_pos (decide_eq_true hlt), max_eq_left (by linarith), max_eq_right (by linarith), mul_one]
    exact ⟨.inr rfl, hhigh, by linarith⟩
  · rw [if_neg (by simpa using hle), max_eq_right (by linarith), max_eq_left (by linarith), mul_zero]
    exact ⟨.inl rfl, le_rfl, by linarith⟩

namespace Problem
variable {p : Problem Exact} {c : Commitment Exact} {i : ℕ} {d : Device Exact} {s : Stock Exact}

theorem Sound.measureBound_of_stock (hp : p.Sound) (hkind : c.kind = .stock)
    (hi : p.committed? c = some i) (hd : p.devices[i]? = some d) (hs : d.stock = some s) :
    num (p.measureBound c) = d.stockBound p.hours := by
  rw [p.hours_eq, (hp.device_of_get hd).stockBound_eq hs]
  simp only [measureBound, hkind, hi, hd, hs, Option.bind_some, Option.map_some, Option.getD_some]

/-- The selectors of a committed level leave room for every level within the bound. -/
theorem Sound.selectorAdmits_of_stock (hp : p.Sound) (hc : c ∈ p.commitments) (hkind : c.kind = .stock)
    (hi : p.committed? c = some i) (hd : p.devices[i]? = some d) (hs : d.stock = some s)
    {group : DeviationGroup Exact} (hgroup : group ∈ c.groups) {j : ℕ} (hj : j ∈ group.slots)
    {margin : ℝ} (hmargin : 0 ≤ margin) {x : ℝ} (hx : num |x| ≤ d.stockBound p.hours) :
    SelectorAdmits (groupBigM p (num margin) c group) (num x) (c.baseline j) := by
  have hactive := (hp.commitment c hc).mem_activeSlots_of_group hgroup hj
  rw [← hp.measureBound_of_stock hkind hi hd hs, num_le_num] at hx
  rw [(hp.commitment c hc).baseline_eq j hactive, hp.groupBigM_eq hc hgroup]
  exact selectorAdmits_of_le (le_groupBound hmargin hx hj)

end Problem

/-! ## Levels that are a little off -/

namespace Stock
variable {s : Stock Exact} {len : ℕ} {hours : ℝ} {flow level : ℕ → ℝ}

/-- By how much a level misses the balance of its slot. -/
noncomputable def residual (s : Stock Exact) (hours : ℝ) (flow level : ℕ → ℝ) (j : ℕ) : Exact :=
  Scalar.abs (num (level j) - s.after (num hours) j (num (s.before level j)) (num (flow j)))

theorem SoundSlot.residual_eq {j : ℕ} (h : s.SoundSlot j) (hours : ℝ) (flow level : ℕ → ℝ) :
    s.residual hours flow level j = num (s.gap hours flow level j) := by
  rw [residual, h.after_eq, num_sub, num_abs, gap]

theorem imbalance_le {n : ℕ} {r : ℝ} (h : ∀ j < n, s.gap hours flow level j ≤ r) :
    s.imbalance hours flow level n ≤ r * n := by
  have hsum := List.sum_le_card_nsmul ((List.range n).map (s.gap hours flow level)) r fun x hx => by
    obtain ⟨j, hj, rfl⟩ := List.mem_map.mp hx
    exact h j (List.mem_range.mp hj)
  rwa [List.length_map, List.length_range, nsmul_eq_mul, mul_comm] at hsum

/-- A level that keeps its limits passes, and so does one that is close to it. -/
theorem Keeps.passes (h : s.Sound len) {j : ℕ} (hj : j < len) {x y room : ℝ}
    (hkeeps : s.Keeps j (num x)) (hclose : |x - y| ≤ room) : LevelPasses s room j y := by
  refine (hkeeps.fits h.initial_eq (h.slot j hj)).passes h (fun hmin => ?_) (fun hmax => ?_) hclose
  · have hlow := hkeeps.low
    rw [h.initial_eq, hmin] at hlow
    cases hlow
  · have hhigh := hkeeps.high
    rw [h.initial_eq, hmax] at hhigh
    cases hhigh

end Stock

namespace Device
variable {d : Device Exact} {len : ℕ} {s : Stock Exact} {hours t : ℝ} {flow level : ℕ → ℝ}

/-- Levels whose balances are off by no more than the tolerance, on the scale of the bound, end within
the room of the replayed ones. -/
theorem Sound.abs_sub_path_le_levelRoom (h : d.Sound len) (hs : d.stock = some s) (ht : 0 ≤ t)
    (hh : 0 ≤ hours) (hgap : ∀ j < len, s.gap hours flow level j ≤ t * (1 + d.reach s hours len))
    {j : ℕ} (hj : j < len) :
    |level j - s.path hours flow (j + 1)| ≤ d.levelRoom t hours len := by
  have hreach : 0 ≤ d.reach s hours len :=
    (abs_nonneg s.start).trans (h.reach_mono hs hh (Nat.zero_le len) le_rfl)
  have hslots : ((j + 1 : ℕ) : ℝ) ≤ len := by exact_mod_cast hj
  rw [levelRoom, h.stockBound_eq hs, toReal_num]
  calc |level j - s.path hours flow (j + 1)| ≤ s.imbalance hours flow level (j + 1) :=
        (h.stock s hs).abs_before_sub_path_le hours flow level hj
    _ ≤ t * (1 + d.reach s hours len) * (j + 1 : ℕ) :=
        Stock.imbalance_le fun k hk => hgap k (by omega)
    _ ≤ t * (1 + d.reach s hours len) * len :=
        mul_le_mul_of_nonneg_left hslots (mul_nonneg ht (by linarith))
    _ ≤ _ := le_max_left _ _

theorem Sound.violations_eq_nil_of_keeps (h : d.Sound len) (hs : d.stock = some s) (hh : 0 ≤ hours)
    (ht : 0 ≤ t)
    (hresidual : ∀ j < len,
      s.residual hours flow level j ≤ num t * (1 + d.stockBound (num hours)))
    (hkeeps : ∀ j < len, s.Keeps j (num (level j))) :
    s.violations (s.replayed hours len flow) (Plan.stockSlack (num t) (num hours) d len) = [] := by
  have hstock := h.stock s hs
  have hgap : ∀ j < len, s.gap hours flow level j ≤ t * (1 + d.reach s hours len) := by
    intro j hj
    have := hresidual j hj
    rwa [(hstock.slot j hj).residual_eq, h.stockBound_eq hs, one_eq, num_add, num_mul,
      num_le_num] at this
  rw [stockSlack_eq h hs, Stock.replayed, Stock.replay_eq hstock, violations_eq_nil hstock]
  exact fun j hj => (hkeeps j hj).passes hstock hj (h.abs_sub_path_le_levelRoom hs ht hh hgap hj)

/-! ## What is built on the bound -/

/-- Both shares of a slot lie in `(0, 1]`, whatever its decay. The bound is a number, and no level is
larger that flows inside the power band lead to. So the selector of a committed level has room for both
deviations, and an answer is not refused for levels that keep their limits and whose balances are off
by no more than the tolerance on the scale of the bound. -/
theorem stockBound_covers (hcheck : d.check len = .ok ()) (hs : d.stock = some s) (hh : 0 < hours) :
    (∀ (mode : Decay) (e : Exact), Stock.isShare e = true →
      Stock.isShare (mode.coefficients e).1 = true ∧ Stock.isShare (mode.coefficients e).2 = true) ∧
    Scalar.isFinite (d.stockBound (num hours)) = true ∧
    ∀ flow : ℕ → ℝ, d.WithinBand len flow →
      (∀ j < len,
        Scalar.abs (valueAt (s.replayed hours len flow) j) ≤ d.stockBound (num hours)) ∧
      (∀ (p : Problem Exact) (i : ℕ), p.check = .ok () → p.hours = num hours →
        p.devices[i]? = some d → ∀ c ∈ p.commitments, c.kind = .stock → p.committed? c = some i →
        ∀ group ∈ c.groups, ∀ j ∈ group.slots, ∀ margin : ℝ, 0 ≤ margin →
          SelectorAdmits (groupBigM p (num margin) c group)
            (valueAt (s.replayed hours len flow) j) (c.baseline j)) ∧
      ∀ (t : ℝ) (level : ℕ → ℝ), 0 ≤ t →
        (∀ j < len, s.residual hours flow level j ≤ num t * (1 + d.stockBound (num hours))) →
        (∀ j < len, s.Keeps j (num (level j))) →
        s.violations (s.replayed hours len flow) (Plan.stockSlack (num t) (num hours) d len) =
          [] := by
  have h := sound_of_check hcheck
  refine ⟨fun mode _ => mode.isShare_coefficients, ?_, fun flow hflow => ⟨fun j hj => ?_, ?_, ?_⟩⟩
  · rw [h.stockBound_eq hs]
    exact num_isFinite _
  · exact h.abs_replayed_le hs hh.le hflow hj
  · intro p i hp hhours hd c hc hkind hi group hgroup j hj margin hmargin
    have hp := Problem.sound_of_check hp
    have hlen : p.len = len := (hp.device_of_get hd).powerMin_length.symm.trans h.powerMin_length
    have hlt : j < len := hlen ▸ (hp.commitment c hc).slot_lt j
      ((hp.commitment c hc).mem_activeSlots_of_group hgroup hj)
    have hlevel := h.abs_replayed_le hs hh.le hflow hlt
    rw [(h.stock s hs).valueAt_replayed hours flow hlt] at hlevel ⊢
    exact hp.selectorAdmits_of_stock hc hkind hi hd hs hgroup hj hmargin (hhours ▸ hlevel)
  · intro t level ht hresidual hkeeps
    exact h.violations_eq_nil_of_keeps hs hh.le ht hresidual hkeeps

/-- A battery that loses half its level within the hour, charged at full power. -/
theorem leakyBattery_level_bounded :
    Scalar.abs (valueAt ((leakyStock (1 / 2)).replayed 1 1 fun _ => 1) 0) ≤
      Device.stockBound { Problem.battery with stock := some (leakyStock (1 / 2)) } (num 1) := by
  have hcheck : Device.check { Problem.battery with stock := some (leakyStock (1 / 2)) } 1 = .ok () :=
    Problem.battery_check (leakyStock_check (by norm_num) (by norm_num)) false
  refine ((stockBound_covers hcheck rfl one_pos).2.2 (fun _ => 1) fun j hj => ?_).1 0 one_pos
  rw [Nat.lt_one_iff.mp hj]
  exact ⟨(num_le_num (-1) 1).mpr (by norm_num), (num_le_num 1 1).mpr le_rfl⟩

end Device

end Dispatch
