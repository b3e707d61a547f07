import Dispatch.Proofs.Problem.Plans
import Dispatch.Proofs.Program.Layout

/-! # What the columns of devices mean

* `SlotFits`, `LevelFits`: the conditions of a slot and of a level in real numbers.
* `SlotFits.inBand`, `slotFits_halves`: the two halves of a slot fit just when one of them is zero and
  their sum is inside the power band.
* `levelsHeld_iff`: the levels of a stock fit just when they are the replayed ones, each within its
  bounds.
* `deviceHeld_iff`, `siteHeld_iff`: the same for whole devices and for the site.
-/

namespace Dispatch
set_option autoImplicit false

open Exact Scalar

/-! ## Bounds -/

theorem within_num {lower upper x : ℝ} :
    Within (num lower) (num upper) false (num x) ↔ lower ≤ x ∧ x ≤ upper := by
  simp [Within]

theorem within_binary {x : ℝ} : Within (0 : Exact) 1 true (num x) ↔ x = 0 ∨ x = 1 := by
  simp only [Within, zero_eq, one_eq, num_le, num_eq, Bool.not_true, Bool.false_or, Bool.and_eq_true,
    Bool.or_eq_true, decide_eq_true_eq]
  constructor
  · exact fun h => h.2
  · rintro (rfl | rfl)
    · exact ⟨⟨le_rfl, zero_le_one⟩, .inl rfl⟩
    · exact ⟨⟨zero_le_one, le_rfl⟩, .inr rfl⟩

theorem within_from_zero {x : ℝ} : Within 0 infinity false (num x) ↔ 0 ≤ x := by
  simp only [Within, zero_eq, num_le, infinity_eq, Bool.not_false, Bool.true_or, Bool.and_true,
    Bool.and_eq_true, decide_eq_true_eq]
  exact and_iff_left (num_le_inf x)

/-! ## One slot -/

structure SlotFits (d : Device Exact) (bigM : ℝ) (j : ℕ) (c : SlotColumns) (v : ℕ → ℝ) : Prop where
  up_nonneg : 0 ≤ v c.up
  up_le : v c.up ≤ max (d.high j) 0
  down_ge : min (d.low j) 0 ≤ v c.down
  down_nonpos : v c.down ≤ 0
  low : 0 < d.low j → d.low j ≤ v c.up + v c.down
  high : d.high j < 0 → v c.up + v c.down ≤ d.high j
  selector : ∀ s, c.selector = some s → (v s = 0 ∨ v s = 1) ∧ v c.up ≤ bigM * v s ∧
    bigM * v s - v c.down ≤ bigM

theorem slotHeld_iff {d : Device Exact} {len j : ℕ} (h : d.Sound len) (hj : j < len) (bigM : ℝ)
    (c : SlotColumns) (v : ℕ → ℝ) :
    SlotHeld d (num bigM) j c (fun i => num (v i)) ↔ SlotFits d bigM j c v := by
  have hboth : (c.both : LinExpr Exact).Means fun v => v c.up + v c.down :=
    (LinExpr.means_col c.up).add (LinExpr.means_col c.down)
  have hlow := Row.ge_holds_iff hboth (LinExpr.means_const (d.low j)) v
  have hhigh := Row.le_holds_iff hboth (LinExpr.means_const (d.high j)) v
  have hupper (s : ℕ) := Row.le_holds_iff (LinExpr.means_col c.up) (LinExpr.means_term bigM s) v
  have hlower (s : ℕ) := Row.le_holds_iff
    ((LinExpr.means_term bigM s).sub (LinExpr.means_col c.down)) (LinExpr.means_const bigM) v
  have hup : Within 0 (maxNum (valueAt d.powerMax j) 0) false (num (v c.up)) ↔
      0 ≤ v c.up ∧ v c.up ≤ max (d.high j) 0 := by
    rw [h.powerMax_eq j hj, zero_eq, num_maxNum, within_num]
  have hdown : Within (minNum (valueAt d.powerMin j) 0) 0 false (num (v c.down)) ↔
      min (d.low j) 0 ≤ v c.down ∧ v c.down ≤ 0 := by
    rw [h.powerMin_eq j hj, zero_eq, num_minNum, within_num]
  constructor
  · intro held
    have h3 := held.low
    have h4 := held.high
    rw [h.powerMin_eq j hj, zero_eq, num_gt, decide_eq_true_eq, hlow] at h3
    rw [h.powerMax_eq j hj, zero_eq, num_lt, decide_eq_true_eq, hhigh] at h4
    refine ⟨(hup.mp held.up).1, (hup.mp held.up).2, (hdown.mp held.down).1, (hdown.mp held.down).2,
      h3, h4, fun s hs => ?_⟩
    obtain ⟨h5, h6, h7⟩ := held.selector s hs
    exact ⟨within_binary.mp h5, (hupper s).mp h6, (hlower s).mp h7⟩
  · intro fits
    refine ⟨hup.mpr ⟨fits.up_nonneg, fits.up_le⟩, hdown.mpr ⟨fits.down_ge, fits.down_nonpos⟩, ?_, ?_,
      fun s hs => ?_⟩
    · rw [h.powerMin_eq j hj, zero_eq, num_gt, decide_eq_true_eq, hlow]
      exact fits.low
    · rw [h.powerMax_eq j hj, zero_eq, num_lt, decide_eq_true_eq, hhigh]
      exact fits.high
    · obtain ⟨h5, h6, h7⟩ := fits.selector s hs
      exact ⟨within_binary.mpr h5, (hupper s).mpr h6, (hlower s).mpr h7⟩

theorem isBidirectional_iff {d : Device Exact} {len j : ℕ} (h : d.Sound len) (hj : j < len) :
    d.isBidirectional j = true ↔ 0 < d.high j ∧ d.low j < 0 := by
  rw [Device.isBidirectional, h.powerMin_eq j hj, h.powerMax_eq j hj, zero_eq, num_gt, num_lt,
    Bool.and_eq_true, decide_eq_true_eq, decide_eq_true_eq]

/-- One half of a slot is zero: by its bounds on a band with one side, by the selector otherwise. -/
theorem SlotFits.one_half {d : Device Exact} {len j : ℕ} {bigM : ℝ} {c : SlotColumns} {v : ℕ → ℝ}
    (fits : SlotFits d bigM j c v) (h : d.Sound len) (hj : j < len) (hshape : SlotShape d j c) :
    v c.up = 0 ∨ v c.down = 0 := by
  by_cases hbi : 0 < d.high j ∧ d.low j < 0
  · have hsome : c.selector.isSome = true := hshape.trans ((isBidirectional_iff h hj).mpr hbi)
    obtain ⟨s, hs⟩ := Option.isSome_iff_exists.mp hsome
    obtain ⟨hs0 | hs1, hupper, hlower⟩ := fits.selector s hs
    · rw [hs0, mul_zero] at hupper
      exact .inl (le_antisymm hupper fits.up_nonneg)
    · rw [hs1, mul_one] at hlower
      exact .inr (le_antisymm fits.down_nonpos (by linarith))
  · rcases not_and_or.mp hbi with hhigh | hlow
    · have := fits.up_le
      rw [max_eq_right (not_lt.mp hhigh)] at this
      exact .inl (le_antisymm this fits.up_nonneg)
    · have := fits.down_ge
      rw [min_eq_right (not_lt.mp hlow)] at this
      exact .inr (le_antisymm fits.down_nonpos this)

theorem SlotFits.inBand {d : Device Exact} {len j : ℕ} {bigM : ℝ} {c : SlotColumns} {v : ℕ → ℝ}
    (fits : SlotFits d bigM j c v) (h : d.Sound len) (hj : j < len) (hshape : SlotShape d j c) :
    d.InBand j (v c.up + v c.down) := by
  have hband := h.low_le_high j hj
  rcases fits.one_half h hj hshape with hu | hd
  · rw [hu, zero_add]
    have hdown := fits.down_ge
    have hlow := fits.low
    have hhigh := fits.high
    rw [hu, zero_add] at hlow hhigh
    have hneg := fits.down_nonpos
    refine ⟨?_, ?_⟩
    · rcases le_or_gt (d.low j) 0 with h0 | h0
      · rwa [min_eq_left h0] at hdown
      · exact hlow h0
    · rcases le_or_gt 0 (d.high j) with h0 | h0
      · exact hneg.trans h0
      · exact hhigh h0
  · rw [hd, add_zero]
    have hup := fits.up_le
    have hlow := fits.low
    have hhigh := fits.high
    rw [hd, add_zero] at hlow hhigh
    have hpos := fits.up_nonneg
    refine ⟨?_, ?_⟩
    · rcases le_or_gt (d.low j) 0 with h0 | h0
      · exact h0.trans hpos
      · exact hlow h0
    · rcases le_or_gt 0 (d.high j) with h0 | h0
      · rwa [max_eq_left h0] at hup
      · exact hhigh h0

/-- The halves of a flow inside the band fit, with the selector on their side. -/
theorem slotFits_halves {d : Device Exact} {bigM : ℝ} {j : ℕ} {c : SlotColumns} {v : ℕ → ℝ}
    {flow : ℝ} (hband : d.InBand j flow) (hbig : |flow| ≤ bigM) (hup : v c.up = upHalf flow)
    (hdown : v c.down = downHalf flow)
    (hselector : ∀ s, c.selector = some s → v s = if 0 < flow then 1 else 0) :
    SlotFits d bigM j c v := by
  obtain ⟨hlow, hhigh⟩ := hband
  obtain ⟨hbig1, hbig2⟩ := abs_le.mp hbig
  have hsum : v c.up + v c.down = flow := by rw [hup, hdown, upHalf_add_downHalf]
  refine ⟨?_, ?_, ?_, ?_, fun _ => hsum ▸ hlow, fun _ => hsum ▸ hhigh, fun s hs => ?_⟩
  · exact hup ▸ upHalf_nonneg flow
  · rw [hup]
    exact max_le_max hhigh le_rfl
  · rw [hdown]
    exact min_le_min hlow le_rfl
  · exact hdown ▸ downHalf_nonpos flow
  · rw [hselector s hs, hup, hdown, upHalf, downHalf]
    by_cases hpos : 0 < flow
    · rw [if_pos hpos, max_eq_left hpos.le, min_eq_right hpos.le]
      exact ⟨.inr rfl, by linarith, by linarith⟩
    · rw [if_neg hpos, max_eq_right (not_lt.mp hpos), min_eq_left (not_lt.mp hpos)]
      exact ⟨.inl rfl, by linarith, by linarith⟩

/-! ## Levels -/

theorem within_iff {lower upper x : Exact} :
    Within lower upper false x ↔ lower ≤ x ∧ x ≤ upper := by
  simp only [Within, Bool.not_false, Bool.true_or, Bool.and_true, Bool.and_eq_true]
  exact Iff.rfl

structure LevelFits (s : Stock Exact) (j : ℕ) (x : ℝ) : Prop where
  low : Scalar.isFinite (valueAt s.min j) = true → s.initial + valueAt s.min j ≤ num x
  high : Scalar.isFinite (valueAt s.max j) = true → num x ≤ s.initial + valueAt s.max j
  target : ∀ e, givenAt s.equals j = some e → x = s.start + e.toReal

theorem LevelFits.keeps {s : Stock Exact} {j : ℕ} {x : ℝ} (fits : LevelFits s j x)
    (hinitial : s.initial = num s.start) (hslot : s.SoundSlot j) (hbounds : s.ProperBounds j) :
    s.Keeps j (num x) := by
  refine ⟨?_, ?_, fun e he => ?_⟩
  · rcases hbounds.1 with h | h
    · exact fits.low h
    · rw [hinitial, h, negInfinity_eq, num_add_negInf]
      exact negInf_le_num x
  · rcases hbounds.2 with h | h
    · exact fits.high h
    · rw [hinitial, h, infinity_eq, num_add_inf]
      exact num_le_inf x
  · rw [fits.target e he, hslot.target_eq e he, hinitial, num_add, toReal_num]

theorem Stock.Keeps.fits {s : Stock Exact} {j : ℕ} {x : ℝ} (h : s.Keeps j (num x))
    (hinitial : s.initial = num s.start) (hslot : s.SoundSlot j) : LevelFits s j x := by
  refine ⟨fun _ => h.low, fun _ => h.high, fun e he => ?_⟩
  have htarget := h.target e he
  rw [hslot.target_eq e he, hinitial, num_add, num_inj] at htarget
  exact htarget

theorem Stock.SoundSlot.means_changeExpr {s : Stock Exact} {j : ℕ} (hslot : s.SoundSlot j)
    (hours : ℝ) (slot : SlotColumns) : (changeExpr s (num hours) j slot).Means
      fun v => s.realChange hours j (v slot.up) (v slot.down) := by
  rw [changeExpr, hslot.etaUp_eq, hslot.etaDown_eq, hslot.delta_eq, num_mul,
    num_div _ hslot.downShare_pos.ne']
  exact ((LinExpr.means_term _ _).add (LinExpr.means_term _ _)).add (LinExpr.means_const _)

theorem levelHeld_iff {s : Stock Exact} {j : ℕ} (hslot : s.SoundSlot j)
    (hinitial : s.initial = num s.start) (hours : ℝ) (slot : SlotColumns)
    {before : LinExpr Exact} {b : (ℕ → ℝ) → ℝ} (hbefore : before.Means b) (level : ℕ) (v : ℕ → ℝ) :
    LevelHeld s (num hours) j slot before level (fun i => num (v i)) ↔
      v level = s.step hours j (b v) (v slot.up) (v slot.down) ∧ LevelFits s j (v level) := by
  obtain ⟨hcoef, -⟩ := hslot.coefficients
  have hbalance := Row.eq_holds_iff (LinExpr.means_col level)
    ((hbefore.scale (s.carry j)).add ((hslot.means_changeExpr hours slot).scale (s.intake j))) v
  have htarget (e : ℝ) := Row.eq_holds_iff (LinExpr.means_col level)
    (LinExpr.means_const (s.start + e)) v
  constructor
  · intro held
    have h1 := held.balance
    rw [hcoef, hbalance] at h1
    obtain ⟨hlow, hhigh⟩ := within_iff.mp held.bounds
    refine ⟨h1, fun h => ?_, fun h => ?_, fun e he => ?_⟩
    · rwa [if_pos h] at hlow
    · rwa [if_pos h] at hhigh
    · have h2 := held.target e he
      rwa [hslot.target_eq e he, hinitial, num_add, htarget] at h2
  · rintro ⟨hstep, fits⟩
    refine ⟨within_iff.mpr ⟨?_, ?_⟩, ?_, fun e he => ?_⟩
    · split_ifs with h
      · exact fits.low h
      · exact negInf_le_num _
    · split_ifs with h
      · exact fits.high h
      · exact num_le_inf _
    · rw [hcoef, hbalance]
      exact hstep
    · rw [hslot.target_eq e he, hinitial, num_add, htarget]
      exact fits.target e he

/-- The levels fit just when they follow the path of the flows. The induction runs along the slots:
the level before slot `j`, whatever expression stands for it, is on the path. -/
theorem levelsHeld_iff {s : Stock Exact} {len : ℕ} (h : s.Sound len) (hours : ℝ)
    (slot : ℕ → SlotColumns) (v : ℕ → ℝ) {flow : ℕ → ℝ}
    (hflow : ∀ j < len, upHalf (flow j) = v (slot j).up ∧ downHalf (flow j) = v (slot j).down)
    (n j : ℕ) (hn : j + n ≤ len) (levels : List ℕ) {before : LinExpr Exact} {b : (ℕ → ℝ) → ℝ}
    (hbefore : before.Means b) (hb : b v = s.path hours flow j) :
    LevelsHeld s (num hours) (fun i => num (v i)) j before ((List.range' j n).map slot) levels ↔
      levels.length = n ∧ ∀ i < n, v (levels.getD i 0) = s.path hours flow (j + i + 1) ∧
        LevelFits s (j + i) (v (levels.getD i 0)) := by
  induction n generalizing j levels before b with
  | zero =>
    cases levels with
    | nil => simp [LevelsHeld]
    | cons level levels => simp [LevelsHeld]
  | succ n ih =>
    rw [List.range'_succ, List.map_cons]
    cases levels with
    | nil => simp [LevelsHeld]
    | cons level levels =>
      obtain ⟨hup, hdown⟩ := hflow j (by omega)
      have hlevel := levelHeld_iff (h.slot j (by omega)) h.initial_eq hours (slot j) hbefore level v
      rw [hb, ← hup, ← hdown] at hlevel
      have hrest (hv : v level = s.path hours flow (j + 1)) :=
        ih (j + 1) (by omega) levels (LinExpr.means_col level) hv
      rw [LevelsHeld, hlevel, List.length_cons, Nat.add_right_cancel_iff]
      constructor
      · rintro ⟨⟨hstep, hfits⟩, htail⟩
        obtain ⟨hlen, htail⟩ := (hrest hstep).mp htail
        refine ⟨hlen, fun i hi => ?_⟩
        cases i with
        | zero => exact ⟨hstep, hfits⟩
        | succ i =>
          have := htail i (by omega)
          rwa [show j + 1 + i = j + (i + 1) by omega] at this
      · rintro ⟨hlen, hall⟩
        have hhead := hall 0 (by omega)
        refine ⟨hhead, (hrest hhead.1).mpr ⟨hlen, fun i hi => ?_⟩⟩
        have := hall (i + 1) (by omega)
        rwa [show j + (i + 1) = j + 1 + i by omega] at this

/-! ## Whole devices -/

namespace DeviceColumns

def flowAt (c : DeviceColumns) (v : ℕ → ℝ) (j : ℕ) : ℝ := v (c.up.getD j 0) + v (c.down.getD j 0)

def levelAt (c : DeviceColumns) (v : ℕ → ℝ) (j : ℕ) : ℝ := v ((c.stock.getD []).getD j 0)

theorem means_flow (c : DeviceColumns) (j : ℕ) :
    (c.flow j : LinExpr Exact).Means fun v => c.flowAt v j :=
  (LinExpr.means_col _).add (LinExpr.means_col _)

end DeviceColumns

theorem Device.Sound.bigM_eq {d : Device Exact} {len : ℕ} (h : d.Sound len) (margin : ℝ) :
    d.bigM (num margin) = num (d.bound * (1 + margin) + 1) := by
  rw [Device.bigM, h.flowBound_eq, one_eq, num_add, num_mul, num_add]

structure DeviceFits (p : Problem Exact) (margin : ℝ) (d : Device Exact) (c : DeviceColumns)
    (v : ℕ → ℝ) : Prop where
  slot : ∀ j < p.len, SlotFits d (d.bound * (1 + margin) + 1) j (c.slot j) v
  level : ∀ s, d.stock = some s → ∀ j < p.len,
    c.levelAt v j = s.path p.realHours (c.flowAt v) (j + 1) ∧ LevelFits s j (c.levelAt v j)

section
variable {p : Problem Exact} {margin : ℝ} {d : Device Exact} {c : DeviceColumns} {v : ℕ → ℝ}

theorem halves_of_slotFits (h : d.Sound p.len) (hshape : DeviceShape p d c) {bigM : ℝ}
    (hslot : ∀ j < p.len, SlotFits d bigM j (c.slot j) v) (j : ℕ) (hj : j < p.len) :
    upHalf (c.flowAt v j) = v (c.slot j).up ∧ downHalf (c.flowAt v j) = v (c.slot j).down := by
  have fits := hslot j hj
  exact halves_of_add fits.up_nonneg fits.down_nonpos (fits.one_half h hj (hshape.slot j hj))

theorem deviceHeld_iff (h : d.Sound p.len) (hshape : DeviceShape p d c) :
    DeviceHeld p (num margin) d c (fun i => num (v i)) ↔ DeviceFits p margin d c v := by
  have hslots : (∀ j < p.len, SlotHeld d (d.bigM (num margin)) j (c.slot j) fun i => num (v i)) ↔
      ∀ j < p.len, SlotFits d (d.bound * (1 + margin) + 1) j (c.slot j) v := by
    rw [h.bigM_eq]
    exact forall₂_congr fun j hj => slotHeld_iff h hj _ (c.slot j) v
  have hlevels (hslot : ∀ j < p.len, SlotFits d (d.bound * (1 + margin) + 1) j (c.slot j) v)
      {s : Stock Exact} {levels : List ℕ} (hs : d.stock = some s) (hc : c.stock = some levels) :
      LevelsHeld s p.hours (fun i => num (v i)) 0 (.const s.initial)
        ((List.range p.len).map c.slot) levels ↔
      levels.length = p.len ∧ ∀ j < p.len,
        c.levelAt v j = s.path p.realHours (c.flowAt v) (j + 1) ∧ LevelFits s j (c.levelAt v j) := by
    have hsound := h.stock s hs
    have := levelsHeld_iff hsound p.realHours c.slot v (halves_of_slotFits h hshape hslot) p.len 0
      (by omega) levels (LinExpr.means_const s.start) rfl
    rw [p.hours_eq, hsound.initial_eq, List.range_eq_range', this]
    simp only [DeviceColumns.levelAt, hc, Option.getD_some, Nat.zero_add]
  constructor
  · intro held
    have hslot := hslots.mp held.slot
    refine ⟨hslot, fun s hs => ?_⟩
    have hsome : c.stock.isSome = true := hshape.stock.trans (by rw [hs]; rfl)
    obtain ⟨levels, hc⟩ := Option.isSome_iff_exists.mp hsome
    exact ((hlevels hslot hs hc).mp (held.levels s levels hs hc)).2
  · intro fits
    exact ⟨hslots.mpr fits.slot, fun s levels hs hc =>
      (hlevels fits.slot hs hc).mpr ⟨hshape.stock_length levels hc, fits.level s hs⟩⟩

/-- The halves of flows in their bands fit, with the selectors on their side and the levels replayed. -/
theorem deviceFits_of_halves (h : d.Sound p.len) (hmargin : 0 ≤ margin) {flow : ℕ → ℝ}
    (hband : ∀ j < p.len, d.InBand j (flow j))
    (hlimits : ∀ s, d.stock = some s → ∀ j < p.len,
      LevelFits s j (s.path p.realHours flow (j + 1)))
    (hup : ∀ j < p.len, v (c.slot j).up = upHalf (flow j))
    (hdown : ∀ j < p.len, v (c.slot j).down = downHalf (flow j))
    (hselector : ∀ j < p.len, ∀ i, (c.slot j).selector = some i → v i = if 0 < flow j then 1 else 0)
    (hlevel : ∀ s, d.stock = some s → ∀ j < p.len, c.levelAt v j = s.path p.realHours flow (j + 1)) :
    DeviceFits p margin d c v := by
  have hflow : ∀ j < p.len, c.flowAt v j = flow j := fun j hj => by
    rw [← upHalf_add_downHalf (flow j), ← hup j hj, ← hdown j hj]
    rfl
  refine ⟨fun j hj => ?_, fun s hs j hj => ?_⟩
  · refine slotFits_halves (hband j hj) ?_ (hup j hj) (hdown j hj) (hselector j hj)
    have hbound := h.abs_flow_le hj (hband j hj)
    nlinarith [h.bound_nonneg]
  · have hpath := s.path_congr p.realHours (n := j + 1) fun i hi => hflow i (by omega)
    rw [hlevel s hs j hj, hpath]
    exact ⟨rfl, hlimits s hs j hj⟩

end

/-! ## The site -/

theorem means_siteExpr (devices : List DeviceColumns) (members : List ℕ) (j : ℕ) :
    (siteExpr devices members j : LinExpr Exact).Means
      fun v => (members.map fun i => (devices.getD i .empty).flowAt v j).sum :=
  LinExpr.means_sum members _ _ fun _ _ => DeviceColumns.means_flow _ j

namespace Handles

def flow (h : Handles Exact) (v : ℕ → ℝ) (i j : ℕ) : ℝ := (h.devices.getD i .empty).flowAt v j

def level (h : Handles Exact) (v : ℕ → ℝ) (i j : ℕ) : ℝ := (h.devices.getD i .empty).levelAt v j

end Handles

theorem siteHeld_iff {p : Problem Exact} {h : Handles Exact} {v : ℕ → ℝ} {j : ℕ} :
    SiteHeld p h.devices j (fun i => num (v i)) ↔
      (Scalar.isFinite (valueAt p.site.min j) = true →
        valueAt p.site.min j ≤ num (p.siteFlow (h.flow v) j)) ∧
      (Scalar.isFinite (valueAt p.site.max j) = true →
        num (p.siteFlow (h.flow v) j) ≤ valueAt p.site.max j) := by
  have hsite := means_siteExpr h.devices p.siteMembers j
  have hlow : Scalar.isFinite (valueAt p.site.min j) = true →
      ((Row.ge (siteExpr h.devices p.siteMembers j) (.const (valueAt p.site.min j))).holds
        (fun i => num (v i)) = true ↔ valueAt p.site.min j ≤ num (p.siteFlow (h.flow v) j)) := by
    intro hfinite
    obtain ⟨x, hx⟩ := (isFinite_iff _).mp hfinite
    rw [hx, Row.ge_holds_iff hsite (LinExpr.means_const x), num_le_num]
    rfl
  have hhigh : Scalar.isFinite (valueAt p.site.max j) = true →
      ((Row.le (siteExpr h.devices p.siteMembers j) (.const (valueAt p.site.max j))).holds
        (fun i => num (v i)) = true ↔ num (p.siteFlow (h.flow v) j) ≤ valueAt p.site.max j) := by
    intro hfinite
    obtain ⟨x, hx⟩ := (isFinite_iff _).mp hfinite
    rw [hx, Row.le_holds_iff hsite (LinExpr.means_const x), num_le_num]
    rfl
  constructor
  · intro held
    exact ⟨fun hf => (hlow hf).mp (held.low hf), fun hf => (hhigh hf).mp (held.high hf)⟩
  · rintro ⟨h1, h2⟩
    exact ⟨fun hf => (hlow hf).mpr (h1 hf), fun hf => (hhigh hf).mpr (h2 hf)⟩

end Dispatch
