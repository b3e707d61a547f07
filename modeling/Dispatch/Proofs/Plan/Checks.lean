import Dispatch.Plan
import Dispatch.Proofs.Program.Deviations

/-! # What is asked of the answer for a device

* `Answer`: real numbers for some of the columns.
* `FlowPasses`, `LevelPasses`: the conditions on one slot of a device.
* `readDevice_eq_ok`: what an answer states of a device is taken just when the answer passes in every
  slot.
-/

namespace Dispatch
set_option autoImplicit false

open Exact Scalar

/-! ## Answers -/

/-- Real numbers for some of the columns. -/
abbrev Answer := ℕ → Option ℝ

namespace Answer

def values (a : Answer) : Assignment Exact := fun i => (a i).map num

/-- Columns without a value hold zero. -/
noncomputable def filled (a : Answer) (i : ℕ) : ℝ := (a i).getD 0

end Answer

/-- Values below the tolerance count as zero. -/
noncomputable def cleaned (t x : ℝ) : ℝ := if |x| < t then 0 else x

/-! ## Conditions -/

noncomputable def Device.flowRoom (d : Device Exact) (t : ℝ) : ℝ := t * (1 + d.bound)

noncomputable def Device.levelRoom (d : Device Exact) (t hours : ℝ) (len : ℕ) : ℝ :=
  max (t * (1 + (d.stockBound (num hours)).toReal) * len) (1 / (10 : ℕ) ^ 6)

noncomputable def DeviceColumns.powerAt (c : DeviceColumns) (t : ℝ) (a : Answer) (j : ℕ) : ℝ :=
  cleaned t (c.flowAt a.filled j)

structure FlowPasses (t : ℝ) (d : Device Exact) (c : DeviceColumns) (a : Answer) (j : ℕ) : Prop where
  up_given : (a (c.up.getD j 0)).isSome = true
  down_given : (a (c.down.getD j 0)).isSome = true
  up_sign : -d.flowRoom t ≤ a.filled (c.up.getD j 0)
  down_sign : a.filled (c.down.getD j 0) ≤ d.flowRoom t
  one_half : min (a.filled (c.up.getD j 0)) (-a.filled (c.down.getD j 0)) ≤ d.flowRoom t
  low : d.low j - d.flowRoom t ≤ c.powerAt t a j
  high : c.powerAt t a j ≤ d.high j + d.flowRoom t

/-- The level breaks no limit and misses no target by more than `room`. -/
structure LevelPasses (s : Stock Exact) (room : ℝ) (j : ℕ) (level : ℝ) : Prop where
  low : ¬num (level - s.start) < valueAt s.min j - num room
  high : ¬valueAt s.max j + num room < num (level - s.start)
  target : ∀ e, givenAt s.equals j = some e → |level - s.start - e.toReal| ≤ room

structure DevicePasses (p : Problem Exact) (t : ℝ) (d : Device Exact) (c : DeviceColumns) (a : Answer) :
    Prop where
  flow : ∀ j < p.len, FlowPasses t d c a j
  levels_given : ∀ levels, c.stock = some levels → ∀ i ∈ levels, (a i).isSome = true
  level : ∀ s, d.stock = some s → ∀ j < p.len, LevelPasses s (d.levelRoom t p.realHours p.len) j
    (valueAt (s.replay (p.series (c.powerAt t a)) p.hours) j).toReal

/-! ## Single flows -/

theorem clean_num (t x : ℝ) : Plan.clean (num t) (num x) = num (cleaned t x) := by
  rw [Plan.clean, cleaned, num_abs, num_lt]
  by_cases h : |x| < t
  · rw [if_pos (decide_eq_true h), if_pos h, zero_eq]
  · rw [if_neg (by simpa using h), if_neg h]

theorem valueOf_eq_ok {a : Answer} {i : ℕ} {x : Exact} :
    Plan.valueOf a.values i = .ok x ↔ (a i).isSome = true ∧ x = num (a.filled i) := by
  rw [Plan.valueOf, Answer.values, Answer.filled]
  cases a i with
  | none => simp
  | some r => simp [eq_comm]

theorem flowSlack_eq {d : Device Exact} {len : ℕ} (h : d.Sound len) (t : ℝ) :
    Plan.flowSlack (num t) d = num (d.flowRoom t) := by
  rw [Plan.flowSlack, h.flowBound_eq, one_eq, num_add, num_mul, Device.flowRoom]

theorem readFlow_eq_ok {d : Device Exact} {len j : ℕ} (h : d.Sound len) (hj : j < len) {t : ℝ}
    {c : DeviceColumns} {a : Answer} {x : Exact} :
    Plan.readFlow (num t) d c a.values j = .ok x ↔
      FlowPasses t d c a j ∧ x = num (c.powerAt t a j) := by
  rw [Plan.readFlow]
  simp only [Checked.bind_eq_ok, valueOf_eq_ok, flowSlack_eq h, Plan.reject, Checked.guardThen_eq_ok,
    Checked.pure_eq_ok]
  have hsum : num (a.filled (c.up.getD j 0)) + num (a.filled (c.down.getD j 0)) =
      num (c.flowAt a.filled j) := rfl
  constructor
  · rintro ⟨_, ⟨hup, rfl⟩, _, ⟨hdown, rfl⟩, hsign, hhalf, hband, hx⟩
    rw [hsum, clean_num] at hband hx
    rw [h.powerMin_eq j hj, h.powerMax_eq j hj] at hband
    simp only [num_neg, num_lt, num_gt, num_sub, num_add, num_minNum, Bool.or_eq_true,
      decide_eq_true_eq, not_or, not_lt] at hsign hhalf hband
    exact ⟨⟨hup, hdown, hsign.1, hsign.2, hhalf, hband.1, hband.2⟩, hx.symm⟩
  · rintro ⟨⟨hup, hdown, hneg, hpos, hhalf, hlow, hhigh⟩, rfl⟩
    refine ⟨_, ⟨hup, rfl⟩, _, ⟨hdown, rfl⟩, ?_⟩
    rw [hsum, clean_num, h.powerMin_eq j hj, h.powerMax_eq j hj]
    simp only [num_neg, num_lt, num_gt, num_sub, num_add, num_minNum, Bool.or_eq_true,
      decide_eq_true_eq, not_or, not_lt]
    exact ⟨⟨hneg, hpos⟩, hhalf, ⟨hlow, hhigh⟩, rfl⟩

/-! ## Single levels -/

theorem stockSlack_eq {d : Device Exact} {len : ℕ} (h : d.Sound len) {s : Stock Exact}
    (hs : d.stock = some s) (t hours : ℝ) (n : ℕ) :
    Plan.stockSlack (num t) (num hours) d n = num (d.levelRoom t hours n) := by
  have hbound : d.stockBound (num hours) = num (d.stockBound (num hours)).toReal := by
    rw [h.stockBound_eq hs, toReal_num]
  rw [Plan.stockSlack, hbound, one_eq, ofNat_eq, lit_eq, num_add, num_mul, num_mul, num_maxNum,
    Nat.cast_one, Device.levelRoom, Nat.cast_ofNat]

theorem violates_eq_false {s : Stock Exact} {len j : ℕ} (h : s.Sound len) (hj : j < len)
    {room level : ℝ} : s.violates (num room) j (num level) = false ↔ LevelPasses s room j level := by
  have hrel : num level - s.initial = num (level - s.start) := by rw [h.initial_eq, num_sub]
  have htarget := (h.slot j hj).target_eq
  rw [Stock.violates, hrel]
  cases hgiven : givenAt s.equals j with
  | none =>
    simp only [Bool.or_false, Bool.or_eq_false_iff]
    constructor
    · rintro ⟨hlow, hhigh⟩
      exact ⟨by rw [lt_def, hlow]; simp, by rw [lt_def]; simpa [gt] using hhigh,
        fun e he => by rw [hgiven] at he; cases he⟩
    · rintro ⟨hlow, hhigh, -⟩
      exact ⟨by simpa [lt_def] using hlow, by simpa [lt_def, gt] using hhigh⟩
  | some e =>
    rw [htarget e hgiven]
    simp only [num_sub, num_abs, num_lt, Bool.or_eq_false_iff, decide_eq_false_iff_not, not_lt]
    constructor
    · rintro ⟨⟨hlow, hhigh⟩, hmissed⟩
      refine ⟨by rw [lt_def, hlow]; simp, by rw [lt_def]; simpa [gt] using hhigh, fun e' he => ?_⟩
      rw [hgiven] at he
      obtain rfl := Option.some.inj he
      exact hmissed
    · rintro ⟨hlow, hhigh, hmissed⟩
      exact ⟨⟨by simpa [lt_def] using hlow, by simpa [lt_def, gt] using hhigh⟩, hmissed e hgiven⟩

theorem violations_eq_nil {s : Stock Exact} {len : ℕ} (h : s.Sound len) {room : ℝ} {level : ℕ → ℝ} :
    s.violations ((List.range len).map fun j => num (level j)) (num room) = [] ↔
      ∀ j < len, LevelPasses s room j (level j) := by
  rw [Stock.violations, List.map_eq_nil_iff, List.filter_eq_nil_iff]
  constructor
  · intro hall j hj
    have hmem : (num (level j), j) ∈ ((List.range len).map fun j => num (level j)).zipIdx := by
      rw [List.mem_zipIdx_iff_getElem?, List.getElem?_map, List.getElem?_range hj, Option.map_some]
    exact (violates_eq_false h hj).mp (by simpa using hall _ hmem)
  · rintro hall ⟨x, j⟩ hmem
    have hget : ((List.range len).map fun j => num (level j))[j]? = some x :=
      List.mem_zipIdx_iff_getElem?.mp hmem
    rw [List.getElem?_map] at hget
    obtain ⟨k, hk, rfl⟩ := Option.map_eq_some_iff.mp hget
    obtain ⟨hj, rfl⟩ := List.getElem?_eq_some_iff.mp hk
    rw [List.length_range] at hj
    rw [List.getElem_range]
    exact Bool.eq_false_iff.mp ((violates_eq_false h hj).mpr (hall j hj))

/-! ## Whole devices -/

section
variable {p : Problem Exact} {t : ℝ} {d : Device Exact} {c : DeviceColumns} {a : Answer}

/-- The levels that given flows lead to pass when they violate nothing. -/
theorem replay_passes (h : d.Sound p.len) {s : Stock Exact} (hs : d.stock = some s) {flow : ℕ → ℝ} :
    s.violations (s.replay (p.series flow) p.hours) (Plan.stockSlack (num t) p.hours d p.len) = [] ↔
      ∀ j < p.len, LevelPasses s (d.levelRoom t p.realHours p.len) j
        (valueAt (s.replay (p.series flow) p.hours) j).toReal := by
  have hstock := h.stock s hs
  have hreplay : s.replay (p.series flow) p.hours =
      (List.range p.len).map fun j => num (s.path p.realHours flow (j + 1)) := by
    rw [p.hours_eq]
    exact Stock.replay_eq hstock p.realHours flow
  rw [p.hours_eq, stockSlack_eq h hs, ← p.hours_eq, hreplay, violations_eq_nil hstock]
  exact forall₂_congr fun j hj => by rw [valueAt_range hj, toReal_num]

theorem readStock_eq_ok (h : d.Sound p.len) {s : Stock Exact} (hs : d.stock = some s)
    {levels : List ℕ} {flow : ℕ → ℝ} {told : List Exact} :
    Plan.readStock p (num t) d s levels a.values (p.series flow) = .ok told ↔
      ((∀ i ∈ levels, (a i).isSome = true) ∧
        ∀ j < p.len, LevelPasses s (d.levelRoom t p.realHours p.len) j
          (valueAt (s.replay (p.series flow) p.hours) j).toReal) ∧
      told = levels.map fun i => num (cleaned t (a.filled i)) := by
  have hsolved : ∀ i ∈ levels, ∀ x, Plan.valueOf a.values i = .ok x ↔
      (a i).isSome = true ∧ x = num (a.filled i) := fun i _ x => valueOf_eq_ok
  rw [← replay_passes h hs, Plan.readStock, Checked.bind_eq_ok]
  cases hviolations : s.violations (s.replay (p.series flow) p.hours)
      (Plan.stockSlack (num t) p.hours d p.len) with
  | cons j js => simp [Plan.reject]
  | nil =>
    simp only [Checked.mapM_eq_ok_of_forall hsolved, Checked.pure_eq_ok]
    constructor
    · rintro ⟨_, ⟨hgiven, rfl⟩, htold⟩
      rw [List.map_map] at htold
      refine ⟨⟨hgiven, trivial⟩, htold.symm.trans (List.map_congr_left fun i _ => clean_num t _)⟩
    · rintro ⟨⟨hgiven, -⟩, rfl⟩
      refine ⟨_, ⟨hgiven, rfl⟩, ?_⟩
      rw [List.map_map]
      exact List.map_congr_left fun i _ => clean_num t _

noncomputable def toldDevice (p : Problem Exact) (t : ℝ) (a : Answer) (c : DeviceColumns) :
    DevicePlan Exact :=
  ⟨p.series (c.powerAt t a), c.stock.map fun levels => levels.map fun i => num (cleaned t (a.filled i))⟩

theorem readDevice_eq_ok (h : d.Sound p.len) (hshape : DeviceShape p d c) {told : DevicePlan Exact} :
    Plan.readDevice p (num t) a.values d c = .ok told ↔
      DevicePasses p t d c a ∧ told = toldDevice p t a c := by
  have hflow : ∀ j ∈ p.grid.slots, ∀ x, Plan.readFlow (num t) d c a.values j = .ok x ↔
      FlowPasses t d c a j ∧ x = num (c.powerAt t a j) := fun j hj x =>
    readFlow_eq_ok h (List.mem_range.mp hj)
  have hslots : (∀ j ∈ p.grid.slots, FlowPasses t d c a j) ↔ ∀ j < p.len, FlowPasses t d c a j :=
    forall_congr' fun j => by rw [Grid.slots, List.mem_range]; rfl
  have hshape' := hshape.stock
  rw [Plan.readDevice, Checked.bind_eq_ok]
  simp only [Checked.mapM_eq_ok_of_forall hflow, hslots]
  cases hs : d.stock with
  | none =>
    rw [hs, Option.isSome_none, Option.isSome_eq_false_iff, Option.isNone_iff_eq_none] at hshape'
    simp only [toldDevice, hshape', Checked.pure_eq_ok, Option.map_none]
    constructor
    · rintro ⟨_, ⟨hpass, rfl⟩, rfl⟩
      exact ⟨⟨hpass, fun _ hl => (nomatch hshape'.symm.trans hl),
        fun _ hs' => (nomatch hs.symm.trans hs')⟩, rfl⟩
    · rintro ⟨hpass, rfl⟩
      exact ⟨_, ⟨hpass.flow, rfl⟩, rfl⟩
  | some s =>
    rw [hs] at hshape'
    obtain ⟨levels, hlevels⟩ := Option.isSome_iff_exists.mp hshape'
    simp only [toldDevice, hlevels, Checked.bind_eq_ok, Checked.pure_eq_ok, Option.map_some]
    constructor
    · rintro ⟨_, ⟨hpass, rfl⟩, _, hstock, rfl⟩
      obtain ⟨⟨hgiven, hlevel⟩, rfl⟩ := (readStock_eq_ok h hs).mp hstock
      refine ⟨⟨hpass, fun l hl => ?_, fun s' hs' => ?_⟩, rfl⟩
      · obtain rfl := Option.some.inj (hlevels.symm.trans hl)
        exact hgiven
      · obtain rfl := Option.some.inj (hs.symm.trans hs')
        exact hlevel
    · rintro ⟨hpass, rfl⟩
      exact ⟨_, ⟨hpass.flow, rfl⟩, _, (readStock_eq_ok h hs).mpr
        ⟨⟨hpass.levels_given levels hlevels, hpass.level s hs⟩, rfl⟩, rfl⟩

end

end Dispatch
