import Dispatch.Proofs.Exact.Scaling
import Dispatch.Proofs.Plan.Reading
import Dispatch.Proofs.Program.Exactness

/-! # Limits that the program leaves out

* `Model.Built.finite_of_held`: feasible values are numbers on every column of a device.
* `Stock.Attainable`, `SiteLimits.Attainable`: no lower limit of infinity, no upper one of minus
  infinity.
* `Problem.limits_kept_iff`: feasible values keep the limits of a stock and of the site just when these
  are attainable.

The program has rows and bounds for limits that are numbers. Of the others, minus infinity below and
infinity above are no limits, but the checks let more pass.
-/

namespace Dispatch
set_option autoImplicit false

open Exact Scalar

/-! ## Feasible values of the columns of devices -/

theorem finite_of_within {lower upper : ℝ} {b : Bool} {x : Exact}
    (h : Within (num lower) (num upper) b x) : Scalar.isFinite x = true := by
  rw [Within, Bool.and_eq_true, Bool.and_eq_true] at h
  cases x with
  | num y => rfl
  | inf => cases h.1.2
  | negInf => cases h.1.1
  | nan => cases h.1.1

theorem mem_addTerm_of_ne {c : ℕ} {x : Exact} {t : ℕ × Exact} {ts : List (ℕ × Exact)} (ht : t ∈ ts)
    (hne : t.1 ≠ c) : t ∈ addTerm c x ts := by
  induction ts with
  | nil => cases ht
  | cons s ts ih =>
    obtain ⟨d, y⟩ := s
    rw [addTerm]
    split_ifs with hbefore heq
    · exact List.mem_cons_of_mem _ ht
    · rcases List.mem_cons.mp ht with rfl | ht
      · exact absurd heq.symm hne
      · exact List.mem_cons_of_mem _ ht
    · rcases List.mem_cons.mp ht with rfl | ht
      · exact List.mem_cons_self
      · exact List.mem_cons_of_mem _ (ih ht)

theorem mem_foldl_addTerm_of_ne {k : Exact → Exact} {us ts : List (ℕ × Exact)} {t : ℕ × Exact}
    (ht : t ∈ ts) (hne : ∀ u ∈ us, u.1 ≠ t.1) :
    t ∈ us.foldl (fun ts u => addTerm u.1 (k u.2) ts) ts := by
  induction us generalizing ts with
  | nil => exact ht
  | cons u us ih =>
    obtain ⟨hu, hus⟩ := List.forall_mem_cons.mp hne
    exact ih (mem_addTerm_of_ne ht hu.symm) hus

/-- A column that equals a finite expression in other columns has a finite value. -/
theorem finite_of_eq_holds {level : ℕ} {f : LinExpr Exact} {y : (ℕ → ℝ) → ℝ} (hf : f.Means y)
    (hother : f.On (· ≠ level)) {values : ℕ → Exact}
    (h : (Row.eq (.col level) f).holds values = true) : Scalar.isFinite (values level) = true := by
  have hmem : (level, (1 : Exact)) ∈ (LinExpr.col level - f).support := by
    refine List.mem_filter.mpr ⟨?_, by simp [one_eq, zero_eq]⟩
    exact mem_foldl_addTerm_of_ne (k := (-1 * ·)) (List.mem_singleton_self _) hother
  obtain ⟨x, hx⟩ := (isFinite_iff f.constant).mp hf.constant
  have hright : (Row.eq (.col level) f).rhs = num (-(0 - x)) := by
    show -((0 : Exact) - f.constant) = _
    rw [hx, zero_eq, num_sub, num_neg]
  have hvalue : Scalar.isFinite
      (LinExpr.valueOf values (LinExpr.col level - f).support) = true := by
    rw [Row.holds, hright] at h
    change Scalar.eq (LinExpr.valueOf values (LinExpr.col level - f).support) _ = true at h
    cases hsum : LinExpr.valueOf values (LinExpr.col level - f).support with
    | num z => rfl
    | inf | negInf | nan =>
      rw [hsum] at h
      cases h
  have hterm : Scalar.isFinite (num 1 * values level) = true :=
    isFinite_of_sum hvalue _ (List.mem_map.mpr ⟨_, hmem, rfl⟩)
  rwa [one_scale] at hterm

theorem changeExpr_on {q : ℕ → Prop} (s : Stock Exact) (hours : Exact) (j : ℕ) {slot : SlotColumns}
    (hup : q slot.up) (hdown : q slot.down) : (changeExpr s hours j slot).On q :=
  ((LinExpr.on_term _ hup).add (LinExpr.on_term _ hdown)).add (LinExpr.on_const _)

/-- The balance of each slot gives its level in terms of the level before, so one after the other the
levels are finite. -/
theorem finite_of_levelsHeld {s : Stock Exact} {len : ℕ} (h : s.Sound len) (hours : ℝ)
    {values : ℕ → Exact} (slots : List SlotColumns) (j : ℕ) (hj : j + slots.length ≤ len)
    (levels : List ℕ) {before : LinExpr Exact} {b : (ℕ → ℝ) → ℝ} (hbefore : before.Means b)
    (hnodup : levels.Nodup)
    (hother : ∀ level ∈ levels, before.On (· ≠ level) ∧
      ∀ slot ∈ slots, slot.up ≠ level ∧ slot.down ≠ level)
    (held : LevelsHeld s (num hours) values j before slots levels) :
    ∀ level ∈ levels, Scalar.isFinite (values level) = true := by
  induction slots generalizing j levels before b with
  | nil =>
    cases levels with
    | nil => exact List.forall_mem_nil _
    | cons level levels => exact held.elim
  | cons slot slots ih =>
    cases levels with
    | nil => exact held.elim
    | cons level levels =>
      obtain ⟨hlevel, hrest⟩ := held
      obtain ⟨hnew, hnodup⟩ := List.nodup_cons.mp hnodup
      obtain ⟨⟨hbeforeOn, hslots⟩, hother⟩ := List.forall_mem_cons.mp hother
      obtain ⟨hslot, -⟩ := List.forall_mem_cons.mp hslots
      rw [List.length_cons] at hj
      refine List.forall_mem_cons.mpr ⟨?_, ?_⟩
      · have hsound := h.slot j (by omega)
        obtain ⟨hcoef, -⟩ := hsound.coefficients
        have hbalance := hlevel.balance
        rw [hcoef] at hbalance
        have hchange := hsound.means_changeExpr hours slot
        exact finite_of_eq_holds ((hbefore.scale _).add (hchange.scale _))
          ((hbeforeOn.scale _).add ((changeExpr_on s (num hours) j hslot.1 hslot.2).scale _)) hbalance
      · refine ih (j + 1) (by omega) levels (LinExpr.means_col level) hnodup
          (fun later hlater => ⟨LinExpr.on_term 1 fun heq => hnew (heq ▸ hlater), ?_⟩) hrest
        exact (List.forall_mem_cons.mp (hother later hlater).2).2

theorem exists_getD {β : Type} {xs : List β} {x : β} (h : x ∈ xs) (y : β) :
    ∃ j < xs.length, xs.getD j y = x := by
  obtain ⟨j, hj, rfl⟩ := List.getElem_of_mem h
  exact ⟨j, hj, List.getD_eq_getElem _ _ hj⟩

section
variable {p : Problem Exact} {margin : ℝ} {d : Device Exact} {c : DeviceColumns} {values : ℕ → Exact}

theorem DeviceHeld.finite_slot (held : DeviceHeld p (num margin) d c values) (h : d.Sound p.len)
    {j : ℕ} (hj : j < p.len) : Scalar.isFinite (values (c.slot j).up) = true ∧
      Scalar.isFinite (values (c.slot j).down) = true ∧
      ∀ i, (c.slot j).selector = some i → Scalar.isFinite (values i) = true := by
  have hslot := held.slot j hj
  have hup := hslot.up
  have hdown := hslot.down
  rw [h.powerMax_eq j hj, zero_eq, num_maxNum] at hup
  rw [h.powerMin_eq j hj, zero_eq, num_minNum] at hdown
  refine ⟨finite_of_within hup, finite_of_within hdown, fun i hi => ?_⟩
  have hselector := (hslot.selector i hi).1
  rw [zero_eq, one_eq] at hselector
  exact finite_of_within hselector

theorem DeviceHeld.finite_level (held : DeviceHeld p (num margin) d c values) (h : d.Sound p.len)
    (hshape : DeviceShape p d c) (hnodup : (c.owned.map Prod.fst).Nodup) {levels : List ℕ}
    (hc : c.stock = some levels) : ∀ level ∈ levels, Scalar.isFinite (values level) = true := by
  obtain ⟨s, hs⟩ : ∃ s, d.stock = some s := by
    rw [← Option.isSome_iff_exists, ← hshape.stock, hc]
    rfl
  have hsound := h.stock s hs
  have hheld := held.levels s levels hs hc
  rw [p.hours_eq, hsound.initial_eq] at hheld
  -- The columns of the levels are neither repeated nor halves of flows.
  simp only [DeviceColumns.owned, hc, Option.getD_some, List.map_append, List.map_map,
    Function.comp_def, List.map_id'] at hnodup
  rw [List.nodup_append] at hnodup
  obtain ⟨-, hlevels, hapart⟩ := hnodup
  refine finite_of_levelsHeld hsound p.realHours ((List.range p.len).map c.slot) 0 (by simp) levels
    (LinExpr.means_const s.start) hlevels (fun level hlevel => ⟨LinExpr.on_const _, ?_⟩) hheld
  intro slot hslot
  obtain ⟨j, hj, rfl⟩ := List.mem_map.mp hslot
  have hj : j < p.len := List.mem_range.mp hj
  have hup : c.up.getD j 0 ∈ c.up := by
    rw [List.getD_eq_getElem _ _ (hshape.up_length.symm ▸ hj)]
    exact List.getElem_mem _
  have hdown : c.down.getD j 0 ∈ c.down := by
    rw [List.getD_eq_getElem _ _ (hshape.down_length.symm ▸ hj)]
    exact List.getElem_mem _
  exact ⟨hapart _ (List.mem_append_left _ (List.mem_append_left _ hup)) level hlevel,
    hapart _ (List.mem_append_left _ (List.mem_append_right _ hdown)) level hlevel⟩

theorem DeviceHeld.finite (held : DeviceHeld p (num margin) d c values) (h : d.Sound p.len)
    (hshape : DeviceShape p d c) (hnodup : (c.owned.map Prod.fst).Nodup) :
    ∀ i ∈ c.owned.map Prod.fst, Scalar.isFinite (values i) = true := by
  intro i hi
  simp only [DeviceColumns.owned, List.map_append, List.map_map, Function.comp_def, List.map_id',
    List.mem_append] at hi
  rcases hi with ((hi | hi) | hi) | hi
  · obtain ⟨j, hj, rfl⟩ := exists_getD hi 0
    exact (held.finite_slot h (hshape.up_length ▸ hj)).1
  · obtain ⟨j, hj, rfl⟩ := exists_getD hi 0
    exact (held.finite_slot h (hshape.down_length ▸ hj)).2.1
  · obtain ⟨j, hj, hselector⟩ := exists_getD (List.reduceOption_mem_iff.mp hi) none
    exact (held.finite_slot h (hshape.selector_length ▸ hj)).2.2 i hselector
  · cases hc : c.stock with
    | none =>
      rw [hc] at hi
      cases hi
    | some levels =>
      rw [hc, Option.getD_some] at hi
      exact held.finite_level h hshape hnodup hc i hi

end

namespace Model.Built
variable {p : Problem Exact} {margin : ℝ} {m : Model Exact}

theorem finite_of_held (hb : m.Built p (num margin)) (hp : p.Sound) {values : ℕ → Exact}
    (held : DevicesHeld p (num margin) m.handles values) :
    ∀ i ∈ m.handles.deviceColumns.map Prod.fst, Scalar.isFinite (values i) = true := by
  intro i hi
  have hnodup := hb.nodup
  rw [List.map_append] at hnodup
  replace hnodup := hnodup.of_append_left
  rw [Handles.deviceColumns, List.map_flatMap] at hi hnodup
  obtain ⟨c, hc, hi⟩ := List.mem_flatMap.mp hi
  obtain ⟨d, hpair, hshape⟩ := exists_of_mem_right hb.devices hc
  exact (List.forall₂_zip held hpair).finite (hp.device d (List.of_mem_zip hpair).1) hshape
    ((List.nodup_flatMap.mp hnodup).1 c hc) i hi

/-- What feasible values say of the devices and the site, the numbers behind them say. -/
theorem held_toReal (hb : m.Built p (num margin)) (hp : p.Sound) {values : ℕ → Exact}
    (held : DevicesHeld p (num margin) m.handles values) (site : SitesHeld p m.handles values) :
    DevicesHeld p (num margin) m.handles (fun i => num (values i).toReal) ∧
      SitesHeld p m.handles fun i => num (values i).toReal :=
  hb.congr values _ (fun i hi => (num_toReal (hb.finite_of_held hp held i hi)).symm) ⟨held, site⟩

/-- Values that fit the devices and the site come from a plan that respects the limits that are
numbers. -/
theorem fitsLimits (hb : m.Built p (num margin)) (hp : p.Sound) {v : ℕ → ℝ}
    (held : DevicesHeld p (num margin) m.handles fun i => num (v i))
    (site : SitesHeld p m.handles fun i => num (v i)) : p.FitsLimits (m.handles.flow v) := by
  refine ⟨fun i d hd j hj => hb.inBand hp held hd hj, fun i d s hd hs j hj => ?_,
    fun hmembers j hj => siteHeld_iff.mp (site hmembers j hj)⟩
  obtain ⟨hlevel, hfits⟩ := ((hb.devicesHeld_iff hp).mp held i d hd).level s hs j hj
  rwa [hlevel] at hfits

end Model.Built

/-! ## What the checks let pass -/

/-- Some number respects the two limits, as far as infinities go. -/
def Attainable (low high : Exact) : Prop := low ≠ inf ∧ high ≠ negInf

/-- Of two limits of a slot, what those that are no real numbers can be. -/
structure LeftOut (low high : Exact) : Prop where
  below : Scalar.isFinite low = false →
    low = negInf ∨ low = nan ∨ low = inf ∧ (high = inf ∨ high = nan)
  above : Scalar.isFinite high = false →
    high = inf ∨ high = nan ∨ high = negInf ∧ (low = negInf ∨ low = nan)

theorem leftOut_of_not_gt {low high : Exact} (h : gt low high = false) : LeftOut low high := by
  refine ⟨fun hlow => ?_, fun hhigh => ?_⟩
  · cases low with
    | num x => cases hlow
    | negInf => exact .inl rfl
    | nan => exact .inr (.inl rfl)
    | inf =>
      cases high with
      | num y => cases h
      | negInf => cases h
      | inf => exact .inr (.inr ⟨rfl, .inl rfl⟩)
      | nan => exact .inr (.inr ⟨rfl, .inr rfl⟩)
  · cases high with
    | num y => cases hhigh
    | inf => exact .inl rfl
    | nan => exact .inr (.inl rfl)
    | negInf =>
      cases low with
      | num x => cases h
      | inf => cases h
      | negInf => exact .inr (.inr ⟨rfl, .inl rfl⟩)
      | nan => exact .inr (.inr ⟨rfl, .inr rfl⟩)

/-! ## Limits that are kept -/

theorem LevelFits.passes_iff {s : Stock Exact} {j : ℕ} {x : ℝ} (fits : LevelFits s j x)
    (hinitial : s.initial = num s.start) :
    LevelPasses s 0 j x ↔ Attainable (valueAt s.min j) (valueAt s.max j) := by
  have htarget : ∀ e, givenAt s.equals j = some e → |x - s.start - e.toReal| ≤ 0 := fun e he => by
    rw [fits.target e he, add_sub_cancel_left, sub_self, abs_zero]
  have hlow : ¬num (x - s.start) < valueAt s.min j - num 0 ↔ valueAt s.min j ≠ inf := by
    cases hmin : valueAt s.min j with
    | num y =>
      have hy := fits.low (by rw [hmin]; rfl)
      rw [hmin, hinitial, num_add, num_le_num] at hy
      rw [num_sub, num_lt_num, sub_zero]
      exact iff_of_true (by linarith) nofun
    | inf => exact iff_of_false (not_not.mpr rfl) (not_not.mpr rfl)
    | negInf | nan => exact iff_of_true nofun nofun
  have hhigh : ¬valueAt s.max j + num 0 < num (x - s.start) ↔ valueAt s.max j ≠ negInf := by
    cases hmax : valueAt s.max j with
    | num y =>
      have hy := fits.high (by rw [hmax]; rfl)
      rw [hmax, hinitial, num_add, num_le_num] at hy
      rw [num_add, num_lt_num, add_zero]
      exact iff_of_true (by linarith) nofun
    | negInf => exact iff_of_false (not_not.mpr rfl) (not_not.mpr rfl)
    | inf | nan => exact iff_of_true nofun nofun
  rw [Attainable, ← hlow, ← hhigh]
  exact ⟨fun h => ⟨h.low, h.high⟩, fun h => ⟨h.1, h.2, htarget⟩⟩

/-- A flow of the site that respects the limits that are numbers is inside just when the others can be
respected. -/
theorem contains_iff_attainable {s : SiteLimits Exact} {j : ℕ} {x : ℝ}
    (hmin : Scalar.isNaN (valueAt s.min j) = false) (hmax : Scalar.isNaN (valueAt s.max j) = false)
    (hlow : Scalar.isFinite (valueAt s.min j) = true → valueAt s.min j ≤ num x)
    (hhigh : Scalar.isFinite (valueAt s.max j) = true → num x ≤ valueAt s.max j) :
    s.contains j (num x) 0 = true ↔ Attainable (valueAt s.min j) (valueAt s.max j) := by
  rw [SiteLimits.contains, Bool.and_eq_true, Attainable, zero_eq]
  refine and_congr ?_ ?_
  · cases hlimit : valueAt s.min j with
    | num y =>
      have hy := hlow (by rw [hlimit]; rfl)
      rw [hlimit, num_le_num] at hy
      rw [num_sub, sub_zero, num_ge, decide_eq_true_eq]
      exact iff_of_true hy (by rintro ⟨⟩)
    | negInf => exact iff_of_true rfl (by rintro ⟨⟩)
    | inf => exact iff_of_false (by rintro ⟨⟩) (not_not.mpr rfl)
    | nan =>
      rw [hlimit] at hmin
      cases hmin
  · cases hlimit : valueAt s.max j with
    | num y =>
      have hy := hhigh (by rw [hlimit]; rfl)
      rw [hlimit, num_le_num] at hy
      rw [num_add, add_zero, num_le, decide_eq_true_eq]
      exact iff_of_true hy (by rintro ⟨⟩)
    | inf => exact iff_of_true rfl (by rintro ⟨⟩)
    | negInf => exact iff_of_false (by rintro ⟨⟩) (not_not.mpr rfl)
    | nan =>
      rw [hlimit] at hmax
      cases hmax

namespace Handles

/-- The columns of the levels of a device. -/
def levelColumns (h : Handles Exact) (i : ℕ) : List ℕ := (h.devices.getD i .empty).stock.getD []

/-- What the devices on site consume together in a slot. -/
noncomputable def siteFlowOf (h : Handles Exact) (p : Problem Exact) (values : ℕ → Exact) (j : ℕ) : Exact :=
  Scalar.sum (p.siteMembers.map fun i =>
    values ((h.devices.getD i .empty).up.getD j 0) + values ((h.devices.getD i .empty).down.getD j 0))

end Handles

namespace Model.Built
variable {p : Problem Exact} {margin : ℝ} {m : Model Exact} {values : ℕ → Exact}

theorem values_levelColumns (hb : m.Built p (num margin)) (hp : p.Sound)
    (held : DevicesHeld p (num margin) m.handles values) {i : ℕ} {d : Device Exact}
    (hd : p.devices[i]? = some d) (hstock : d.stock.isSome = true) :
    (m.handles.levelColumns i).map values =
      (List.range p.len).map fun j => num (m.handles.level (fun k => (values k).toReal) i j) := by
  have hshape := hb.shape hd
  obtain ⟨levels, hlevels⟩ := Option.isSome_iff_exists.mp (hshape.stock.trans hstock)
  have hlen := hshape.stock_length levels hlevels
  rw [Handles.levelColumns, hlevels, Option.getD_some]
  refine List.ext_getElem (by simp [hlen]) fun j hj hj' => ?_
  rw [List.length_map] at hj
  rw [List.getElem_map, List.getElem_map, List.getElem_range, Handles.level, DeviceColumns.levelAt,
    hlevels, Option.getD_some, List.getD_eq_getElem _ _ hj]
  have hmem := DeviceColumns.mem_owned_of_stock hlevels (List.getElem_mem hj)
  exact (num_toReal (hb.finite_of_held hp held _ (hb.mem_deviceColumns hd hmem))).symm

theorem siteFlowOf_eq (hb : m.Built p (num margin)) (hp : p.Sound)
    (held : DevicesHeld p (num margin) m.handles values) {j : ℕ} (hj : j < p.len) :
    m.handles.siteFlowOf p values j =
      num (p.siteFlow (m.handles.flow fun k => (values k).toReal) j) := by
  rw [Handles.siteFlowOf, Problem.siteFlow, ← sum_map_num]
  congr 1
  refine List.map_congr_left fun i hi => ?_
  obtain ⟨d, hd, -⟩ := Problem.mem_siteMembers.mp hi
  have hshape := hb.shape hd
  have hfinite : ∀ k ∈ (m.handles.devices.getD i .empty).owned.map Prod.fst,
      Scalar.isFinite (values k) = true :=
    fun k hk => hb.finite_of_held hp held k (hb.mem_deviceColumns hd hk)
  rw [Handles.flow, DeviceColumns.flowAt, ← num_add, num_toReal (hfinite _ (hshape.up_mem hj)),
    num_toReal (hfinite _ (hshape.down_mem hj))]

variable (hb : m.Built p (num margin)) (hp : p.Sound)
  (held : DevicesHeld p (num margin) m.handles values) (site : SitesHeld p m.handles values)
include hb hp held site

theorem violations_eq_nil_iff {i : ℕ} {d : Device Exact} {s : Stock Exact}
    (hd : p.devices[i]? = some d) (hs : d.stock = some s) :
    s.violations ((m.handles.levelColumns i).map values) 0 = [] ↔
      ∀ j < p.len, Attainable (valueAt s.min j) (valueAt s.max j) := by
  obtain ⟨held', site'⟩ := hb.held_toReal hp held site
  have hsound := (hp.device_of_get hd).stock s hs
  rw [hb.values_levelColumns hp held hd (by rw [hs]; rfl), zero_eq, violations_eq_nil hsound]
  refine forall₂_congr fun j hj => ?_
  rw [hb.level_eq hp held' hd hs hj]
  exact ((hb.fitsLimits hp held' site').level i d s hd hs j hj).passes_iff hsound.initial_eq

theorem contains_siteFlowOf_iff (hmembers : p.siteMembers ≠ []) {j : ℕ} (hj : j < p.len) :
    p.site.contains j (m.handles.siteFlowOf p values j) 0 = true ↔
      Attainable (valueAt p.site.min j) (valueAt p.site.max j) := by
  obtain ⟨held', site'⟩ := hb.held_toReal hp held site
  obtain ⟨hlow, hhigh⟩ := (hb.fitsLimits hp held' site').site hmembers j hj
  rw [hb.siteFlowOf_eq hp held hj]
  exact contains_iff_attainable (hp.site.min_not_nan j hj) (hp.site.max_not_nan j hj) hlow hhigh

end Model.Built

/-! ## A battery with any limits -/

namespace Problem
variable {p : Problem Exact}

/-- The battery over one hour, with any limits on its level and on the site. -/
noncomputable def bounded (low high siteLow siteHigh : Exact) : Problem Exact where
  grid := oneHour
  devices := [{ battery with stock := some { batteryStock with min := [low], max := [high] } }]
  commitments := []
  site := ⟨[siteLow], [siteHigh]⟩

section
variable {low high siteLow siteHigh : Exact}

theorem bounded_check (h : gt low high = false) (hlow : Scalar.isNaN siteLow = false)
    (hhigh : Scalar.isNaN siteHigh = false) (hsite : gt siteLow siteHigh = false) :
    (bounded low high siteLow siteHigh).check = .ok () := by
  have hstock : Stock.check { batteryStock with min := [low], max := [high] } 1 = .ok () := by
    refine Stock.check_eq_ok.mpr ⟨by simp [Stock.lengths, batteryStock], rfl, fun j hj => ?_⟩
    have hshare : (0 : ℝ) < 2⁻¹ ∧ (2 : ℝ)⁻¹ ≤ 1 := by norm_num
    rw [Nat.lt_one_iff.mp hj]
    simp [Stock.checkSlot, batteryStock, valueAt, givenAt, Stock.isShare, zero_eq, one_eq, h, hshare]
  have hdevice := battery_check hstock false
  have hlimits : (SiteLimits.mk [siteLow] [siteHigh]).check 1 = .ok () := by
    refine SiteLimits.check_eq_ok.mpr ⟨⟨rfl, rfl⟩, fun j hj => ?_⟩
    simp [Nat.lt_one_iff.mp hj, SiteLimits.checkSlot, valueAt, hlow, hhigh, hsite]
  refine check_eq_ok.mpr ⟨one_ne_zero, List.cons_ne_nil _ _, ?_, hlimits, List.forall_mem_nil _⟩
  exact checkDevices_eq_ok.mpr ⟨fun _ _ => List.not_mem_nil, List.nodup_singleton _,
    List.forall_mem_singleton.mpr hdevice⟩

/-- Limits that are numbers leave room to stand still; the battery then is feasible. -/
theorem bounded_feasible (hcheck : (bounded low high siteLow siteHigh).check = .ok ())
    (hlow : Scalar.isFinite low = true → low ≤ num 0)
    (hhigh : Scalar.isFinite high = true → num 0 ≤ high)
    (hsiteLow : Scalar.isFinite siteLow = true → siteLow ≤ num 0)
    (hsiteHigh : Scalar.isFinite siteHigh = true → num 0 ≤ siteHigh) :
    ∃ m, (bounded low high siteLow siteHigh).model (num 1) = .ok m ∧
      m.Built (bounded low high siteLow siteHigh) (num 1) ∧
      ∃ v : ℕ → ℝ, ∀ o, (m.program o).feasible (fun i => num (v i)) = true := by
  have hp := sound_of_check hcheck
  obtain ⟨m, hm, hb⟩ := exists_built hcheck zero_le_one
  have hfits : (bounded low high siteLow siteHigh).FitsLimits fun _ _ => 0 := by
    refine ⟨fun i d hd j hj => ?_, fun i d s hd hs j hj => ?_, fun _ j hj => ?_⟩
    · obtain rfl : j = 0 := Nat.lt_one_iff.mp hj
      obtain rfl := List.mem_singleton.mp (List.mem_of_getElem? hd)
      exact ⟨show (-1 : ℝ) ≤ 0 by norm_num, show (0 : ℝ) ≤ 1 by norm_num⟩
    · obtain rfl : j = 0 := Nat.lt_one_iff.mp hj
      obtain rfl := List.mem_singleton.mp (List.mem_of_getElem? hd)
      obtain rfl := Option.some.inj hs
      have hlevel : Stock.path { batteryStock with min := [low], max := [high] } oneHour.realHours
          (fun _ => 0) 1 = 1 := batteryStock_path_idle _
      have hone (x : Exact) (h : Scalar.isFinite x = true) :
          ∃ y, x = num y ∧ num 1 + x = num (1 + y) := by
        obtain ⟨y, rfl⟩ := (isFinite_iff x).mp h
        exact ⟨y, rfl, num_add 1 y⟩
      refine ⟨fun h => ?_, fun h => ?_, nofun⟩
      · show num 1 + low ≤ num (Stock.path _ oneHour.realHours (fun _ => 0) 1)
        obtain ⟨y, rfl, hy⟩ := hone low h
        have := (num_le_num y 0).mp (hlow rfl)
        rw [hlevel, hy, num_le_num]
        linarith
      · show num (Stock.path _ oneHour.realHours (fun _ => 0) 1) ≤ num 1 + high
        obtain ⟨y, rfl, hy⟩ := hone high h
        have := (num_le_num 0 y).mp (hhigh rfl)
        rw [hlevel, hy, num_le_num]
        linarith
    · obtain rfl : j = 0 := Nat.lt_one_iff.mp hj
      have hsite : siteFlow (bounded low high siteLow siteHigh) (fun _ _ => 0) 0 = 0 := by
        simp [siteFlow]
      rw [hsite]
      exact ⟨hsiteLow, hsiteHigh⟩
  obtain ⟨v, held, site, -⟩ := hb.exists_held_of_fits hp zero_le_one hfits
  obtain ⟨w, -, hfeasible, -⟩ :=
    hb.exists_completion hp oneHour_made.realHours_pos.le zero_le_one held site
  exact ⟨m, hm, hb, w, hfeasible⟩

end

/-! ## Checked problems -/

/-- A checked problem has limits besides numbers that are none, are not numbers, or lie both on one
side. Its program leaves them all out, so feasible values keep the limits of a stock or of a slot of
the site just when none of them is a lower limit of infinity or an upper one of minus infinity. -/
theorem limits_kept_iff (hcheck : p.check = .ok ()) {margin : ℝ} (hmargin : 0 ≤ margin) :
    (∀ d ∈ p.devices, ∀ s, d.stock = some s → ∀ j < p.len,
      LeftOut (valueAt s.min j) (valueAt s.max j)) ∧
    (∀ j < p.len, LeftOut (valueAt p.site.min j) (valueAt p.site.max j) ∧
      valueAt p.site.min j ≠ nan ∧ valueAt p.site.max j ≠ nan) ∧
    ∃ m, p.model (num margin) = .ok m ∧ ∀ o values, (m.program o).feasible values = true →
      (∀ (i : ℕ) (d : Device Exact) (s : Stock Exact), p.devices[i]? = some d → d.stock = some s →
        (s.violations ((m.handles.levelColumns i).map values) 0 = [] ↔
          ∀ j < p.len, Attainable (valueAt s.min j) (valueAt s.max j))) ∧
      (p.siteMembers ≠ [] → ∀ j < p.len,
        (p.site.contains j (m.handles.siteFlowOf p values j) 0 = true ↔
          Attainable (valueAt p.site.min j) (valueAt p.site.max j))) := by
  have hp := sound_of_check hcheck
  obtain ⟨m, hm, hb⟩ := exists_built hcheck hmargin
  refine ⟨fun d hd s hs j hj => ?_, fun j hj => ⟨?_, ?_, ?_⟩, m, hm, fun o values hfeasible => ?_⟩
  · exact leftOut_of_not_gt (((hp.device d hd).stock s hs).slot j hj).min_le_max
  · exact leftOut_of_not_gt (hp.site.min_le_max j hj)
  · intro hnan
    have := hp.site.min_not_nan j hj
    rw [hnan] at this
    cases this
  · intro hnan
    have := hp.site.max_not_nan j hj
    rw [hnan] at this
    cases this
  · obtain ⟨held, site, -⟩ := (hb.feasible_iff o _).mp hfeasible
    exact ⟨fun i d s hd hs => hb.violations_eq_nil_iff hp held site hd hs,
      fun hmembers j hj => hb.contains_siteFlowOf_iff hp held site hmembers hj⟩

/-- The limits of a battery that are numbers, or none, are kept. -/
theorem bounded_limits_kept :
    ∃ m, (bounded (num (-1)) inf negInf (num 1)).model (num 1) = .ok m ∧ ∃ v : ℕ → ℝ,
      (∀ o, (m.program o).feasible (fun i => num (v i)) = true) ∧
      (bounded (num (-1)) inf negInf (num 1)).site.contains 0
        (m.handles.siteFlowOf (bounded (num (-1)) inf negInf (num 1)) (fun i => num (v i)) 0) 0 =
          true := by
  have hcheck : (bounded (num (-1)) inf negInf (num 1)).check = .ok () :=
    bounded_check rfl rfl rfl rfl
  obtain ⟨-, -, m, hm, hkept⟩ := limits_kept_iff hcheck zero_le_one
  obtain ⟨m', hm', -, v, hv⟩ := bounded_feasible hcheck
    (fun _ => (num_le_num (-1) 0).mpr (by norm_num)) nofun nofun
    fun _ => (num_le_num 0 1).mpr zero_le_one
  obtain rfl := Except.ok.inj (hm.symm.trans hm')
  obtain ⟨-, hsite⟩ := hkept ⟨.const 0, 0, []⟩ _ (hv _)
  exact ⟨m, hm, v, hv, (hsite (List.cons_ne_nil 0 []) 0 Nat.one_pos).mpr ⟨nofun, nofun⟩⟩

/-- A stock that must hold infinitely much and a site that must draw infinitely much pass the check,
and feasible values violate both; and a limit that is no number passes. -/
theorem unattainable_accepted :
    ((bounded inf inf negInf (num 1)).check = .ok () ∧
      ∃ m, (bounded inf inf negInf (num 1)).model (num 1) = .ok m ∧ ∃ v : ℕ → ℝ,
        (∀ o, (m.program o).feasible (fun i => num (v i)) = true) ∧
        ∃ d s, (bounded inf inf negInf (num 1)).devices = [d] ∧ d.stock = some s ∧
          s.violations ((m.handles.levelColumns 0).map fun i => num (v i)) 0 ≠ []) ∧
    ((bounded (num (-1)) inf inf inf).check = .ok () ∧
      ∃ m, (bounded (num (-1)) inf inf inf).model (num 1) = .ok m ∧ ∃ v : ℕ → ℝ,
        (∀ o, (m.program o).feasible (fun i => num (v i)) = true) ∧
        (bounded (num (-1)) inf inf inf).siteMembers = [0] ∧
        (bounded (num (-1)) inf inf inf).site.contains 0
          (m.handles.siteFlowOf (bounded (num (-1)) inf inf inf) (fun i => num (v i)) 0) 0 = false) ∧
    (bounded nan inf negInf (num 1)).check = .ok () := by
  refine ⟨?_, ?_, bounded_check rfl rfl rfl rfl⟩
  · have hcheck : (bounded inf inf negInf (num 1)).check = .ok () := bounded_check rfl rfl rfl rfl
    obtain ⟨m, hm, hb, v, hv⟩ := bounded_feasible hcheck nofun nofun nofun
      fun _ => (num_le_num 0 1).mpr zero_le_one
    obtain ⟨held, site, -⟩ := (hb.feasible_iff ⟨.const 0, 0, []⟩ _).mp (hv _)
    refine ⟨hcheck, m, hm, v, hv, _, _, rfl, rfl, fun hnil => ?_⟩
    have hall := (hb.violations_eq_nil_iff (sound_of_check hcheck) held site (i := 0) rfl rfl).mp hnil
    exact (hall 0 Nat.one_pos).1 rfl
  · have hcheck : (bounded (num (-1)) inf inf inf).check = .ok () := bounded_check rfl rfl rfl rfl
    obtain ⟨m, hm, hb, v, hv⟩ := bounded_feasible hcheck
      (fun _ => (num_le_num (-1) 0).mpr (by norm_num)) nofun nofun nofun
    obtain ⟨held, site, -⟩ := (hb.feasible_iff ⟨.const 0, 0, []⟩ _).mp (hv _)
    refine ⟨hcheck, m, hm, v, hv, rfl, Bool.eq_false_iff.mpr fun hinside => ?_⟩
    have hall := (hb.contains_siteFlowOf_iff (sound_of_check hcheck) held site
      (List.cons_ne_nil 0 []) (j := 0) Nat.one_pos).mp hinside
    exact hall.1 rfl

end Problem

end Dispatch
