import Dispatch.Proofs.Series.Overlay
import Dispatch.Proofs.Request.Assembly
import Dispatch.Proofs.Request.LeastBill

/-! # The hard limits of a translated problem

* `StorageReading.band_iff`, `StorageReading.keeps_iff`, `StorageModel.States.balance_iff`: the power
  band, the bounds of the stock and its replay allow what the reading of the storage allows.
* `SiteContext.States.limits_at`: the limits of the site after all capacities have tightened them.
* `Problem.Leads`: levels that the flows of every storage lead to.
* `Request.hard_limits_exact`: flows and levels meet the limits of the problem just when they are what
  the request allows.

Each limit is compared slot by slot. A capacity that is no number drops out of a comparison on either
side alike, so no limit needs to be finite.
-/

namespace Dispatch
set_option autoImplicit false

open Exact Scalar

/-! ## Storages -/

theorem toReal_getD (xs : List (Option Exact)) (d : Exact) {j : ℕ} (h : j < xs.length) :
    (valueAt (xs.map fun v : Option Exact => v.getD d) j).toReal = realOr xs d.toReal j := by
  rw [valueAt, List.getD_eq_getElem _ _ (by rwa [List.length_map]), List.getElem_map, realOr, givenAt,
    List.getD_eq_getElem _ _ h]
  cases xs[j] with
  | none => rfl
  | some v => rfl

namespace StorageReading
variable {x : StorageReading} {g : Grid} {name : String} {sooner : Bool}

theorem valueAt_limit (o : Option (List Exact)) {j : ℕ} (hj : j < g.len) :
    valueAt (o.getD (allZero g)) j = o.elim 0 fun c => valueAt c j := by
  cases o with
  | none => exact valueAt_replicate hj 0
  | some c => rfl

/-- In a slot that is free the band is that of the capacities, in the others it is zero. -/
theorem band_iff (h : (x.device g name sooner).Sound g.len) {j : ℕ} (hj : j < g.len) (flow : ℝ) :
    (valueAt (x.device g name sooner).powerMin j ≤ num flow ∧
        num flow ≤ valueAt (x.device g name sooner).powerMax j) ↔ x.AllowsFlow j flow := by
  have hmin : j < (x.device g name sooner).powerMin.length := h.powerMin_length.symm ▸ hj
  have hmax : j < (x.device g name sooner).powerMax.length := h.powerMax_length.symm ▸ hj
  have hfeed : j < ((x.production.or x.power).getD (allZero g)).length := by
    have hzip := hmin
    rw [device, Device.flexible, unlessRestricted, List.length_zipWith, List.length_map,
      lt_min_iff] at hzip
    exact hzip.1
  have hlow : valueAt (x.device g name sooner).powerMin j =
      if x.restricted.getD j false then 0 else -x.feedLimit j := by
    refine (valueAt_zipWith hmin false).trans ?_
    rw [valueAt_map hfeed, valueAt_limit _ hj]
    rfl
  have hhigh : valueAt (x.device g name sooner).powerMax j =
      if x.restricted.getD j false then 0 else x.drawLimit j := by
    refine (valueAt_zipWith hmax false).trans ?_
    rw [valueAt_limit _ hj]
    rfl
  rw [hlow, hhigh, AllowsFlow]
  by_cases hrestricted : x.restricted.getD j false = true
  · rw [if_pos hrestricted, if_pos hrestricted, if_pos hrestricted, zero_eq, num_le_num, num_le_num,
      ← le_antisymm_iff, eq_comm]
  · rw [if_neg hrestricted, if_neg hrestricted, if_neg hrestricted]

/-! ### Levels -/

section
variable (h : (x.stock g).Sound g.len)
include h

theorem min_eq {j : ℕ} (hj : j < g.len) : valueAt (x.stock g).min j = x.floorAt j - x.start := by
  have hlength : j < ((x.lowestLevels g).map (· - x.start)).length := h.min_length.symm ▸ hj
  rw [List.length_map] at hlength
  rw [stock, valueAt_map hlength]
  congr 1
  rw [lowestLevels] at hlength ⊢
  rw [floorAt]
  by_cases hpriced : x.minimaPriced = true
  · simp only [if_pos hpriced]
    exact valueAt_replicate hj _
  · simp only [if_neg hpriced] at hlength ⊢
    refine (valueAt_zipWith hlength none).trans ?_
    rw [valueAt_replicate hj]
    rfl

theorem max_eq {j : ℕ} (hj : j < g.len) : valueAt (x.stock g).max j = x.ceilingAt j - x.start := by
  have hlength : j < ((x.highestLevels g).map (· - x.start)).length := h.max_length.symm ▸ hj
  rw [List.length_map] at hlength
  rw [stock, valueAt_map hlength]
  congr 1
  rw [highestLevels] at hlength ⊢
  rw [ceilingAt]
  by_cases hpriced : x.maximaPriced = true
  · simp only [if_pos hpriced]
    exact valueAt_replicate hj _
  · simp only [if_neg hpriced] at hlength ⊢
    refine (valueAt_zipWith hlength none).trans ?_
    rw [valueAt_replicate hj]
    rfl

/-- Bounds relative to the initial level are bounds of the level itself. -/
theorem keeps_iff {j : ℕ} (hj : j < g.len) (level : ℝ) :
    (x.stock g).Keeps j (num level) ↔ x.AllowsLevel j level := by
  have hstart : x.start = num (x.stock g).start := h.initial_eq
  have hshift (y : Exact) : (x.stock g).initial + (y - x.start) = y := by
    show x.start + (y - x.start) = y
    rw [hstart, num_add_sub_cancel]
  have htargets : givenAt (x.stock g).equals j = (givenAt x.targets j).map (· - x.start) := by
    show (x.targets.map fun t => t.map (· - x.start)).getD j none = _
    rw [← Option.map_none (f := fun y => y - x.start), List.getD_map]
    rfl
  constructor
  · rintro ⟨hlow, hhigh, htarget⟩
    rw [min_eq h hj, hshift] at hlow
    rw [max_eq h hj, hshift] at hhigh
    refine ⟨hlow, hhigh, fun e he => ?_⟩
    have hkept := htarget (e - x.start) (by rw [htargets, he, Option.map_some])
    rwa [hshift] at hkept
  · rintro ⟨hlow, hhigh, htarget⟩
    refine ⟨?_, ?_, fun e he => ?_⟩
    · rwa [min_eq h hj, hshift]
    · rwa [max_eq h hj, hshift]
    · rw [htargets] at he
      obtain ⟨t, ht, rfl⟩ := Option.map_eq_some_iff.mp he
      rw [hshift]
      exact htarget t ht

end

end StorageReading

theorem statedValues_length {g : Grid} {s : Option (Series Exact)} {field : String}
    {expected : Dimension} {vs : List (Option Exact)} (h : statedValues g s field expected = .ok vs) :
    vs.length = g.len := by
  cases s with
  | none => rw [← Except.ok.inj h, List.length_replicate]
  | some s => exact Series.flowValues_length h

theorem toReal_oneWayShare (x : StorageReading) : (oneWayShare x.roundtrip).toReal = x.oneWay := by
  unfold oneWayShare StorageReading.oneWay
  cases x.roundtrip with
  | none => rfl
  | some r => exact toReal_sqrt r

namespace StorageModel.States
variable {m : StorageModel Exact} {g : Grid} {name : String} {x : StorageReading}
  (hx : m.States g name x)
include hx

/-! ### Balance of a slot -/

theorem upShare_eq {j : ℕ} (hj : j < g.len) :
    (x.stock g).upShare j = realOr x.charging x.oneWay j := by
  have hlength : j < x.charging.length := (statedValues_length hx.charging).symm ▸ hj
  rw [← toReal_oneWayShare, ← toReal_getD _ _ hlength]
  rfl

theorem downShare_eq {j : ℕ} (hj : j < g.len) :
    (x.stock g).downShare j = realOr x.discharging x.oneWay j := by
  have hlength : j < x.discharging.length := (statedValues_length hx.discharging).symm ▸ hj
  rw [← toReal_oneWayShare, ← toReal_getD _ _ hlength]
  rfl

variable (h : (x.stock g).Sound g.len)
include h

theorem kept_eq (hhours : 0 < g.realHours) {j : ℕ} (hj : j < g.len) :
    valueAt (x.stock g).retention j = num (realOr x.hourly 1 j ^ g.realHours) := by
  have hlength : j < x.hourly.length := (statedValues_length hx.hourly).symm ▸ hj
  have hpow : Scalar.pow (valueAt (x.hourly.map fun v : Option Exact => v.getD 1) j)
      (num g.realHours) = num ((x.stock g).kept j) := by
    rw [← (h.slot j hj).retention_eq, StorageReading.stock, valueAt_map (by rwa [List.length_map]), g.hours_eq]
  rw [(h.slot j hj).retention_eq, real_of_pow hhours hpow, toReal_getD x.hourly 1 hlength]
  rfl

theorem drift_eq {j : ℕ} (hj : j < g.len) :
    (x.stock g).drift j = (realOr x.gain 0 j - realOr x.usage 0 j) * g.realHours := by
  have hgain : j < x.gain.length := (statedValues_length hx.gain).symm ▸ hj
  have husage : j < x.usage.length := (statedValues_length hx.usage).symm ▸ hj
  have hdelta : valueAt (x.stock g).delta j =
      (valueAt (x.gain.map fun v : Option Exact => v.getD 0) j -
        valueAt (x.usage.map fun v : Option Exact => v.getD 0) j) * num g.realHours := by
    rw [← g.hours_eq]
    refine (valueAt_zipWith ?_ 0).trans rfl
    rw [List.length_zipWith, List.length_map, List.length_map, lt_min_iff]
    exact ⟨hgain, husage⟩
  have hfinite : Scalar.isFinite (valueAt (x.stock g).delta j) = true := by
    rw [(h.slot j hj).delta_eq, num_isFinite]
  rw [hdelta] at hfinite
  rw [Stock.drift, hdelta, toReal_mul_num, toReal_sub_of_finite (isFinite_of_mul_num hfinite),
    toReal_getD x.gain 0 hgain, toReal_getD x.usage 0 husage]
  rfl

/-- A slot of the stock leads from level to level as the reading says. -/
theorem step_eq (hhours : 0 < g.realHours) {j : ℕ} (hj : j < g.len) (level flow : ℝ) :
    (x.stock g).step g.realHours j level (upHalf flow) (downHalf flow) = x.next g j level flow := by
  have hcoefficients : (x.stock g).coefficients j =
      x.mode.coefficients (num (realOr x.hourly 1 j ^ g.realHours)) := by
    rw [Stock.coefficients, hx.kept_eq h hhours hj]
    rfl
  rw [Stock.step, Stock.carry, Stock.intake, hcoefficients, Stock.realChange, hx.upShare_eq hj,
    hx.downShare_eq hj, hx.drift_eq h hj, upHalf, downHalf]
  simp only [StorageReading.next]
  ring

/-- Levels are where the flows lead just when every slot leads from the level before to the level
after. The inductions are on the slot. -/
theorem balance_iff (hhours : 0 < g.realHours) (flow level : ℕ → ℝ) :
    (∀ j < g.len, level j = (x.stock g).path g.realHours flow (j + 1)) ↔
      ∀ j < g.len, level j = x.next g j (x.before level j) (flow j) := by
  have hnext : ∀ j < g.len, (x.stock g).path g.realHours flow (j + 1) =
      x.next g j ((x.stock g).path g.realHours flow j) (flow j) := fun j hj =>
    hx.step_eq h hhours hj _ _
  have hbefore : ∀ j ≤ g.len, (∀ k < j, level k = (x.stock g).path g.realHours flow (k + 1)) →
      x.before level j = (x.stock g).path g.realHours flow j := by
    intro j hj hk
    cases j with
    | zero => rfl
    | succ j => exact hk j (Nat.lt_succ_self j)
  constructor
  · intro hlevel j hj
    rw [hbefore j hj.le fun k hk => hlevel k (hk.trans hj), ← hnext j hj]
    exact hlevel j hj
  · intro hlevel j
    induction j using Nat.strong_induction_on with
    | _ j ih =>
      intro hj
      rw [hlevel j hj, hbefore j hj.le fun k hk => ih k hk (hk.trans hj), hnext j hj]

end StorageModel.States

/-! ## Devices -/

/-- Levels that the flows of a device lead to; any, for a device without a stock. -/
def Device.Leads (d : Device Exact) (g : Grid) (flow level : ℕ → ℝ) : Prop :=
  ∀ s, d.stock = some s → ∀ j < g.len,
    num (level j) = valueAt (s.replay (g.slots.map fun j => num (flow j)) g.hours) j

/-- The power band and the bounds of the stock at the replayed levels. -/
structure Device.Respects (d : Device Exact) (g : Grid) (flow : ℕ → ℝ) : Prop where
  band : ∀ j < g.len, valueAt d.powerMin j ≤ num (flow j) ∧ num (flow j) ≤ valueAt d.powerMax j
  stock : ∀ s, d.stock = some s → ∀ j < g.len,
    s.Keeps j (valueAt (s.replay (g.slots.map fun j => num (flow j)) g.hours) j)

theorem StorageModel.States.allows_iff {m : StorageModel Exact} {g : Grid} {name name' : String}
    {x : StorageReading} {sooner : Bool} (hx : m.States g name x)
    (h : (x.device g name' sooner).Sound g.len) (hhours : 0 < g.realHours) (flow level : ℕ → ℝ) :
    ((x.device g name' sooner).Respects g flow ∧ (x.device g name' sooner).Leads g flow level) ↔
      x.Allows g flow level := by
  have hs : (x.stock g).Sound g.len := h.stock _ rfl
  have hreplay : ∀ j < g.len,
      valueAt ((x.stock g).replay (g.slots.map fun j => num (flow j)) g.hours) j =
        num ((x.stock g).path g.realHours flow (j + 1)) := fun j hj => by
    rw [g.hours_eq]
    exact Stock.valueAt_replay hs g.realHours flow hj
  have hleads : (x.device g name' sooner).Leads g flow level ↔
      ∀ j < g.len, level j = (x.stock g).path g.realHours flow (j + 1) := by
    constructor
    · intro hl j hj
      exact (num_inj _ _).mp ((hl _ rfl j hj).trans (hreplay j hj))
    · rintro hl _ ⟨⟩ j hj
      rw [hreplay j hj, hl j hj]
  constructor
  · rintro ⟨hrespects, hl⟩
    have hpath := hleads.mp hl
    refine ⟨fun j hj => (x.band_iff h hj _).mp (hrespects.band j hj),
      (hx.balance_iff hs hhours flow level).mp hpath, fun j hj => ?_⟩
    have hkeeps := hrespects.stock _ rfl j hj
    rw [hreplay j hj, ← hpath j hj] at hkeeps
    exact (x.keeps_iff hs hj _).mp hkeeps
  · rintro ⟨hband, hbalance, hrange⟩
    have hpath := (hx.balance_iff hs hhours flow level).mpr hbalance
    refine ⟨⟨fun j hj => (x.band_iff h hj _).mpr (hband j hj), ?_⟩, hleads.mpr hpath⟩
    rintro _ ⟨⟩ j hj
    rw [hreplay j hj, ← hpath j hj]
    exact (x.keeps_iff hs hj _).mpr (hrange j hj)

theorem Device.fixed_iff {name : String} {power : List Exact} {g : Grid} (flow level : ℕ → ℝ) :
    ((Device.fixed name power).Respects g flow ∧ (Device.fixed name power).Leads g flow level) ↔
      ∀ j < g.len, num (flow j) = valueAt power j := by
  constructor
  · rintro ⟨hrespects, -⟩ j hj
    exact (pinned_iff _ _).mp (hrespects.band j hj)
  · intro hfollows
    refine ⟨⟨fun j hj => (pinned_iff _ _).mpr (hfollows j hj), ?_⟩, ?_⟩
    · rintro s ⟨⟩
    · rintro s ⟨⟩

theorem DeviceReading.Becomes.allows_iff {y : DeviceReading} {g : Grid} {e : Device Exact}
    (h : y.Becomes g e) (he : e.Sound g.len) (hhours : 0 < g.realHours) (flow level : ℕ → ℝ) :
    (e.Respects g flow ∧ e.Leads g flow level) ↔ y.Allows g flow level := by
  cases y with
  | storage x =>
    obtain ⟨m, name, sooner, hx, rfl⟩ := h
    exact hx.allows_iff he hhours flow level
  | follows power =>
    obtain ⟨name, rfl⟩ := h
    exact Device.fixed_iff flow level

/-! ## The site -/

/-- Limits of `n` slots with the given numbers in slot `j`. -/
structure SiteLimits.At (s : SiteLimits Exact) (n j : ℕ) (low high : Exact) : Prop where
  min_length : s.min.length = n
  max_length : s.max.length = n
  min_eq : valueAt s.min j = low
  max_eq : valueAt s.max j = high
  low_number : Scalar.isNaN low = false
  high_number : Scalar.isNaN high = false

namespace SiteLimits
variable {n j : ℕ}

theorem at_unbounded (hj : j < n) : (unbounded n : SiteLimits Exact).At n j negInf inf :=
  ⟨List.length_replicate, List.length_replicate, valueAt_replicate hj _, valueAt_replicate hj _, rfl,
    rfl⟩

theorem merge_eq_zipWith {f : Exact → Exact → Exact} {xs ys : List Exact}
    (h : xs.length = ys.length) : merge f xs ys = List.zipWith f xs ys := by
  induction xs generalizing ys with
  | nil => simp [merge]
  | cons x xs ih =>
    cases ys with
    | nil => cases h
    | cons y ys => rw [merge, List.zipWith_cons_cons, ih (Nat.succ.inj h)]

variable {s : SiteLimits Exact} {low high : Exact} (h : s.At n j low high) (hj : j < n)
include h hj

theorem At.tighten {min max : List Exact} (hmin : min.length = n) (hmax : max.length = n) :
    (s.tighten min max).At n j (maxNum low (valueAt min j)) (minNum high (valueAt max j)) := by
  have hlow : (List.zipWith maxNum s.min min).length = n := by
    rw [List.length_zipWith, h.min_length, hmin, min_self]
  have hhigh : (List.zipWith minNum s.max max).length = n := by
    rw [List.length_zipWith, h.max_length, hmax, min_self]
  rw [SiteLimits.tighten, merge_eq_zipWith (h.min_length.trans hmin.symm),
    merge_eq_zipWith (h.max_length.trans hmax.symm)]
  refine ⟨hlow, hhigh, ?_, ?_, isNaN_maxNum _ h.low_number, isNaN_minNum _ h.high_number⟩
  · rw [← h.min_eq]
    exact valueAt_zipWith (hlow.symm ▸ hj) 0
  · rw [← h.max_eq]
    exact valueAt_zipWith (hhigh.symm ▸ hj) 0

theorem At.tighten_high {max : List Exact} (hmax : max.length = n) :
    (s.tighten (List.replicate n negInf) max).At n j low (minNum high (valueAt max j)) := by
  have htightened := h.tighten hj (List.length_replicate (n := n) (a := negInf)) hmax
  rwa [valueAt_replicate hj, maxNum_negInf h.low_number] at htightened

theorem At.tighten_low {min : List Exact} (hmin : min.length = n) :
    (s.tighten min (List.replicate n inf)).At n j (maxNum low (valueAt min j)) high := by
  have htightened := h.tighten hj hmin (List.length_replicate (n := n) (a := inf))
  rwa [valueAt_replicate hj, minNum_inf h.high_number] at htightened

end SiteLimits

theorem length_of_optionalSeries {g : Grid} {s : Option (Series Exact)} {field : String}
    {expected : Dimension} {vs : List Exact} (h : optionalSeries g s field expected = .ok (some vs)) :
    vs.length = g.len := by
  cases s with
  | none => cases h
  | some s =>
    obtain ⟨ws, hws, h⟩ := Checked.bind_eq_ok.mp h
    obtain rfl : ws = vs := Option.some.inj (Checked.pure_eq_ok.mp h)
    exact Series.required_length hws

namespace SiteReading
variable (x : SiteReading)

theorem lower_eq (j : ℕ) :
    let low := x.power.elim negInf fun c => maxNum negInf (-Scalar.abs (valueAt c j))
    x.lower j = if x.productionPriced then low else
      x.production.elim low fun c => maxNum low (-valueAt c j) := by
  unfold lower
  cases x.power <;> cases x.productionPriced <;> cases x.production <;> rfl

theorem upper_eq (j : ℕ) :
    let high := x.power.elim inf fun c => minNum inf (Scalar.abs (valueAt c j))
    x.upper j = if x.consumptionPriced then high else
      x.consumption.elim high fun c => minNum high (valueAt c j) := by
  unfold upper
  cases x.power <;> cases x.consumptionPriced <;> cases x.consumption <;> rfl

end SiteReading

/-- The capacities tighten the limits one after the other. -/
theorem SiteContext.States.limits_at {c : SiteContext Exact} {g : Grid} {x : SiteReading}
    (hx : c.States g x) {j : ℕ} (hj : j < g.len) :
    (x.limits g).At g.len j (x.lower j) (x.upper j) := by
  have hpower : (x.power.elim (SiteLimits.unbounded g.len) fun cap =>
      (SiteLimits.unbounded g.len).tighten (cap.map fun c => -Scalar.abs c) (cap.map Scalar.abs)).At
        g.len j (x.power.elim negInf fun c => maxNum negInf (-Scalar.abs (valueAt c j)))
        (x.power.elim inf fun c => minNum inf (Scalar.abs (valueAt c j))) := by
    cases hcap : x.power with
    | none => exact SiteLimits.at_unbounded hj
    | some cap =>
      have hlen := length_of_optionalSeries (hcap ▸ hx.power)
      have hmin : (cap.map fun c => -Scalar.abs c).length = g.len := (List.length_map _).trans hlen
      have hmax : (cap.map Scalar.abs).length = g.len := (List.length_map _).trans hlen
      have htightened := (SiteLimits.at_unbounded hj).tighten hj hmin hmax
      rwa [valueAt_map (hlen.symm ▸ hj), valueAt_map (hlen.symm ▸ hj)] at htightened
  rw [SiteReading.lower_eq, SiteReading.upper_eq, SiteReading.limits]
  generalize (x.power.elim (SiteLimits.unbounded g.len : SiteLimits Exact) fun cap => _) = limits
    at hpower ⊢
  generalize (x.power.elim negInf fun c => _) = low at hpower ⊢
  generalize (x.power.elim inf fun c => _) = high at hpower ⊢
  have hconsumption : (if x.consumptionPriced then limits else x.consumption.elim limits fun cap =>
      limits.tighten (List.replicate g.len negInf) cap).At g.len j low
        (if x.consumptionPriced then high else x.consumption.elim high fun c =>
          minNum high (valueAt c j)) := by
    by_cases hpriced : x.consumptionPriced = true
    · rwa [if_pos hpriced, if_pos hpriced]
    · rw [if_neg hpriced, if_neg hpriced]
      cases hcap : x.consumption with
      | none => exact hpower
      | some cap => exact hpower.tighten_high hj (length_of_optionalSeries (hcap ▸ hx.consumption))
  by_cases hpriced : x.productionPriced = true
  · rwa [if_pos hpriced, if_pos hpriced]
  · rw [if_neg hpriced, if_neg hpriced]
    cases hcap : x.production with
    | none => exact hconsumption
    | some cap =>
      have hlen := length_of_optionalSeries (hcap ▸ hx.production)
      have hmin : (cap.map fun c => -c).length = g.len := (List.length_map _).trans hlen
      have htightened := hconsumption.tighten_low hj hmin
      rwa [valueAt_map (hlen.symm ▸ hj)] at htightened

theorem Problem.siteMembers_of_onSite {p : Problem Exact} (h : ∀ d ∈ p.devices, d.onSite = true) :
    p.siteMembers = List.range p.devices.length := by
  have hall : (p.devices.zipIdx.filter fun x => x.1.onSite) = p.devices.zipIdx :=
    List.filter_eq_self.mpr fun x hx => h x.1 (List.fst_mem_of_mem_zipIdx hx)
  rw [Problem.siteMembers, hall, List.zipIdx_map_snd, List.range_eq_range']

/-! ## Requests -/

/-- Levels that the flows of the devices lead to. -/
def Problem.Leads (p : Problem Exact) (flow level : ℕ → ℕ → ℝ) : Prop :=
  ∀ (i : ℕ) (e : Device Exact), p.devices[i]? = some e → e.Leads p.grid (flow i) (level i)

/-- All devices of a request are behind its site. -/
theorem Request.Assembled.siteMembers_eq {r : Request Exact} {sooner : Bool} {p : Problem Exact}
    {x : RequestReading} (h : r.Assembled sooner p x) :
    p.siteMembers = List.range p.devices.length := by
  have hforall := h.forall₂_devices
  refine Problem.siteMembers_of_onSite fun e he => ?_
  obtain ⟨i, hi, rfl⟩ := List.getElem_of_mem he
  exact ((List.forall₂_iff_get.mp hforall).2 i (hforall.length_eq.symm ▸ hi) hi).onSite

theorem Request.Assembled.admits_iff {r : Request Exact} {sooner : Bool} {p : Problem Exact}
    {x : RequestReading} (h : r.Assembled sooner p x) (flow level : ℕ → ℕ → ℝ) :
    (p.Admits flow ∧ p.Leads flow level) ↔ x.Allows p.grid flow level := by
  have hp := Problem.sound_of_check h.check
  have hhours := (Request.made_of_grid h.states.grid).realHours_pos
  have hforall := h.forall₂_devices
  have hlength := hforall.length_eq
  have hmembers : p.siteMembers = List.range x.devices.length := by
    rw [hlength, h.siteMembers_eq]
  have hsome : p.siteMembers ≠ [] := by
    rw [hmembers, hlength]
    simpa using hp.devices_ne
  have hflow : ∀ j, p.siteFlow flow j = ((List.range x.devices.length).map fun i => flow i j).sum := by
    intro j
    rw [Problem.siteFlow, hmembers]
  have hdevice : ∀ i (hi : i < p.devices.length),
      (p.devices[i].Respects p.grid (flow i) ∧ p.devices[i].Leads p.grid (flow i) (level i)) ↔
        x.devices[i].Allows p.grid (flow i) (level i) := fun i hi =>
    ((List.forall₂_iff_get.mp hforall).2 i (hlength.symm ▸ hi) hi).allows_iff
      (hp.device _ (List.getElem_mem hi)) hhours (flow i) (level i)
  have hsite : ∀ j < p.len, (valueAt p.site.min j ≤ num (p.siteFlow flow j) ∧
      num (p.siteFlow flow j) ≤ valueAt p.site.max j) ↔
        x.site.AllowsFlow j ((List.range x.devices.length).map fun i => flow i j).sum := by
    intro j hj
    have hlimits := h.states.site.limits_at hj
    rw [h.site, hlimits.min_eq, hlimits.max_eq, hflow]
    rfl
  constructor
  · rintro ⟨hadmits, hleads⟩
    refine ⟨fun i y hy => ?_, fun j hj => (hsite j hj).mp (hadmits.site hsome j hj)⟩
    obtain ⟨hi, rfl⟩ := List.getElem?_eq_some_iff.mp hy
    have hget := List.getElem?_eq_getElem (hlength ▸ hi)
    exact (hdevice i (hlength ▸ hi)).mp ⟨⟨hadmits.band i _ hget, fun s hs =>
      hadmits.stock i _ s hget hs⟩, hleads i _ hget⟩
  · rintro ⟨hdevices, hsites⟩
    have hrespects : ∀ (i : ℕ) (e : Device Exact), p.devices[i]? = some e →
        e.Respects p.grid (flow i) ∧ e.Leads p.grid (flow i) (level i) := by
      intro i e he
      obtain ⟨hi, rfl⟩ := List.getElem?_eq_some_iff.mp he
      exact (hdevice i hi).mpr (hdevices i _ (List.getElem?_eq_getElem (hlength.symm ▸ hi)))
    exact ⟨⟨fun i e he => (hrespects i e he).1.band, fun i e s he hs =>
      (hrespects i e he).1.stock s hs, fun _ j hj => (hsite j hj).mpr (hsites j hj)⟩,
      fun i e he => (hrespects i e he).2⟩

/-- Flows and absolute levels meet the limits of the translated problem just when they are what the
request allows: of every storage, of every process and device that cannot be planned, and of the
site. -/
theorem Request.hard_limits_exact {r : Request Exact} {sooner : Bool} {p : Problem Exact}
    (h : (r.toProblem sooner).1 = .ok p) :
    ∃ x, (∀ x', r.States p.grid x' ↔ x' = x) ∧
      p.devices.map Device.id =
        r.devices.map DeviceRequest.name ++ r.context.fixedDevices.map FixedDevice.name ∧
      ∀ flow level, (p.Admits flow ∧ p.Leads flow level) ↔ x.Allows p.grid flow level := by
  obtain ⟨x, hx⟩ := assembled h
  exact ⟨x, fun x' => ⟨fun hx' => hx'.unique hx.states, fun heq => heq ▸ hx.states⟩, hx.ids,
    hx.admits_iff⟩

theorem limitedBattery_leads_idle {low : ℝ} {sooner : Bool} {cs : List (Commitment Exact)}
    (hcheck : Problem.check ⟨Problem.oneHour, [Problem.limitedBattery low none sooner], cs,
      ⟨[negInf], [num 1]⟩⟩ = .ok ()) :
    Problem.Leads ⟨Problem.oneHour, [Problem.limitedBattery low none sooner], cs,
      ⟨[negInf], [num 1]⟩⟩ (fun _ _ => 0) fun _ _ => 1 := by
  intro i e he s hs j hj
  obtain rfl : j = 0 := Nat.lt_one_iff.mp hj
  have hreplay := (Problem.sound_of_check hcheck).valueAt_replay he hs (fun _ => 0) hj
  obtain rfl := List.mem_singleton.mp (List.mem_of_getElem? he)
  obtain rfl := Option.some.inj hs
  rw [Problem.limitedStock_path_idle] at hreplay
  exact hreplay.symm

/-- An idle battery keeps its level. -/
theorem oneStorage_idle_allowed :
    ∃ p x, (oneStorage.toProblem false).1 = .ok p ∧ oneStorage.States p.grid x ∧
      x.Allows p.grid (fun _ _ => 0) fun _ _ => 1 := by
  obtain ⟨x, hx, -, hiff⟩ := Request.hard_limits_exact oneStorage_toProblem
  have hidle : pricedBattery.Admits fun _ _ => 0 :=
    Problem.limitedBattery_admits_idle pricedBattery_check (by norm_num)
  have hleads : pricedBattery.Leads (fun _ _ => 0) fun _ _ => 1 :=
    limitedBattery_leads_idle pricedBattery_check
  exact ⟨pricedBattery, x, oneStorage_toProblem, (hx x).mpr rfl, (hiff _ _).mp ⟨hidle, hleads⟩⟩

end Dispatch
