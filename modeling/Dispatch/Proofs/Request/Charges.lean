import Dispatch.Proofs.Request.Bill

/-! # What the commitments of a request charge

Each tariff, breach price and stored energy of a request becomes one commitment or two. Their costs
are the lines of the bill:

* `cost_tariffs`: energy bought and sold.
* `cost_breach_up`, `cost_breach_down`, `cost_peak_up`, `cost_peak_down`: capacities and peaks.
* `cost_storedEnergy`, `cost_levels_up`, `cost_levels_down`: the levels of a storage.
-/

namespace Dispatch
set_option autoImplicit false

open Exact Scalar

/-! ## Values of a slot -/

theorem toReal_infinityOf (x : ℝ) : (infinityOf x).toReal = 0 := by
  rw [infinityOf]
  split_ifs <;> rfl

theorem toReal_mul_num (a : Exact) (y : ℝ) : (a * num y).toReal = a.toReal * y := by
  cases a with
  | num x => rfl
  | inf => exact (toReal_infinityOf y).trans (zero_mul y).symm
  | negInf => exact (toReal_infinityOf (-y)).trans (zero_mul y).symm
  | nan => exact (zero_mul y).symm

theorem toReal_neg (a : Exact) : (-a).toReal = -a.toReal := by
  cases a with
  | num x => rfl
  | inf | negInf | nan => exact neg_zero.symm

theorem realAt_map {f : Exact → Exact} (h : f 0 = 0) (xs : List Exact) (j : ℕ) :
    realAt (xs.map f) j = (f (valueAt xs j)).toReal := by
  have hget : valueAt (xs.map f) j = f (valueAt xs j) := by
    rw [valueAt, valueAt, ← h, List.getD_map, h]
  rw [realAt, hget]

theorem realAt_scaledBy (g : Grid) (factor : ℝ) (xs : List Exact) (j : ℕ) :
    realAt (scaledBy g (num factor) xs) j = realAt xs j * factor * g.realHours := by
  rw [scaledBy, realAt_map (by rw [g.hours_eq, zero_eq, num_mul, num_mul, zero_mul, zero_mul]),
    g.hours_eq, toReal_mul_num, toReal_mul_num, realAt]

theorem realAt_replicate {n j : ℕ} (h : j < n) (x : Exact) :
    realAt (List.replicate n x) j = x.toReal := by
  rw [realAt, valueAt_replicate h]

theorem realAt_allZero (g : Grid) (j : ℕ) : realAt (allZero g) j = 0 := by
  by_cases h : j < g.len
  · exact realAt_replicate h 0
  · rw [realAt, valueAt, List.getD_eq_default _ _ (by rw [allZero, List.length_replicate]; omega)]
    rfl

theorem givenAt_map_some (xs : List Exact) (f : Exact → Exact) {j : ℕ} (h : j < xs.length) :
    givenAt (xs.map fun x => some (f x)) j = some (f (valueAt xs j)) := by
  rw [givenAt, List.getD_eq_getElem _ _ (by rwa [List.length_map]), List.getElem_map, valueAt,
    List.getD_eq_getElem _ _ h]

/-! ## Totals and worst values -/

theorem total_congr {len : ℕ} {f g : ℕ → ℝ} (h : ∀ j < len, f j = g j) :
    total len f = total len g :=
  congrArg List.sum (List.map_congr_left fun j hj => h j (List.mem_range.mp hj))

theorem worst_congr {len : ℕ} {f g : ℕ → ℝ} (h : ∀ j < len, f j = g j) :
    worst len f = worst len g :=
  congrArg peak (List.map_congr_left fun j hj => h j (List.mem_range.mp hj))

theorem total_mul (len : ℕ) (k : ℝ) (f : ℕ → ℝ) : total len (fun j => k * f j) = k * total len f :=
  List.sum_map_mul_left _ _ _

theorem total_zero (len : ℕ) : total len (fun _ => 0) = 0 := by
  simp [total]

theorem total_succ (n : ℕ) (f : ℕ → ℝ) : total (n + 1) f = total n f + f n := by
  simp [total, List.range_succ]

theorem worst_zero (len : ℕ) : worst len (fun _ => 0) = 0 :=
  le_antisymm (peak_le_iff.mpr ⟨le_rfl, fun _ hx => by
    obtain ⟨_, -, rfl⟩ := List.mem_map.mp hx
    exact le_rfl⟩) (peak_nonneg _)

theorem worst_max_zero (len : ℕ) (f : ℕ → ℝ) : worst len (fun j => max (f j) 0) = worst len f := by
  refine le_antisymm (peak_le_iff.mpr ⟨peak_nonneg _, fun x hx => ?_⟩)
    (peak_le_iff.mpr ⟨peak_nonneg _, fun x hx => ?_⟩)
  · obtain ⟨j, hj, rfl⟩ := List.mem_map.mp hx
    exact max_le (le_peak (List.mem_map.mpr ⟨j, hj, rfl⟩)) (peak_nonneg _)
  · obtain ⟨j, hj, rfl⟩ := List.mem_map.mp hx
    exact (le_max_left _ _).trans (le_peak (List.mem_map.mpr ⟨j, hj, rfl⟩))

theorem sum_filter (xs : List ℕ) (q : ℕ → Bool) (f : ℕ → ℝ) :
    ((xs.filter q).map f).sum = (xs.map fun j => if q j then f j else 0).sum := by
  induction xs with
  | nil => rfl
  | cons x xs ih =>
    cases hx : q x with
    | false => simp [hx, ih]
    | true => simp [hx, ih]

theorem peak_filter (xs : List ℕ) (q : ℕ → Bool) (f : ℕ → ℝ) :
    peak ((xs.filter q).map f) = peak (xs.map fun j => if q j then f j else 0) := by
  refine le_antisymm (peak_le_iff.mpr ⟨peak_nonneg _, fun x hx => ?_⟩)
    (peak_le_iff.mpr ⟨peak_nonneg _, fun x hx => ?_⟩)
  · obtain ⟨j, hj, rfl⟩ := List.mem_map.mp hx
    obtain ⟨hj, hq⟩ := List.mem_filter.mp hj
    refine le_peak (List.mem_map.mpr ⟨j, hj, ?_⟩)
    rw [if_pos hq]
  · obtain ⟨j, hj, rfl⟩ := List.mem_map.mp hx
    split_ifs with hq
    · exact le_peak (List.mem_map.mpr ⟨j, List.mem_filter.mpr ⟨hj, hq⟩, rfl⟩)
    · exact peak_nonneg _

/-! ## Costs along the whole horizon -/

namespace Commitment
variable {c : Commitment Exact} {len : ℕ}

def given (c : Commitment Exact) (j : ℕ) : Bool := (givenAt c.quantity j).isSome

theorem activeSlots_eq (hlen : c.quantity.length = len) :
    c.activeSlots = (List.range len).filter c.given := by
  have hzip : c.quantity.zipIdx = (List.range len).map fun j => (givenAt c.quantity j, j) := by
    refine List.ext_getElem (by simp [hlen]) fun j h1 h2 => ?_
    have hj : j < c.quantity.length := by simpa using h1
    simp [givenAt, List.getElem?_eq_getElem hj]
  rw [activeSlots, hzip, List.filter_map, List.map_map]
  exact List.map_id _

theorem costOf_each (hlen : c.quantity.length = len) (hgroup : c.grouping = .each) (x : ℕ → ℝ) :
    c.costOf x = total len fun j => if c.given j then
      c.upRate j * max (x j - c.level j) 0 + c.downRate j * max (c.level j - x j) 0 else 0 := by
  simp only [costOf, hgroup, activeSlots_eq hlen]
  exact sum_filter _ _ _

theorem costOf_any (hlen : c.quantity.length = len) (hgroup : c.grouping = .any) (x : ℕ → ℝ) :
    c.costOf x =
      c.meanRate c.upRate * worst len (fun j => if c.given j then x j - c.level j else 0) +
      c.meanRate c.downRate * worst len fun j => if c.given j then c.level j - x j else 0 := by
  simp only [costOf, hgroup, activeSlots_eq hlen]
  rw [peak_filter, peak_filter]
  rfl

theorem meanRate_const {rate : ℕ → ℝ} {r : ℝ} (hne : c.activeSlots ≠ [])
    (h : ∀ j ∈ c.activeSlots, rate j = r) : c.meanRate rate = r := by
  have hlength : (c.activeSlots.length : ℝ) ≠ 0 := by simpa [List.length_eq_zero_iff] using hne
  rw [meanRate, List.map_congr_left h, List.map_const', List.sum_replicate, nsmul_eq_mul]
  field_simp

section
variable {q : ℕ → ℝ} (hlen : c.quantity.length = len)
  (hfull : ∀ j < len, (givenAt c.quantity j).map toReal = some (q j))
include hfull

theorem given_of_full {j : ℕ} (hj : j < len) : c.given j = true := by
  rw [given, ← Option.isSome_map (f := toReal), hfull j hj, Option.isSome_some]

theorem level_of_full {j : ℕ} (hj : j < len) : c.level j = q j := by
  obtain ⟨e, he, heq⟩ := Option.map_eq_some_iff.mp (hfull j hj)
  rw [level, baseline, he, Option.getD_some, heq]

include hlen

theorem costOf_each_full (hgroup : c.grouping = .each) (x : ℕ → ℝ) :
    c.costOf x = total len fun j =>
      c.upRate j * max (x j - q j) 0 + c.downRate j * max (q j - x j) 0 := by
  rw [costOf_each hlen hgroup]
  refine total_congr fun j hj => ?_
  rw [if_pos (given_of_full hfull hj), level_of_full hfull hj]

theorem costOf_any_full (hgroup : c.grouping = .any) (x : ℕ → ℝ) :
    c.costOf x = total len c.upRate / len * worst len (fun j => x j - q j) +
      total len c.downRate / len * worst len fun j => q j - x j := by
  have hactive : c.activeSlots = List.range len := by
    rw [activeSlots_eq hlen, List.filter_eq_self]
    exact fun j hj => given_of_full hfull (List.mem_range.mp hj)
  have hmean (rate : ℕ → ℝ) : c.meanRate rate = total len rate / len := by
    rw [meanRate, hactive, List.length_range, total]
  rw [costOf_any hlen hgroup, hmean, hmean]
  congr 2
  · refine worst_congr fun j hj => ?_
    rw [if_pos (given_of_full hfull hj), level_of_full hfull hj]
  · refine worst_congr fun j hj => ?_
    rw [if_pos (given_of_full hfull hj), level_of_full hfull hj]

end

end Commitment

/-! ## Charges of the site -/

section
variable {g : Grid}

/-- Energy bought costs its price, energy sold earns it. -/
theorem cost_tariffs (t : Tariffs Exact) (x : ℕ → ℝ) :
    (t.commitment g).costOf x = total g.len fun j => g.realHours *
      (realAt t.consumption j * max (x j) 0 - realAt t.production j * max (-x j) 0) := by
  have hfull : ∀ j < g.len, (givenAt (t.commitment g).quantity j).map toReal = some 0 := by
    intro j hj
    show ((List.replicate g.len (some (0 : Exact))).getD j none).map toReal = some 0
    rw [List.getD_eq_getElem _ _ (by rwa [List.length_replicate]), List.getElem_replicate]
    rfl
  rw [Commitment.costOf_each_full List.length_replicate hfull rfl]
  refine total_congr fun j hj => ?_
  have hup : (t.commitment g).upRate j = realAt t.consumption j * 1 * g.realHours :=
    realAt_scaledBy g 1 t.consumption j
  have hdown : (t.commitment g).downRate j = realAt t.production j * -1 * g.realHours :=
    realAt_scaledBy g (-1) t.production j
  rw [hup, hdown, sub_zero, zero_sub]
  ring

theorem rate_allZero (len : ℕ) : total len (realAt (allZero g)) = 0 :=
  (total_congr fun j _ => realAt_allZero g j).trans (total_zero len)

variable {k : PricedPower}

theorem full_up (hlen : k.level.length = g.len) (j : ℕ) (hj : j < g.len) :
    (givenAt (k.level.map some) j).map toReal = some (realAt k.level j) := by
  rw [show k.level.map some = k.level.map fun y => some (id y) from rfl,
    givenAt_map_some k.level id (hlen ▸ hj)]
  rfl

theorem full_down (hlen : k.level.length = g.len) (j : ℕ) (hj : j < g.len) :
    (givenAt (k.level.map fun y => some (-y)) j).map toReal = some (-realAt k.level j) := by
  rw [givenAt_map_some k.level (fun y => -y) (hlen ▸ hj), Option.map_some, toReal_neg, realAt]

variable (hlen : k.level.length = g.len)
include hlen

theorem cost_any_up (name : String) (x : ℕ → ℝ) :
    (Commitment.siteFlow name (k.level.map some) k.price (allZero g) .any).costOf x =
      k.worstCost g.len x := by
  have hdown : total g.len (Commitment.siteFlow name (k.level.map some) k.price (allZero g)
      .any).downRate = 0 := rate_allZero g.len
  rw [Commitment.costOf_any_full ((List.length_map _).trans hlen) (full_up hlen) rfl, hdown,
    zero_div, zero_mul, add_zero]
  rfl

theorem cost_any_down (name : String) (x : ℕ → ℝ) :
    (Commitment.siteFlow name (k.level.map fun y => some (-y)) (allZero g) k.price .any).costOf x =
      k.worstCost g.len fun j => -x j := by
  have hup : total g.len (Commitment.siteFlow name (k.level.map fun y => some (-y)) (allZero g)
      k.price .any).upRate = 0 := rate_allZero g.len
  have hworst : worst g.len (fun j => -realAt k.level j - x j) =
      worst g.len fun j => -x j - realAt k.level j := worst_congr fun j _ => by ring
  rw [Commitment.costOf_any_full ((List.length_map _).trans hlen) (full_down hlen) rfl, hup,
    zero_div, zero_mul, zero_add, hworst]
  rfl

theorem cost_each_up (name : String) (x : ℕ → ℝ) :
    (Commitment.siteFlow name (k.level.map some) (scaledBy g 1 k.price) (allZero g) .each).costOf x =
      k.energyCost g.len g.realHours x := by
  rw [Commitment.costOf_each_full ((List.length_map _).trans hlen) (full_up hlen) rfl,
    PricedPower.energyCost, ← total_mul]
  refine total_congr fun j _ => ?_
  rw [Commitment.upRate, Commitment.downRate]
  show realAt (scaledBy g 1 k.price) j * _ + realAt (allZero g) j * _ = _
  rw [one_eq, realAt_scaledBy, realAt_allZero]
  ring

theorem cost_each_down (name : String) (x : ℕ → ℝ) :
    (Commitment.siteFlow name (k.level.map fun y => some (-y)) (allZero g) (scaledBy g 1 k.price)
      .each).costOf x = k.energyCost g.len g.realHours fun j => -x j := by
  rw [Commitment.costOf_each_full ((List.length_map _).trans hlen) (full_down hlen) rfl,
    PricedPower.energyCost, ← total_mul]
  refine total_congr fun j _ => ?_
  rw [Commitment.upRate, Commitment.downRate]
  show realAt (allZero g) j * _ + realAt (scaledBy g 1 k.price) j * _ = _
  rw [one_eq, realAt_scaledBy, realAt_allZero,
    show -realAt k.level j - x j = -x j - realAt k.level j by ring]
  ring

theorem cost_breach_up (kind : String) (x : ℕ → ℝ) :
    ((breachPair g kind (k.level.map some) k.price true).map fun c => c.costOf x).sum =
      k.worstCost g.len x + k.energyCost g.len g.realHours x := by
  simp only [breachPair, if_true, List.map_cons, List.map_nil, List.sum_cons, List.sum_nil, add_zero]
  rw [cost_any_up hlen, cost_each_up hlen]

theorem cost_breach_down (kind : String) (x : ℕ → ℝ) :
    ((breachPair g kind (k.level.map fun y => some (-y)) k.price false).map fun c =>
      c.costOf x).sum =
      k.worstCost g.len (fun j => -x j) + k.energyCost g.len g.realHours fun j => -x j := by
  simp only [breachPair, Bool.false_eq_true, if_false, List.map_cons, List.map_nil, List.sum_cons,
    List.sum_nil, add_zero]
  rw [cost_any_down hlen, cost_each_down hlen]

theorem cost_peak_up (kind : String) (x : ℕ → ℝ) :
    (peakCommitment g kind k.level k.price true).costOf x = k.worstCost g.len x := by
  rw [peakCommitment, if_pos rfl, cost_any_up hlen]

theorem cost_peak_down (kind : String) (x : ℕ → ℝ) :
    (peakCommitment g kind (k.level.map fun y => -y) k.price false).costOf x =
      k.worstCost g.len fun j => -x j := by
  rw [peakCommitment, if_neg Bool.false_ne_true, List.map_map]
  exact cost_any_down hlen (kind ++ " peak") x

end

/-! ## Charges of a storage -/

section
variable {g : Grid}

/-- What is left at the end earns its price. -/
theorem cost_storedEnergy (hlen : 0 < g.len) (device : String) (initial price : Exact) (s : ℕ → ℝ) :
    (storedEnergy g device initial price).costOf s =
      -price.toReal * (s (g.len - 1) - initial.toReal) := by
  -- Only the last slot is committed, from the initial level on.
  obtain ⟨n, hn⟩ : ∃ n, g.len = n + 1 := ⟨g.len - 1, by omega⟩
  have hlast {β : Type} (rest last d : β) : (List.replicate n rest ++ [last]).getD n d = last := by
    simp [List.getD_eq_getElem?_getD]
  set c : Commitment Exact := storedEnergy g device initial price with hc
  have hquantity : c.quantity = List.replicate n none ++ [some initial] := by
    simp only [hc, storedEnergy, Commitment.deviceStock, hn]
  have hup : c.upPrice = List.replicate n 0 ++ [-price] := by
    simp only [hc, storedEnergy, Commitment.deviceStock, hn]
  have hdown : c.downPrice = List.replicate n 0 ++ [price] := by
    simp only [hc, storedEnergy, Commitment.deviceStock, hn]
  have hrest : ∀ j < n, c.given j = false := fun j hj => by
    rw [Commitment.given, givenAt, hquantity, List.getD_append _ _ _ _ (by simpa using hj),
      List.getD_replicate _ hj]
    rfl
  have hgiven : givenAt c.quantity n = some initial := by rw [givenAt, hquantity, hlast]
  have hupRate : c.upRate n = -price.toReal := by
    rw [Commitment.upRate, valueAt, hup, hlast, toReal_neg]
  have hdownRate : c.downRate n = price.toReal := by
    rw [Commitment.downRate, valueAt, hdown, hlast]
  have hlevel : c.level n = initial.toReal := by
    rw [Commitment.level, Commitment.baseline, hgiven, Option.getD_some]
  have hlength : c.quantity.length = n + 1 := by simp [hquantity]
  rw [Commitment.costOf_each hlength rfl, total_succ,
    total_congr fun j hj => if_neg (by rw [hrest j hj]; exact Bool.false_ne_true), total_zero,
    if_pos (by rw [Commitment.given, hgiven]; rfl), hupRate, hdownRate, hlevel, hn,
    Nat.add_sub_cancel]
  rcases le_total (s n) initial.toReal with h | h
  · rw [max_eq_right (by linarith), max_eq_left (by linarith)]
    ring
  · rw [max_eq_left (by linarith), max_eq_right (by linarith)]
    ring

namespace PricedLevels
variable {k : PricedLevels} {c : Commitment Exact}

theorem excess_eq (h : c.quantity = k.levels) (s : ℕ → ℝ) (j : ℕ) :
    k.excess s j = max (if c.given j then s j - c.level j else 0) 0 := by
  rw [excess, Commitment.given, Commitment.level, Commitment.baseline, h]
  cases givenAt k.levels j with
  | none => exact (max_self 0).symm
  | some e => rfl

theorem shortfall_eq (h : c.quantity = k.levels) (s : ℕ → ℝ) (j : ℕ) :
    k.shortfall s j = max (if c.given j then c.level j - s j else 0) 0 := by
  rw [shortfall, Commitment.given, Commitment.level, Commitment.baseline, h]
  cases givenAt k.levels j with
  | none => exact (max_self 0).symm
  | some e => rfl

theorem cost_of_none (h : k.levels.all Option.isNone = true) (len : ℕ) (dt : ℝ) (s : ℕ → ℝ) :
    k.cost len dt (k.excess s) = 0 ∧ k.cost len dt (k.shortfall s) = 0 := by
  have hnone : ∀ j, givenAt k.levels j = none := by
    intro j
    rw [givenAt]
    by_cases hj : j < k.levels.length
    · rw [List.getD_eq_getElem _ _ hj]
      exact Option.isNone_iff_eq_none.mp (List.all_eq_true.mp h _ (List.getElem_mem hj))
    · rw [List.getD_eq_default _ _ (Nat.le_of_not_lt hj)]
  have hexcess : k.excess s = fun _ => 0 := funext fun j => by rw [excess, hnone j]
  have hshortfall : k.shortfall s = fun _ => 0 := funext fun j => by rw [shortfall, hnone j]
  rw [hexcess, hshortfall, cost, worst_zero, total_zero, mul_zero, mul_zero, add_zero]
  exact ⟨rfl, rfl⟩

theorem active_of_some (h : ¬k.levels.all Option.isNone = true) (hq : c.quantity = k.levels) :
    c.activeSlots ≠ [] := by
  intro hnil
  refine h (List.all_eq_true.mpr fun q hmem => ?_)
  obtain ⟨j, hj, rfl⟩ := List.getElem_of_mem hmem
  by_contra hsome
  obtain ⟨e, he⟩ := Option.ne_none_iff_exists'.mp
    fun hn : k.levels[j] = none => hsome (by rw [hn]; rfl)
  have : j ∈ c.activeSlots :=
    Commitment.mem_activeSlots.mpr ⟨e, by rw [hq, List.getElem?_eq_getElem hj, he]⟩
  rw [hnil] at this
  exact List.not_mem_nil this

end PricedLevels

variable {k : PricedLevels} (hlen : k.levels.length = g.len)
include hlen

/-- The worst breach of all at a price that stays the same. -/
theorem cost_any_levels {c : Commitment Exact} (hsome : ¬k.levels.all Option.isNone = true)
    (hq : c.quantity = k.levels) (hgroup : c.grouping = .any) {u d : ℝ}
    (hup : ∀ j < g.len, c.upRate j = u) (hdown : ∀ j < g.len, c.downRate j = d) (s : ℕ → ℝ) :
    c.costOf s = u * worst g.len (k.excess s) + d * worst g.len (k.shortfall s) := by
  have hquantity : c.quantity.length = g.len := hq ▸ hlen
  have hactive : ∀ j ∈ c.activeSlots, j < g.len := fun j hj => by
    rw [Commitment.activeSlots_eq hquantity] at hj
    exact List.mem_range.mp (List.mem_filter.mp hj).1
  have hne := k.active_of_some hsome hq
  rw [Commitment.costOf_any hquantity hgroup,
    Commitment.meanRate_const hne fun j hj => hup j (hactive j hj),
    Commitment.meanRate_const hne fun j hj => hdown j (hactive j hj), ← worst_max_zero,
    ← worst_max_zero g.len fun j => if c.given j then c.level j - s j else 0,
    worst_congr fun j _ => (PricedLevels.excess_eq hq s j).symm,
    worst_congr fun j _ => (PricedLevels.shortfall_eq hq s j).symm]

/-- Every breach at a price that stays the same. -/
theorem cost_each_levels {c : Commitment Exact} (hq : c.quantity = k.levels)
    (hgroup : c.grouping = .each) {u d : ℝ} (hup : ∀ j < g.len, c.upRate j = u)
    (hdown : ∀ j < g.len, c.downRate j = d) (s : ℕ → ℝ) :
    c.costOf s = u * total g.len (k.excess s) + d * total g.len (k.shortfall s) := by
  have hadd : total g.len (fun j => u * k.excess s j + d * k.shortfall s j) =
      u * total g.len (k.excess s) + d * total g.len (k.shortfall s) := by
    rw [← total_mul, ← total_mul, total, List.sum_map_add]
    rfl
  rw [Commitment.costOf_each (hq ▸ hlen) hgroup, ← hadd]
  refine total_congr fun j hj => ?_
  rw [PricedLevels.excess_eq hq, PricedLevels.shortfall_eq hq, hup j hj, hdown j hj]
  split_ifs
  · rfl
  · simp

omit hlen

theorem cost_levels_up {device kind : String}
    (hlen : ∀ c ∈ levelBreaches g device kind k.levels k.price true, c.quantity.length = g.len)
    (s : ℕ → ℝ) :
    ((levelBreaches g device kind k.levels k.price true).map fun c => c.costOf s).sum =
      k.cost g.len g.realHours (k.excess s) := by
  rw [levelBreaches]
  by_cases hsome : k.levels.all Option.isNone = true
  · rw [if_pos hsome, (PricedLevels.cost_of_none hsome g.len g.realHours s).1]
    rfl
  · rw [levelBreaches, if_neg hsome] at hlen
    replace hlen : k.levels.length = g.len := hlen _ List.mem_cons_self
    rw [if_neg hsome]
    have hany := cost_any_levels hlen (c := .deviceStock (device ++ ": any soc " ++ kind) device
      k.levels (List.replicate g.len k.price) (allZero g) .any) hsome rfl rfl
      (fun j hj => realAt_replicate hj k.price) (fun j _ => realAt_allZero g j) s
    have heach := cost_each_levels hlen (c := .deviceStock (device ++ ": all soc " ++ kind) device
      k.levels (List.replicate g.len (k.price * g.hours)) (allZero g) .each) rfl rfl
      (fun j hj => realAt_replicate hj _) (fun j _ => realAt_allZero g j) s
    simp only [if_true, List.map_cons, List.map_nil, List.sum_cons, List.sum_nil, add_zero]
    rw [hany, heach, g.hours_eq, toReal_mul_num, PricedLevels.cost]
    ring

theorem cost_levels_down {device kind : String}
    (hlen : ∀ c ∈ levelBreaches g device kind k.levels k.price false, c.quantity.length = g.len)
    (s : ℕ → ℝ) :
    ((levelBreaches g device kind k.levels k.price false).map fun c => c.costOf s).sum =
      k.cost g.len g.realHours (k.shortfall s) := by
  rw [levelBreaches]
  by_cases hsome : k.levels.all Option.isNone = true
  · rw [if_pos hsome, (PricedLevels.cost_of_none hsome g.len g.realHours s).2]
    rfl
  · rw [levelBreaches, if_neg hsome] at hlen
    replace hlen : k.levels.length = g.len := hlen _ List.mem_cons_self
    rw [if_neg hsome]
    have hany := cost_any_levels hlen (c := .deviceStock (device ++ ": any soc " ++ kind) device
      k.levels (allZero g) (List.replicate g.len k.price) .any) hsome rfl rfl
      (fun j _ => realAt_allZero g j) (fun j hj => realAt_replicate hj k.price) s
    have heach := cost_each_levels hlen (c := .deviceStock (device ++ ": all soc " ++ kind) device
      k.levels (allZero g) (List.replicate g.len (k.price * g.hours)) .each) rfl rfl
      (fun j _ => realAt_allZero g j) (fun j hj => realAt_replicate hj _) s
    simp only [Bool.false_eq_true, if_false, List.map_cons, List.map_nil, List.sum_cons,
      List.sum_nil, add_zero]
    rw [hany, heach, g.hours_eq, toReal_mul_num, PricedLevels.cost]
    ring

end

end Dispatch
