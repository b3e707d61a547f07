import Dispatch.Request.Problem
import Dispatch.Proofs.Problem.Costs

/-! # The bill of a request

* `SiteTerms`, `StorageTerms`, `BillTerms`: the amounts of a request that cost or earn money.
* `Request.Reads`: the terms are what the request states, read slot by slot, with its defaults.
* `BillTerms.bill`: what a plan costs the customer under such terms.

The bill is stated in terms of the site and of the levels of each storage alone, without commitments.
-/

namespace Dispatch
set_option autoImplicit false

open Exact

/-! ## Terms -/

/-- Levels of power with what a breach costs. -/
structure PricedPower where
  level : List Exact
  price : List Exact

/-- Levels of a stock, where there are any, with what a breach costs. -/
structure PricedLevels where
  levels : List (Option Exact)
  price : Exact

structure SiteTerms where
  tariffs : Tariffs Exact
  consumptionBreach : Option PricedPower
  productionBreach : Option PricedPower
  consumptionPeak : Option PricedPower
  productionPeak : Option PricedPower

structure StorageTerms where
  initial : Exact
  /-- Worth of each kWh left at the end. -/
  storedPrice : Exact
  minima : Option PricedLevels
  maxima : Option PricedLevels

structure BillTerms where
  site : SiteTerms
  /-- One for every device of the request; none for a process. -/
  storages : List (Option StorageTerms)

/-! ## Bills -/

noncomputable def total (len : ℕ) (f : ℕ → ℝ) : ℝ := ((List.range len).map f).sum

/-- The largest value of a horizon, zero if none is positive. -/
noncomputable def worst (len : ℕ) (f : ℕ → ℝ) : ℝ := peak ((List.range len).map f)

noncomputable def realAt (xs : List Exact) (j : ℕ) : ℝ := (valueAt xs j).toReal

namespace PricedPower

/-- The mean price times the largest excess of `x`. -/
noncomputable def worstCost (k : PricedPower) (len : ℕ) (x : ℕ → ℝ) : ℝ :=
  total len (realAt k.price) / len * worst len fun j => x j - realAt k.level j

/-- The price of every excess of `x`, slot by slot. -/
noncomputable def energyCost (k : PricedPower) (len : ℕ) (dt : ℝ) (x : ℕ → ℝ) : ℝ :=
  dt * total len fun j => realAt k.price j * max (x j - realAt k.level j) 0

end PricedPower

namespace PricedLevels

/-- How far `s` falls short of the level of a slot, if there is one. -/
noncomputable def shortfall (k : PricedLevels) (s : ℕ → ℝ) (j : ℕ) : ℝ :=
  match givenAt k.levels j with
  | some e => max (e.toReal - s j) 0
  | none => 0

/-- How far `s` exceeds the level of a slot, if there is one. -/
noncomputable def excess (k : PricedLevels) (s : ℕ → ℝ) (j : ℕ) : ℝ :=
  match givenAt k.levels j with
  | some e => max (s j - e.toReal) 0
  | none => 0

/-- The largest breach at its price, and every breach as energy. -/
noncomputable def cost (k : PricedLevels) (len : ℕ) (dt : ℝ) (breach : ℕ → ℝ) : ℝ :=
  k.price.toReal * worst len breach + dt * k.price.toReal * total len breach

end PricedLevels

/-- What is paid for the flow `x` of the site. -/
noncomputable def SiteTerms.bill (t : SiteTerms) (len : ℕ) (dt : ℝ) (x : ℕ → ℝ) : ℝ :=
  (total len fun j => dt * (realAt t.tariffs.consumption j * max (x j) 0 -
    realAt t.tariffs.production j * max (-x j) 0)) +
  (t.consumptionBreach.elim 0 fun k => k.worstCost len x + k.energyCost len dt x) +
  (t.productionBreach.elim 0 fun k =>
    k.worstCost len (fun j => -x j) + k.energyCost len dt fun j => -x j) +
  (t.consumptionPeak.elim 0 fun k => k.worstCost len x) +
  (t.productionPeak.elim 0 fun k => k.worstCost len fun j => -x j)

/-- What is paid for the levels `s` of a storage at the ends of the slots. -/
noncomputable def StorageTerms.bill (t : StorageTerms) (len : ℕ) (dt : ℝ) (s : ℕ → ℝ) : ℝ :=
  -t.storedPrice.toReal * (s (len - 1) - t.initial.toReal) +
  (t.minima.elim 0 fun k => k.cost len dt (k.shortfall s)) +
  (t.maxima.elim 0 fun k => k.cost len dt (k.excess s))

/-- What is paid for a plan: the site's flow, and the levels that the flows of each storage lead to. -/
noncomputable def BillTerms.bill (t : BillTerms) (p : Problem Exact) (flow : ℕ → ℕ → ℝ) : ℝ :=
  t.site.bill p.len p.realHours (p.siteFlow flow) +
  (t.storages.zipIdx.map fun x =>
    x.1.elim 0 fun s => s.bill p.len p.realHours (p.replayed flow x.2)).sum

/-! ## Reading the terms -/

/-- A capacity with its breach price, if both are stated. -/
def ReadsBreach (g : Grid) (capacity price : Option (Series Exact)) (field priceField : String)
    (t : Option PricedPower) : Prop :=
  ∃ c b, optionalSeries g capacity field .power = .ok c ∧
    optionalSeries g price priceField .powerPrice = .ok b ∧ t = Option.map₂ PricedPower.mk c b

/-- A peak price, with its peak or from zero on. -/
def ReadsPeak (g : Grid) (peak price : Option (Series Exact)) (field priceField : String)
    (t : Option PricedPower) : Prop :=
  (optionalSeries g price priceField .powerPrice = .ok none ∧ t = none) ∨
  ∃ b k, optionalSeries g price priceField .powerPrice = .ok (some b) ∧
    optionalSeries g peak field .power = .ok k ∧ t = some ⟨k.getD (allZero g), b⟩

/-- Without a production price, energy is sold at the consumption price. -/
def ReadsTariffs (g : Grid) (c : SiteContext Exact) (t : Tariffs Exact) : Prop :=
  (∃ bought, c.consumptionPrice = some bought ∧
    bought.required g "consumption-price" .energyPrice = .ok t.consumption) ∧
  match c.productionPrice with
  | none => t.production = t.consumption
  | some sold => sold.required g "production-price" .energyPrice = .ok t.production

structure SiteContext.Reads (c : SiteContext Exact) (g : Grid) (t : SiteTerms) : Prop where
  tariffs : ReadsTariffs g c t.tariffs
  consumptionBreach : ReadsBreach g c.consumptionCapacity c.consumptionBreachPrice
    "site-consumption-capacity" "site-consumption-breach-price" t.consumptionBreach
  productionBreach : ReadsBreach g c.productionCapacity c.productionBreachPrice
    "site-production-capacity" "site-production-breach-price" t.productionBreach
  consumptionPeak : ReadsPeak g c.peakConsumption c.peakConsumptionPrice
    "site-peak-consumption" "site-peak-consumption-price" t.consumptionPeak
  productionPeak : ReadsPeak g c.peakProduction c.peakProductionPrice
    "site-peak-production" "site-peak-production-price" t.productionPeak

/-- Levels with their breach price, if it is stated. -/
def ReadsLevels (g : Grid) (capacity : Option Exact) (levels : Option (Series Exact))
    (price : Option (Amount Exact)) (field priceField : String) (t : Option PricedLevels) : Prop :=
  ∃ ls b, StorageModel.levels g levels field capacity = .ok ls ∧
    optionalAmount price priceField .energyPrice none = .ok b ∧ t = b.map (⟨ls, ·⟩)

/-- Without a price of its own, what is stored counts at the last consumption price; without an initial
level the storage starts empty. -/
def StorageModel.Reads (m : StorageModel Exact) (g : Grid) (name : String) (tariffs : Tariffs Exact)
    (t : StorageTerms) : Prop :=
  ∃ capacity initial stored, m.capacity name = .ok capacity ∧
    optionalAmount m.socAtStart (fieldOf name "soc-at-start") .energy capacity = .ok initial ∧
    t.initial = initial.getD 0 ∧
    optionalAmount m.storedEnergyPrice (fieldOf name "stored-energy-price") .energyPrice none =
      .ok stored ∧
    t.storedPrice = stored.getD (tariffs.consumption.getLastD 0) ∧
    ReadsLevels g capacity m.socMinima m.socMinimaBreachPrice (fieldOf name "soc-minima")
      (fieldOf name "soc-minima-breach-price") t.minima ∧
    ReadsLevels g capacity m.socMaxima m.socMaximaBreachPrice (fieldOf name "soc-maxima")
      (fieldOf name "soc-maxima-breach-price") t.maxima

def DeviceRequest.Reads (d : DeviceRequest Exact) (g : Grid) (tariffs : Tariffs Exact)
    (t : Option StorageTerms) : Prop :=
  match d.flexModel with
  | .storage m => ∃ s, t = some s ∧ m.Reads g d.name tariffs s
  | .process _ => t = none

structure Request.Reads (r : Request Exact) (g : Grid) (t : BillTerms) : Prop where
  grid : r.grid = .ok g
  site : r.context.Reads g t.site
  storages : List.Forall₂ (fun d s => d.Reads g t.site.tariffs s) r.devices t.storages

/-! ## A request has one bill -/

section
variable {g : Grid}

theorem ReadsBreach.unique {capacity price : Option (Series Exact)} {field priceField : String}
    {t t' : Option PricedPower} (h : ReadsBreach g capacity price field priceField t)
    (h' : ReadsBreach g capacity price field priceField t') : t = t' := by
  obtain ⟨c, b, hc, hb, rfl⟩ := h
  obtain ⟨c', b', hc', hb', rfl⟩ := h'
  rw [Except.ok.inj (hc.symm.trans hc'), Except.ok.inj (hb.symm.trans hb')]

theorem ReadsPeak.unique {peak price : Option (Series Exact)} {field priceField : String}
    {t t' : Option PricedPower} (h : ReadsPeak g peak price field priceField t)
    (h' : ReadsPeak g peak price field priceField t') : t = t' := by
  rcases h with ⟨hb, rfl⟩ | ⟨b, k, hb, hk, rfl⟩
  · rcases h' with ⟨-, rfl⟩ | ⟨b', k', hb', -, -⟩
    · rfl
    · exact nomatch Except.ok.inj (hb.symm.trans hb')
  · rcases h' with ⟨hb', -⟩ | ⟨b', k', hb', hk', rfl⟩
    · exact nomatch Except.ok.inj (hb.symm.trans hb')
    · rw [Option.some.inj (Except.ok.inj (hb.symm.trans hb')), Except.ok.inj (hk.symm.trans hk')]

theorem ReadsTariffs.unique {c : SiteContext Exact} {t t' : Tariffs Exact}
    (h : ReadsTariffs g c t) (h' : ReadsTariffs g c t') : t = t' := by
  obtain ⟨⟨bought, hsome, hbought⟩, hsold⟩ := h
  obtain ⟨⟨bought', hsome', hbought'⟩, hsold'⟩ := h'
  obtain rfl := Option.some.inj (hsome.symm.trans hsome')
  have hconsumption : t.consumption = t'.consumption := Except.ok.inj (hbought.symm.trans hbought')
  have hproduction : t.production = t'.production := by
    cases hprice : c.productionPrice with
    | none =>
      rw [hprice] at hsold hsold'
      exact hsold.trans (hconsumption.trans hsold'.symm)
    | some sold =>
      rw [hprice] at hsold hsold'
      exact Except.ok.inj (hsold.symm.trans hsold')
  cases t
  cases t'
  exact congrArg₂ Tariffs.mk hconsumption hproduction

theorem SiteContext.Reads.unique {c : SiteContext Exact} {t t' : SiteTerms} (h : c.Reads g t)
    (h' : c.Reads g t') : t = t' := by
  have htariffs := h.tariffs.unique h'.tariffs
  have hbreaches := h.consumptionBreach.unique h'.consumptionBreach
  have hbreaches' := h.productionBreach.unique h'.productionBreach
  have hpeaks := h.consumptionPeak.unique h'.consumptionPeak
  have hpeaks' := h.productionPeak.unique h'.productionPeak
  cases t
  cases t'
  subst htariffs hbreaches hbreaches' hpeaks hpeaks'
  rfl

theorem ReadsLevels.unique {capacity : Option Exact} {levels : Option (Series Exact)}
    {price : Option (Amount Exact)} {field priceField : String} {t t' : Option PricedLevels}
    (h : ReadsLevels g capacity levels price field priceField t)
    (h' : ReadsLevels g capacity levels price field priceField t') : t = t' := by
  obtain ⟨ls, b, hls, hb, rfl⟩ := h
  obtain ⟨ls', b', hls', hb', rfl⟩ := h'
  rw [Except.ok.inj (hls.symm.trans hls'), Except.ok.inj (hb.symm.trans hb')]

theorem StorageModel.Reads.unique {m : StorageModel Exact} {name : String} {tariffs : Tariffs Exact}
    {t t' : StorageTerms} (h : m.Reads g name tariffs t) (h' : m.Reads g name tariffs t') :
    t = t' := by
  obtain ⟨capacity, initial, stored, hcapacity, hinitial, hstart, hstored, hprice, hmin, hmax⟩ := h
  obtain ⟨capacity', initial', stored', hcapacity', hinitial', hstart', hstored', hprice', hmin',
    hmax'⟩ := h'
  obtain rfl := Except.ok.inj (hcapacity.symm.trans hcapacity')
  obtain rfl := Except.ok.inj (hinitial.symm.trans hinitial')
  obtain rfl := Except.ok.inj (hstored.symm.trans hstored')
  have hminima := hmin.unique hmin'
  have hmaxima := hmax.unique hmax'
  rw [← hstart'] at hstart
  rw [← hprice'] at hprice
  cases t
  cases t'
  subst hstart hprice hminima hmaxima
  rfl

theorem DeviceRequest.Reads.unique {d : DeviceRequest Exact} {tariffs : Tariffs Exact}
    {t t' : Option StorageTerms} (h : d.Reads g tariffs t) (h' : d.Reads g tariffs t') : t = t' := by
  rw [DeviceRequest.Reads] at h h'
  cases hmodel : d.flexModel with
  | storage m =>
    rw [hmodel] at h h'
    obtain ⟨s, rfl, h⟩ := h
    obtain ⟨s', rfl, h'⟩ := h'
    rw [h.unique h']
  | process m =>
    rw [hmodel] at h h'
    exact h.trans h'.symm

theorem Request.Reads.unique {r : Request Exact} {t t' : BillTerms} (h : r.Reads g t)
    (h' : r.Reads g t') : t = t' := by
  have hsite := h.site.unique h'.site
  have hunique : Relator.RightUnique fun (d : DeviceRequest Exact) s => d.Reads g t.site.tariffs s :=
    fun d s s' hs hs' => hs.unique hs'
  have hstorages : t.storages = t'.storages :=
    List.right_unique_forall₂' hunique h.storages (hsite ▸ h'.storages)
  cases t
  cases t'
  subst hsite hstorages
  rfl

end

end Dispatch
