import Dispatch.Request.Problem
import Dispatch.Proofs.Stock.Trajectory

/-! # The limits that a request states

* `StorageReading`, `DeviceReading`, `SiteReading`, `RequestReading`: what a request says that a plan
  has to respect, slot by slot, with gaps where it says nothing.
* `Request.States`: the reading is what the request says. There is at most one.
* `RequestReading.Allows`: flows and levels that respect all of it, with the defaults for what is not
  said.

What is allowed is stated in terms of absolute levels and of each capacity by itself, without devices
or bounds of a problem.
-/

namespace Dispatch
set_option autoImplicit false

open Exact

/-! ## What is said -/

/-- What is said of a storage. -/
structure StorageReading where
  /-- What a percentage of a level refers to. -/
  capacity : Option Exact
  initial : Option Exact
  lowest : Option Exact
  highest : Option Exact
  minima : List (Option Exact)
  maxima : List (Option Exact)
  targets : List (Option Exact)
  minimaPriced : Bool
  maximaPriced : Bool
  power : Option (List Exact)
  consumption : Option (List Exact)
  production : Option (List Exact)
  restricted : List Bool
  roundtrip : Option Exact
  charging : List (Option Exact)
  discharging : List (Option Exact)
  /-- The share of the level that an hour keeps. -/
  hourly : List (Option Exact)
  gain : List (Option Exact)
  usage : List (Option Exact)
  mode : Decay

inductive DeviceReading where
  | storage (x : StorageReading)
  /-- A process that has been placed, or a device that cannot be planned. -/
  | follows (power : List Exact)

structure SiteReading where
  power : Option (List Exact)
  consumption : Option (List Exact)
  production : Option (List Exact)
  consumptionPriced : Bool
  productionPriced : Bool

structure RequestReading where
  /-- Prices of consumption, by which processes are placed. -/
  prices : List Exact
  planned : List DeviceReading
  /-- The powers of the devices that cannot be planned. -/
  fixed : List (List Exact)
  site : SiteReading

def RequestReading.devices (x : RequestReading) : List DeviceReading :=
  x.planned ++ x.fixed.map .follows

/-! ## What is allowed -/

/-- The value of a slot in real numbers, where there is one. -/
noncomputable def realOr (xs : List (Option Exact)) (default : ℝ) (j : ℕ) : ℝ :=
  (givenAt xs j).elim default toReal

namespace StorageReading
variable (x : StorageReading)

/-- Without an initial level the storage starts empty. -/
noncomputable def start : Exact := x.initial.getD 0

/-- The most that is drawn in a slot: a capacity of its own goes before the common one. -/
noncomputable def drawLimit (j : ℕ) : Exact := (x.consumption.or x.power).elim 0 fun c => valueAt c j

noncomputable def feedLimit (j : ℕ) : Exact := (x.production.or x.power).elim 0 fun c => valueAt c j

def AllowsFlow (j : ℕ) (flow : ℝ) : Prop :=
  if x.restricted.getD j false then flow = 0
  else -x.feedLimit j ≤ num flow ∧ num flow ≤ x.drawLimit j

/-- A minimum with a breach price is no limit. -/
noncomputable def floorAt (j : ℕ) : Exact :=
  let low := x.lowest.getD 0
  if x.minimaPriced then low else Scalar.maxNum low ((givenAt x.minima j).getD negInf)

/-- Without a highest level, the capacity is one. -/
noncomputable def ceilingAt (j : ℕ) : Exact :=
  let high := (x.highest.or x.capacity).getD inf
  if x.maximaPriced then high else Scalar.minNum high ((givenAt x.maxima j).getD inf)

structure AllowsLevel (j : ℕ) (level : ℝ) : Prop where
  low : x.floorAt j ≤ num level
  high : num level ≤ x.ceilingAt j
  target : ∀ e, givenAt x.targets j = some e → num level = e

/-- Either way of a round trip keeps the square root of what the round trip keeps. -/
noncomputable def oneWay : ℝ := x.roundtrip.elim 1 fun r => √r.toReal

/-- The level after a slot: what the mode keeps of the level before, and of what the halves of the flow
and the gain and usage of the slot bring. -/
noncomputable def next (g : Grid) (j : ℕ) (level flow : ℝ) : ℝ :=
  let kept := realOr x.hourly 1 j ^ g.realHours
  let (carry, intake) := x.mode.coefficients (num kept)
  let moved := max flow 0 * realOr x.charging x.oneWay j + min flow 0 / realOr x.discharging x.oneWay j
  carry.toReal * level +
    intake.toReal * ((moved + (realOr x.gain 0 j - realOr x.usage 0 j)) * g.realHours)

/-- The level that a slot starts from, where `level` tells the levels that slots end with. -/
noncomputable def before (level : ℕ → ℝ) : ℕ → ℝ
  | 0 => x.start.toReal
  | j + 1 => level j

structure Allows (g : Grid) (flow level : ℕ → ℝ) : Prop where
  band : ∀ j < g.len, x.AllowsFlow j (flow j)
  balance : ∀ j < g.len, level j = x.next g j (x.before level j) (flow j)
  range : ∀ j < g.len, x.AllowsLevel j (level j)

end StorageReading

def DeviceReading.Allows (x : DeviceReading) (g : Grid) (flow level : ℕ → ℝ) : Prop :=
  match x with
  | storage s => s.Allows g flow level
  | follows power => ∀ j < g.len, num (flow j) = valueAt power j

namespace SiteReading
variable (x : SiteReading)

/-- The greatest of the limits on production; one with a breach price is none. -/
noncomputable def lower (j : ℕ) : Exact :=
  [x.power.map fun c => -Scalar.abs (valueAt c j),
    if x.productionPriced then none else x.production.map fun c => -valueAt c j].reduceOption.foldl
      Scalar.maxNum negInf

/-- The least of the limits on consumption. -/
noncomputable def upper (j : ℕ) : Exact :=
  [x.power.map fun c => Scalar.abs (valueAt c j),
    if x.consumptionPriced then none else x.consumption.map fun c => valueAt c j].reduceOption.foldl
      Scalar.minNum inf

def AllowsFlow (j : ℕ) (flow : ℝ) : Prop := x.lower j ≤ num flow ∧ num flow ≤ x.upper j

end SiteReading

/-- The flow and the level of every device are allowed, and the sum of all flows is. -/
structure RequestReading.Allows (x : RequestReading) (g : Grid) (flow level : ℕ → ℕ → ℝ) : Prop where
  device : ∀ (i : ℕ) (d : DeviceReading), x.devices[i]? = some d → d.Allows g (flow i) (level i)
  site : ∀ j < g.len, x.site.AllowsFlow j ((List.range x.devices.length).map fun i => flow i j).sum

/-! ## Reading a request -/

/-- The values of the slots, gaps where nothing is stated. -/
noncomputable def statedValues (g : Grid) (s : Option (Series Exact)) (field : String) (expected : Dimension) :
    Checked Exact (List (Option Exact)) :=
  match s with
  | none => .ok (List.replicate g.len none)
  | some s => s.flowValues g field expected none

structure StorageModel.States (m : StorageModel Exact) (g : Grid) (name : String)
    (x : StorageReading) : Prop where
  capacity : m.capacity name = .ok x.capacity
  initial : optionalAmount m.socAtStart (fieldOf name "soc-at-start") .energy x.capacity = .ok x.initial
  lowest : optionalAmount m.socMin (fieldOf name "soc-min") .energy x.capacity = .ok x.lowest
  highest : optionalAmount m.socMax (fieldOf name "soc-max") .energy x.capacity = .ok x.highest
  minima : levels g m.socMinima (fieldOf name "soc-minima") x.capacity = .ok x.minima
  maxima : levels g m.socMaxima (fieldOf name "soc-maxima") x.capacity = .ok x.maxima
  targets : levels g m.socTargets (fieldOf name "soc-targets") x.capacity = .ok x.targets
  minimaPriced : x.minimaPriced = m.socMinimaBreachPrice.isSome
  maximaPriced : x.maximaPriced = m.socMaximaBreachPrice.isSome
  power : optionalSeries g m.powerCapacity (fieldOf name "power-capacity") .power = .ok x.power
  consumption : optionalSeries g m.consumptionCapacity (fieldOf name "consumption-capacity") .power =
    .ok x.consumption
  production : optionalSeries g m.productionCapacity (fieldOf name "production-capacity") .power =
    .ok x.production
  restricted : TimeWindow.mask g m.timeRestrictions = (.ok x.restricted : Checked Exact (List Bool))
  roundtrip : optionalAmount m.roundtripEfficiency (fieldOf name "roundtrip-efficiency") .ratio none =
    .ok x.roundtrip
  charging : statedValues g m.chargingEfficiency (fieldOf name "charging-efficiency") .ratio =
    .ok x.charging
  discharging : statedValues g m.dischargingEfficiency (fieldOf name "discharging-efficiency") .ratio =
    .ok x.discharging
  hourly : statedValues g m.storageEfficiency (fieldOf name "storage-efficiency") .ratio = .ok x.hourly
  gain : statedValues g m.socGain (fieldOf name "soc-gain") .power = .ok x.gain
  usage : statedValues g m.socUsage (fieldOf name "soc-usage") .power = .ok x.usage
  mode : x.mode = m.efficiencyMode.getD .linear

/-- The process runs at its power in the slots where it is placed. -/
def ProcessModel.Runs (m : ProcessModel Exact) (g : Grid) (name : String) (prices power : List Exact) :
    Prop :=
  ∃ amount duration restricted, m.power.resolve (fieldOf name "power") .power none = .ok amount ∧
    (Duration.ofText m.duration : Checked Exact Span) = .ok duration ∧
    TimeWindow.mask g m.timeRestrictions = (.ok restricted : Checked Exact (List Bool)) ∧
    (RunOnce.mk name m.kind amount (slotCount g duration) restricted m.direction).place prices =
      .ok power

def DeviceRequest.States (d : DeviceRequest Exact) (g : Grid) (prices : List Exact)
    (x : DeviceReading) : Prop :=
  match d.flexModel with
  | .storage m => ∃ s, x = .storage s ∧ m.States g d.name s
  | .process m => ∃ power, x = .follows power ∧ m.Runs g d.name prices power

structure SiteContext.States (c : SiteContext Exact) (g : Grid) (x : SiteReading) : Prop where
  power : optionalSeries g c.powerCapacity "site-power-capacity" .power = .ok x.power
  consumption : optionalSeries g c.consumptionCapacity "site-consumption-capacity" .power =
    .ok x.consumption
  production : optionalSeries g c.productionCapacity "site-production-capacity" .power =
    .ok x.production
  consumptionPriced : x.consumptionPriced = c.consumptionBreachPrice.isSome
  productionPriced : x.productionPriced = c.productionBreachPrice.isSome

structure Request.States (r : Request Exact) (g : Grid) (x : RequestReading) : Prop where
  grid : r.grid = .ok g
  prices : ∃ s, r.context.consumptionPrice = some s ∧
    s.required g "consumption-price" .energyPrice = .ok x.prices
  planned : List.Forall₂ (fun d y => d.States g x.prices y) r.devices x.planned
  fixed : List.Forall₂ (fun d power =>
    d.power.required g (fieldOf "inflexible-device-sensors" d.name) .power = .ok power)
    r.context.fixedDevices x.fixed
  site : r.context.States g x.site

/-! ## A request says one thing -/

section
variable {g : Grid}

theorem StorageModel.States.unique {m : StorageModel Exact} {name : String} {x x' : StorageReading}
    (h : m.States g name x) (h' : m.States g name x') : x = x' := by
  obtain ⟨hcapacity, hinitial, hlowest, hhighest, hminima, hmaxima, htargets, hminimaPriced,
    hmaximaPriced, hpower, hconsumption, hproduction, hrestricted, hroundtrip, hcharging, hdischarging,
    hhourly, hgain, husage, hmode⟩ := h
  -- Percentages of a level are read once the capacity is known to be the same.
  have hsame : x'.capacity = x.capacity := Except.ok.inj (h'.capacity.symm.trans hcapacity)
  cases x'
  cases x
  obtain rfl := hsame
  simp only [StorageReading.mk.injEq]
  refine ⟨trivial, ?_, ?_, ?_, ?_, ?_, ?_, ?_, ?_, ?_, ?_, ?_, ?_, ?_, ?_, ?_, ?_, ?_, ?_, ?_⟩
  · exact Except.ok.inj (hinitial.symm.trans h'.initial)
  · exact Except.ok.inj (hlowest.symm.trans h'.lowest)
  · exact Except.ok.inj (hhighest.symm.trans h'.highest)
  · exact Except.ok.inj (hminima.symm.trans h'.minima)
  · exact Except.ok.inj (hmaxima.symm.trans h'.maxima)
  · exact Except.ok.inj (htargets.symm.trans h'.targets)
  · exact hminimaPriced.trans h'.minimaPriced.symm
  · exact hmaximaPriced.trans h'.maximaPriced.symm
  · exact Except.ok.inj (hpower.symm.trans h'.power)
  · exact Except.ok.inj (hconsumption.symm.trans h'.consumption)
  · exact Except.ok.inj (hproduction.symm.trans h'.production)
  · exact Except.ok.inj (hrestricted.symm.trans h'.restricted)
  · exact Except.ok.inj (hroundtrip.symm.trans h'.roundtrip)
  · exact Except.ok.inj (hcharging.symm.trans h'.charging)
  · exact Except.ok.inj (hdischarging.symm.trans h'.discharging)
  · exact Except.ok.inj (hhourly.symm.trans h'.hourly)
  · exact Except.ok.inj (hgain.symm.trans h'.gain)
  · exact Except.ok.inj (husage.symm.trans h'.usage)
  · exact hmode.trans h'.mode.symm

theorem ProcessModel.Runs.unique {m : ProcessModel Exact} {name : String}
    {prices power power' : List Exact} (h : m.Runs g name prices power)
    (h' : m.Runs g name prices power') : power = power' := by
  obtain ⟨amount, duration, restricted, hamount, hduration, hrestricted, hplace⟩ := h
  obtain ⟨amount', duration', restricted', hamount', hduration', hrestricted', hplace'⟩ := h'
  obtain rfl := Except.ok.inj (hamount.symm.trans hamount')
  obtain rfl := Except.ok.inj (hduration.symm.trans hduration')
  obtain rfl := Except.ok.inj (hrestricted.symm.trans hrestricted')
  exact Except.ok.inj (hplace.symm.trans hplace')

theorem DeviceRequest.States.unique {d : DeviceRequest Exact} {prices : List Exact}
    {x x' : DeviceReading} (h : d.States g prices x) (h' : d.States g prices x') : x = x' := by
  unfold DeviceRequest.States at h h'
  cases hmodel : d.flexModel with
  | storage m =>
    rw [hmodel] at h h'
    obtain ⟨s, rfl, h⟩ := h
    obtain ⟨s', rfl, h'⟩ := h'
    rw [h.unique h']
  | process m =>
    rw [hmodel] at h h'
    obtain ⟨power, rfl, h⟩ := h
    obtain ⟨power', rfl, h'⟩ := h'
    rw [h.unique h']

theorem SiteContext.States.unique {c : SiteContext Exact} {x x' : SiteReading} (h : c.States g x)
    (h' : c.States g x') : x = x' := by
  have hpower := Except.ok.inj (h.power.symm.trans h'.power)
  have hconsumption := Except.ok.inj (h.consumption.symm.trans h'.consumption)
  have hproduction := Except.ok.inj (h.production.symm.trans h'.production)
  have hconsumptionPriced := h.consumptionPriced.trans h'.consumptionPriced.symm
  have hproductionPriced := h.productionPriced.trans h'.productionPriced.symm
  cases x
  cases x'
  subst hpower hconsumption hproduction hconsumptionPriced hproductionPriced
  rfl

theorem Request.States.unique {r : Request Exact} {x x' : RequestReading} (h : r.States g x)
    (h' : r.States g x') : x = x' := by
  obtain ⟨s, hs, hprices⟩ := h.prices
  obtain ⟨s', hs', hprices'⟩ := h'.prices
  obtain rfl := Option.some.inj (hs.symm.trans hs')
  have hsame : x.prices = x'.prices := Except.ok.inj (hprices.symm.trans hprices')
  have hplanned : x.planned = x'.planned :=
    List.right_unique_forall₂' (fun d y y' hy hy' => hy.unique hy') h.planned (hsame ▸ h'.planned)
  have hfixed : x.fixed = x'.fixed :=
    List.right_unique_forall₂' (fun d y y' hy hy' => Except.ok.inj (hy.symm.trans hy')) h.fixed h'.fixed
  have hsite := h.site.unique h'.site
  cases x
  cases x'
  subst hsame hplanned hfixed hsite
  rfl

end

end Dispatch
