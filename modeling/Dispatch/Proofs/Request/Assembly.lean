import Dispatch.Proofs.Warned
import Dispatch.Proofs.Request.Bill
import Dispatch.Proofs.Request.Limits

/-! # The problem that a request becomes

* `StorageReading.device`, `DeviceReading.device`, `SiteReading.limits`: the devices and the limits of
  the site that a reading is turned into.
* `Request.Steps`: the steps of a translation that comes to a problem.
* `StorageModel.parts_of_device`, `SiteContext.parts_of_limits`: what a step reads, what device or
  limits it sets up from that, and which commitments it puts beside them.
* `Request.assembled`: every problem is assembled from what its request states.
-/

namespace Dispatch
set_option autoImplicit false

open Exact Warned

/-! ## Devices and limits of a reading -/

noncomputable def oneWayShare (roundtrip : Option Exact) : Exact :=
  match roundtrip with
  | some r => Scalar.sqrt r
  | none => 1

namespace StorageReading
variable (x : StorageReading)

noncomputable def lowestLevels (g : Grid) : List Exact :=
  let lows := List.replicate g.len (x.lowest.getD 0)
  if x.minimaPriced then lows else StorageModel.raised lows x.minima

noncomputable def highestLevels (g : Grid) : List Exact :=
  let highs := List.replicate g.len ((x.highest.or x.capacity).getD inf)
  if x.maximaPriced then highs else StorageModel.lowered highs x.maxima

/-- Levels are bounded relative to the initial one. -/
noncomputable def stock (g : Grid) : Stock Exact where
  initial := x.start
  min := (x.lowestLevels g).map (· - x.start)
  max := (x.highestLevels g).map (· - x.start)
  equals := x.targets.map fun t => t.map (· - x.start)
  etaUp := x.charging.map (·.getD (oneWayShare x.roundtrip))
  etaDown := x.discharging.map (·.getD (oneWayShare x.roundtrip))
  retention := (x.hourly.map (·.getD 1)).map fun perHour => Scalar.pow perHour g.hours
  delta := List.zipWith (fun gained used => (gained - used) * g.hours) (x.gain.map (·.getD 0))
    (x.usage.map (·.getD 0))
  mode := x.mode

/-- Zero in the slots where the storage may not run. -/
noncomputable def unlessRestricted (xs : List Exact) : List Exact :=
  List.zipWith (fun x r => if r then 0 else x) xs x.restricted

noncomputable def device (g : Grid) (name : String) (sooner : Bool) : Device Exact :=
  { Device.flexible name
      (x.unlessRestricted (((x.production.or x.power).getD (allZero g)).map fun p => -p))
      (x.unlessRestricted ((x.consumption.or x.power).getD (allZero g))) with
    stock := some (x.stock g)
    chargeSooner := sooner }

end StorageReading

noncomputable def DeviceReading.device (x : DeviceReading) (g : Grid) (name : String) (sooner : Bool) :
    Device Exact :=
  match x with
  | storage s => s.device g name sooner
  | follows power => Device.fixed name power

@[simp] theorem DeviceReading.device_id (x : DeviceReading) (g : Grid) (name : String) (sooner : Bool) :
    (x.device g name sooner).id = name := by
  cases x with
  | storage s => rfl
  | follows power => rfl

/-- What a device is made of: what a storage states, or powers that it follows. -/
def DeviceReading.Becomes (x : DeviceReading) (g : Grid) (e : Device Exact) : Prop :=
  match x with
  | storage s => ∃ (m : StorageModel Exact) (name : String) (sooner : Bool),
      m.States g name s ∧ e = s.device g name sooner
  | follows power => ∃ name, e = Device.fixed name power

theorem DeviceReading.Becomes.onSite {x : DeviceReading} {g : Grid} {e : Device Exact}
    (h : x.Becomes g e) : e.onSite = true := by
  cases x with
  | storage s =>
    obtain ⟨m, name, sooner, -, rfl⟩ := h
    rfl
  | follows power =>
    obtain ⟨name, rfl⟩ := h
    rfl

namespace SiteReading

/-- The limits after each capacity without a breach price has tightened them. -/
noncomputable def limits (x : SiteReading) (g : Grid) : SiteLimits Exact :=
  let limits := x.power.elim (SiteLimits.unbounded g.len) fun cap =>
    (SiteLimits.unbounded g.len).tighten (cap.map fun c => -Scalar.abs c) (cap.map Scalar.abs)
  let limits := if x.consumptionPriced then limits else x.consumption.elim limits fun cap =>
    limits.tighten (List.replicate g.len negInf) cap
  if x.productionPriced then limits else x.production.elim limits fun cap =>
    limits.tighten (cap.map fun c => -c) (List.replicate g.len inf)

end SiteReading

/-! ## A storage -/

theorem isSome_of_optionalAmount {α : Type} [Scalar α] {a : Option (Amount α)} {field : String}
    {expected : Dimension} {reference v : Option α} (h : optionalAmount a field expected reference = .ok v) :
    v.isSome = a.isSome := by
  cases a with
  | none =>
    obtain rfl := Except.ok.inj h
    rfl
  | some a =>
    obtain ⟨_, -, h⟩ := Checked.bind_eq_ok.mp h
    rw [← Checked.pure_eq_ok.mp h, Option.isSome_some, Option.isSome_some]

theorem isSome_of_optionalSeries {α : Type} [Scalar α] {g : Grid} {s : Option (Series α)}
    {field : String} {expected : Dimension} {v : Option (List α)}
    (h : optionalSeries g s field expected = .ok v) : v.isSome = s.isSome := by
  cases s with
  | none =>
    obtain rfl := Except.ok.inj h
    rfl
  | some s =>
    obtain ⟨_, -, h⟩ := Checked.bind_eq_ok.mp h
    rw [← Checked.pure_eq_ok.mp h, Option.isSome_some, Option.isSome_some]

namespace StorageModel
variable {m : StorageModel Exact} {g : Grid} {name : String}

theorem seriesOr_eq_ok {s : Option (Series Exact)} {field : String} {expected : Dimension}
    {default : Exact} {ys : List Exact} (h : seriesOr g s field expected default = .ok ys) :
    ∃ vs, statedValues g s field expected = .ok vs ∧ ys = vs.map (·.getD default) := by
  cases s with
  | none =>
    refine ⟨_, rfl, ?_⟩
    rw [← Except.ok.inj h, List.map_replicate, Option.getD_none]
  | some s =>
    obtain ⟨vs, hvs, h⟩ := Checked.bind_eq_ok.mp h
    exact ⟨vs, hvs, (Checked.pure_eq_ok.mp h).symm⟩

theorem dynamics_eq_ok {s s' : Stock Exact} (h : m.dynamics g name s = .ok s') :
    ∃ roundtrip gain usage charging discharging hourly,
      optionalAmount m.roundtripEfficiency (fieldOf name "roundtrip-efficiency") .ratio none =
        .ok roundtrip ∧
      statedValues g m.socGain (fieldOf name "soc-gain") .power = .ok gain ∧
      statedValues g m.socUsage (fieldOf name "soc-usage") .power = .ok usage ∧
      statedValues g m.chargingEfficiency (fieldOf name "charging-efficiency") .ratio = .ok charging ∧
      statedValues g m.dischargingEfficiency (fieldOf name "discharging-efficiency") .ratio =
        .ok discharging ∧
      statedValues g m.storageEfficiency (fieldOf name "storage-efficiency") .ratio = .ok hourly ∧
      s' = { s with
        etaUp := charging.map (·.getD (oneWayShare roundtrip))
        etaDown := discharging.map (·.getD (oneWayShare roundtrip))
        retention := (hourly.map (·.getD 1)).map fun perHour => Scalar.pow perHour g.hours
        delta := List.zipWith (fun gained used => (gained - used) * g.hours) (gain.map (·.getD 0))
          (usage.map (·.getD 0)) } := by
  rw [dynamics] at h
  obtain ⟨roundtrip, hroundtrip, h⟩ := Checked.bind_eq_ok.mp h
  obtain ⟨_, gain_ok, h⟩ := Checked.bind_eq_ok.mp h
  obtain ⟨_, usage_ok, h⟩ := Checked.bind_eq_ok.mp h
  obtain ⟨_, charging_ok, h⟩ := Checked.bind_eq_ok.mp h
  obtain ⟨_, discharging_ok, h⟩ := Checked.bind_eq_ok.mp h
  obtain ⟨_, hourly_ok, h⟩ := Checked.bind_eq_ok.mp h
  obtain ⟨gain, hgain, rfl⟩ := seriesOr_eq_ok gain_ok
  obtain ⟨usage, husage, rfl⟩ := seriesOr_eq_ok usage_ok
  obtain ⟨charging, hcharging, rfl⟩ := seriesOr_eq_ok charging_ok
  obtain ⟨discharging, hdischarging, rfl⟩ := seriesOr_eq_ok discharging_ok
  obtain ⟨hourly, hhourly, rfl⟩ := seriesOr_eq_ok hourly_ok
  refine ⟨roundtrip, gain, usage, charging, discharging, hourly, hroundtrip, hgain, husage, hcharging,
    hdischarging, hhourly, ?_⟩
  rw [← Checked.pure_eq_ok.mp h]
  cases roundtrip with
  | none => rfl
  | some r => rfl

theorem powerBand_eq_ok {lo hi : List Exact} (h : m.powerBand g name = .ok (lo, hi)) :
    ∃ power consumption production restricted,
      optionalSeries g m.powerCapacity (fieldOf name "power-capacity") .power = .ok power ∧
      optionalSeries g m.consumptionCapacity (fieldOf name "consumption-capacity") .power =
        .ok consumption ∧
      optionalSeries g m.productionCapacity (fieldOf name "production-capacity") .power =
        .ok production ∧
      TimeWindow.mask g m.timeRestrictions = (.ok restricted : Checked Exact (List Bool)) ∧
      lo = List.zipWith (fun x r => if r then 0 else x)
        (((production.or power).getD (allZero g)).map fun p => -p) restricted ∧
      hi = List.zipWith (fun x r => if r then 0 else x)
        ((consumption.or power).getD (allZero g)) restricted := by
  rw [powerBand] at h
  obtain ⟨power, hpower, h⟩ := Checked.bind_eq_ok.mp h
  obtain ⟨consumption, hconsumption, h⟩ := Checked.bind_eq_ok.mp h
  obtain ⟨production, hproduction, h⟩ := Checked.bind_eq_ok.mp h
  obtain ⟨-, h⟩ := Checked.guardThen_eq_ok.mp h
  obtain ⟨restricted, hrestricted, h⟩ := Checked.bind_eq_ok.mp h
  obtain ⟨hlo, hhi⟩ := Prod.ext_iff.mp (Checked.pure_eq_ok.mp h)
  exact ⟨power, consumption, production, restricted, hpower, hconsumption, hproduction, hrestricted,
    hlo.symm, hhi.symm⟩

/-- What a storage is read as, the device it becomes and the commitments on its level. -/
theorem parts_of_device {tariffs : Tariffs Exact} {sooner : Bool} {d : Device Exact}
    {cs : List (Commitment Exact)} (h : (m.device g name tariffs sooner).Yields (d, cs)) :
    ∃ x stored minimaPrice maximaPrice, m.States g name x ∧
      optionalAmount m.storedEnergyPrice (fieldOf name "stored-energy-price") .energyPrice none =
        .ok stored ∧
      optionalAmount m.socMinimaBreachPrice (fieldOf name "soc-minima-breach-price") .energyPrice none =
        .ok minimaPrice ∧
      optionalAmount m.socMaximaBreachPrice (fieldOf name "soc-maxima-breach-price") .energyPrice none =
        .ok maximaPrice ∧
      d = x.device g name (m.preferChargingSooner.getD sooner) ∧
      cs = storedEnergy g name x.start (stored.getD (tariffs.consumption.getLastD 0)) ::
        ((minimaPrice.elim [] fun p => levelBreaches g name "minima" x.minima p false) ++
          maximaPrice.elim [] fun p => levelBreaches g name "maxima" x.maxima p true) := by
  rw [device] at h
  obtain ⟨capacity, hcapacity, h⟩ := yields_bind h
  extract_lets level price rest at h
  obtain ⟨initial?, hinitial, h⟩ := yields_bind h
  -- Without an initial level a zero is stated in its place; what is read after it is the same.
  have hrest : (rest (initial?.getD 0)).Yields (d, cs) := by
    cases initial? with
    | none =>
      obtain ⟨_, -, h⟩ := yields_bind h
      obtain ⟨_, hzero, h⟩ := yields_bind h
      rwa [← yields_pure hzero] at h
    | some soc =>
      obtain ⟨_, hsoc, h⟩ := yields_bind h
      rwa [← yields_pure hsoc] at h
  obtain ⟨lowest, hlowest, h⟩ := yields_bind hrest
  obtain ⟨highest, hhighest, h⟩ := yields_bind h
  obtain ⟨minima, hminima, h⟩ := yields_bind h
  obtain ⟨maxima, hmaxima, h⟩ := yields_bind h
  obtain ⟨targets, htargets, h⟩ := yields_bind h
  obtain ⟨minimaPrice, hminimaPrice, h⟩ := yields_bind h
  obtain ⟨maximaPrice, hmaximaPrice, h⟩ := yields_bind h
  obtain ⟨stored, hstored, h⟩ := yields_bind h
  obtain ⟨stock, hstock, h⟩ := yields_bind h
  obtain ⟨⟨powerMin, powerMax⟩, hband, h⟩ := yields_bind h
  obtain ⟨hd, hcs⟩ := yields_pair h
  obtain ⟨roundtrip, gain, usage, charging, discharging, hourly, hroundtrip, hgain, husage, hcharging,
    hdischarging, hhourly, hstock⟩ := dynamics_eq_ok (yields_lift hstock)
  obtain ⟨power, consumption, production, restricted, hpower, hconsumption, hproduction, hrestricted,
    hlo, hhi⟩ := powerBand_eq_ok (yields_lift hband)
  have hminimaPriced := isSome_of_optionalAmount (yields_lift hminimaPrice)
  have hmaximaPriced := isSome_of_optionalAmount (yields_lift hmaximaPrice)
  refine ⟨⟨capacity, initial?, lowest, highest, minima, maxima, targets, minimaPrice.isSome,
    maximaPrice.isSome, power, consumption, production, restricted, roundtrip, charging, discharging,
    hourly, gain, usage, m.efficiencyMode.getD .linear⟩, stored, minimaPrice, maximaPrice,
    ⟨yields_lift hcapacity, yields_lift hinitial, yields_lift hlowest, yields_lift hhighest,
      yields_lift hminima, yields_lift hmaxima, yields_lift htargets, hminimaPriced, hmaximaPriced,
      hpower, hconsumption, hproduction, hrestricted, hroundtrip, hcharging, hdischarging, hhourly,
      hgain, husage, rfl⟩, yields_lift hstored, yields_lift hminimaPrice, yields_lift hmaximaPrice,
    ?_, ?_⟩
  · subst hstock hlo hhi
    refine hd.trans ?_
    cases minimaPrice <;> cases maximaPrice <;> rfl
  · refine hcs.trans ?_
    cases minimaPrice <;> cases maximaPrice <;> rfl

end StorageModel

/-! ## A process -/

theorem ProcessModel.runs_of_device {m : ProcessModel Exact} {g : Grid} {name : String}
    {prices : List Exact} {d : Device Exact} (h : m.device g name prices = .ok d) :
    ∃ power, m.Runs g name prices power ∧ d = Device.fixed name power := by
  rw [device] at h
  obtain ⟨amount, hamount, h⟩ := Checked.bind_eq_ok.mp h
  obtain ⟨duration, hduration, h⟩ := Checked.bind_eq_ok.mp h
  obtain ⟨restricted, hrestricted, h⟩ := Checked.bind_eq_ok.mp h
  simp only at h
  split at h
  · rename_i power hplace
    refine ⟨power, ⟨amount, duration, restricted, Checked.mapError_eq_ok.mp hamount, ?_,
      Checked.mapError_eq_ok.mp hrestricted, hplace⟩, (Checked.pure_eq_ok.mp h).symm⟩
    exact Checked.mapError_eq_ok.mp (Checked.mapError_eq_ok.mp hduration)
  · cases h

/-! ## The site -/

namespace SiteContext

/-- Both tariffs are read, and if each names a currency, the first ones that they name agree. -/
theorem tariffs_eq_ok {α : Type} [Scalar α] {c : SiteContext α} {g : Grid} {t : Tariffs α} :
    c.tariffs g = .ok t ↔ ∃ bought, c.consumptionPrice = some bought ∧
      bought.required g "consumption-price" .energyPrice = .ok t.consumption ∧
      match c.productionPrice with
      | none => t.production = t.consumption
      | some sold => (∀ b s, bought.currency = some b → sold.currency = some s → b = s) ∧
          sold.required g "production-price" .energyPrice = .ok t.production := by
  unfold tariffs
  cases c.consumptionPrice with
  | none => simp
  | some bought =>
    simp only [Option.some.injEq, exists_eq_left', Checked.bind_eq_ok]
    cases c.productionPrice with
    | none =>
      simp only [Checked.pure_eq_ok]
      constructor
      · rintro ⟨consumption, hconsumption, rfl⟩
        exact ⟨hconsumption, rfl⟩
      · rintro ⟨hconsumption, hsame⟩
        refine ⟨t.consumption, hconsumption, ?_⟩
        cases t
        cases hsame
        rfl
    | some sold =>
      have hread : ∀ consumption, (sold.required g "production-price" .energyPrice >>= fun production =>
          pure (⟨consumption, production⟩ : Tariffs α)) = .ok t ↔
            consumption = t.consumption ∧
              sold.required g "production-price" .energyPrice = .ok t.production := by
        intro consumption
        rw [Checked.bind_eq_ok]
        constructor
        · rintro ⟨production, hproduction, h⟩
          cases Checked.pure_eq_ok.mp h
          exact ⟨rfl, hproduction⟩
        · rintro ⟨rfl, hproduction⟩
          exact ⟨t.production, hproduction, rfl⟩
      cases hbought : bought.currency with
      | none => simp only [hread]; grind
      | some b =>
        cases hsold : sold.currency with
        | none => simp only [hsold, hread]; grind
        | some s => simp only [hsold, Checked.guardThen_eq_ok, hread]; grind

variable {c : SiteContext Exact} {g : Grid} {limits limits' : SiteLimits Exact}
  {cs : List (Commitment Exact)}

theorem reads_of_tariffs {t : Tariffs Exact} (h : c.tariffs g = .ok t) : ReadsTariffs g c t := by
  obtain ⟨bought, hbought, hconsumption, hsold⟩ := tariffs_eq_ok.mp h
  refine ⟨⟨bought, hbought, hconsumption⟩, ?_⟩
  cases hprice : c.productionPrice with
  | none =>
    rw [hprice] at hsold
    exact hsold
  | some sold =>
    rw [hprice] at hsold
    exact hsold.2

theorem powerLimits_eq_ok (h : c.powerLimits g = .ok limits) :
    ∃ power, optionalSeries g c.powerCapacity "site-power-capacity" .power = .ok power ∧
      limits = power.elim (SiteLimits.unbounded g.len) fun cap =>
        (SiteLimits.unbounded g.len).tighten (cap.map fun x => -Scalar.abs x)
          (cap.map Scalar.abs) := by
  obtain ⟨power, hpower, h⟩ := Checked.bind_eq_ok.mp h
  refine ⟨power, hpower, ?_⟩
  cases power with
  | none => exact (Checked.pure_eq_ok.mp h).symm
  | some cap => exact (Checked.pure_eq_ok.mp h).symm

theorem parts_of_consumptionLimits (h : (c.consumptionLimits g limits).Yields (limits', cs)) :
    ∃ cap price, optionalSeries g c.consumptionCapacity "site-consumption-capacity" .power = .ok cap ∧
      optionalSeries g c.consumptionBreachPrice "site-consumption-breach-price" .powerPrice =
        .ok price ∧
      limits' = (if price.isSome then limits else cap.elim limits fun cap =>
        limits.tighten (List.replicate g.len negInf) cap) ∧
      cs = (Option.map₂ PricedPower.mk cap price).elim [] fun k =>
        breachPair g "consumption" (k.level.map some) k.price true := by
  rw [consumptionLimits] at h
  obtain ⟨cap, hcap, h⟩ := yields_bind h
  obtain ⟨price, hprice, h⟩ := yields_bind h
  refine ⟨cap, price, yields_lift hcap, yields_lift hprice, ?_⟩
  cases cap with
  | none =>
    cases price with
    | none => exact yields_pair h
    | some p =>
      obtain ⟨_, -, h⟩ := yields_bind h
      exact yields_pair h
  | some cap =>
    cases price with
    | none => exact yields_pair h
    | some p => exact yields_pair h

theorem parts_of_productionLimits (h : (c.productionLimits g limits).Yields (limits', cs)) :
    ∃ cap price, optionalSeries g c.productionCapacity "site-production-capacity" .power = .ok cap ∧
      optionalSeries g c.productionBreachPrice "site-production-breach-price" .powerPrice = .ok price ∧
      limits' = (if price.isSome then limits else cap.elim limits fun cap =>
        limits.tighten (cap.map fun x => -x) (List.replicate g.len inf)) ∧
      cs = (Option.map₂ PricedPower.mk cap price).elim [] fun k =>
        breachPair g "production" (k.level.map fun x => some (-x)) k.price false := by
  rw [productionLimits] at h
  obtain ⟨cap, hcap, h⟩ := yields_bind h
  obtain ⟨price, hprice, h⟩ := yields_bind h
  refine ⟨cap, price, yields_lift hcap, yields_lift hprice, ?_⟩
  cases cap with
  | none =>
    cases price with
    | none => exact yields_pair h
    | some p =>
      obtain ⟨_, -, h⟩ := yields_bind h
      exact yields_pair h
  | some cap =>
    cases price with
    | none => exact yields_pair h
    | some p => exact yields_pair h

/-- What the site is read as, the limits it sets and the commitments that price the others. -/
theorem parts_of_limits (h : (c.limits g).Yields (limits, cs)) :
    ∃ x consumptionPrice productionPrice consumptionPeak productionPeak, c.States g x ∧
      optionalSeries g c.consumptionBreachPrice "site-consumption-breach-price" .powerPrice =
        .ok consumptionPrice ∧
      optionalSeries g c.productionBreachPrice "site-production-breach-price" .powerPrice =
        .ok productionPrice ∧
      c.consumptionPeak g = .ok consumptionPeak ∧ c.productionPeak g = .ok productionPeak ∧
      limits = x.limits g ∧
      cs = ((Option.map₂ PricedPower.mk x.consumption consumptionPrice).elim [] fun k =>
          breachPair g "consumption" (k.level.map some) k.price true) ++
        ((Option.map₂ PricedPower.mk x.production productionPrice).elim [] fun k =>
          breachPair g "production" (k.level.map fun x => some (-x)) k.price false) ++
        consumptionPeak ++ productionPeak := by
  rw [SiteContext.limits] at h
  obtain ⟨limits₁, h₀, h⟩ := yields_bind h
  obtain ⟨⟨limits₂, cs₁⟩, h₁, h⟩ := yields_bind h
  obtain ⟨⟨limits₃, cs₂⟩, h₂, h⟩ := yields_bind h
  obtain ⟨cs₃, h₃, h⟩ := yields_bind h
  obtain ⟨cs₄, h₄, h⟩ := yields_bind h
  obtain ⟨power, hpower, rfl⟩ := powerLimits_eq_ok (yields_lift h₀)
  obtain ⟨consumption, price₁, hconsumption, hprice₁, rfl, rfl⟩ := parts_of_consumptionLimits h₁
  obtain ⟨production, price₂, hproduction, hprice₂, rfl, rfl⟩ := parts_of_productionLimits h₂
  obtain ⟨hlimits, hcs⟩ := yields_pair h
  exact ⟨⟨power, consumption, production, price₁.isSome, price₂.isSome⟩, price₁, price₂, cs₃, cs₄,
    ⟨hpower, hconsumption, hproduction, isSome_of_optionalSeries hprice₁,
      isSome_of_optionalSeries hprice₂⟩, hprice₁, hprice₂, yields_lift h₃, yields_lift h₄,
    hlimits, hcs⟩

end SiteContext

/-! ## Whole requests -/

/-- The steps of a translation, one after the other. -/
structure Request.Steps {α : Type} [Scalar α] (r : Request α) (sooner : Bool) (p : Problem α)
    (tariffs : Tariffs α) (planned : List (Device α × List (Commitment α))) (fixed : List (Device α))
    (siteCommitments stated : List (Commitment α)) : Prop where
  grid : r.grid = .ok p.grid
  prices : r.context.tariffs p.grid = .ok tariffs
  plans : List.Forall₂ (fun d x => (d.device p.grid tariffs sooner).Yields x) r.devices planned
  fixtures : List.Forall₂ (fun d e => d.device p.grid = .ok e) r.context.fixedDevices fixed
  limits : (r.context.limits p.grid).Yields (p.site, siteCommitments)
  raw : List.Forall₂ (fun c e => c.commitment p.grid = .ok e) r.context.commitments stated
  check : p.check = .ok ()
  devices : p.devices = planned.map Prod.fst ++ fixed
  commitments : p.commitments =
    tariffs.commitment p.grid :: planned.flatMap Prod.snd ++ siteCommitments ++ stated

theorem Request.steps_of_toProblem {α : Type} [Scalar α] {r : Request α} {sooner : Bool}
    {p : Problem α} (h : (r.toProblem sooner).1 = .ok p) :
    ∃ tariffs planned fixed siteCommitments stated,
      r.Steps sooner p tariffs planned fixed siteCommitments stated := by
  replace h := yields_of_run h
  rw [assemble] at h
  obtain ⟨g, hg, h⟩ := yields_bind h
  obtain ⟨tariffs, htariffs, h⟩ := yields_bind h
  obtain ⟨planned, hplanned, h⟩ := yields_bind h
  obtain ⟨fixed, hfixed, h⟩ := yields_bind h
  obtain ⟨⟨limits, cs⟩, hlimits, h⟩ := yields_bind h
  obtain ⟨stated, hstated, h⟩ := yields_bind h
  obtain ⟨_, hcheck, h⟩ := yields_bind h
  obtain rfl := yields_pure h
  exact ⟨tariffs, planned, fixed, cs, stated, Checked.mapError_eq_ok.mp (yields_lift hg),
    Checked.mapError_eq_ok.mp (yields_lift htariffs), yields_mapM hplanned,
    Checked.mapM_eq_ok.mp (Checked.mapError_eq_ok.mp (yields_lift hfixed)), yields_adapt hlimits,
    Checked.mapM_eq_ok.mp (Checked.mapError_eq_ok.mp (yields_lift hstated)),
    Checked.mapError_eq_ok.mp (yields_lift hcheck), rfl, rfl⟩

/-- Whether the plans of the device are told apart by charging sooner. -/
def DeviceRequest.prefersSooner (d : DeviceRequest Exact) (sooner : Bool) : Bool :=
  match d.flexModel with
  | .storage m => m.preferChargingSooner.getD sooner
  | .process _ => false

theorem DeviceRequest.states_of_device {d : DeviceRequest Exact} {g : Grid} {tariffs : Tariffs Exact}
    {sooner : Bool} {planned : Device Exact × List (Commitment Exact)}
    (h : (d.device g tariffs sooner).Yields planned) :
    ∃ y, d.States g tariffs.consumption y ∧ planned.1 = y.device g d.name (d.prefersSooner sooner) := by
  unfold device at h
  unfold States prefersSooner
  cases hmodel : d.flexModel with
  | storage m =>
    simp only [hmodel] at h
    obtain ⟨x, _, _, _, hx, -, -, -, hd, -⟩ := StorageModel.parts_of_device (yields_adapt h)
    exact ⟨.storage x, ⟨x, rfl, hx⟩, hd⟩
  | process m =>
    simp only [hmodel] at h
    obtain ⟨device, hdevice, h⟩ := yields_bind h
    obtain rfl := yields_pure h
    obtain ⟨power, hruns, hd⟩ := ProcessModel.runs_of_device (yields_lift hdevice)
    exact ⟨.follows power, ⟨power, rfl, hruns⟩, hd⟩

theorem FixedDevice.powers_of_device {d : FixedDevice Exact} {g : Grid} {e : Device Exact}
    (h : d.device g = .ok e) :
    ∃ power, d.power.required g (fieldOf "inflexible-device-sensors" d.name) .power = .ok power ∧
      e = Device.fixed d.name power := by
  obtain ⟨power, hpower, h⟩ := Checked.bind_eq_ok.mp h
  exact ⟨power, hpower, (Checked.pure_eq_ok.mp h).symm⟩

theorem exists_zipWith {β γ δ ε : Type} {R : β → γ → Prop} {S : β → δ → Prop} {f : β → δ → ε}
    {k : γ → ε} {xs : List β} {ys : List γ} (h : List.Forall₂ R xs ys)
    (hR : ∀ x y, R x y → ∃ z, S x z ∧ k y = f x z) :
    ∃ zs, List.Forall₂ S xs zs ∧ ys.map k = List.zipWith f xs zs := by
  induction h with
  | nil => exact ⟨[], .nil, rfl⟩
  | @cons x y xs ys hxy _ ih =>
    obtain ⟨z, hz, hout⟩ := hR x y hxy
    obtain ⟨zs, hzs, hrest⟩ := ih
    exact ⟨z :: zs, .cons hz hzs, by rw [List.map_cons, List.zipWith_cons_cons, hout, hrest]⟩

theorem map_zipWith_of_fst {β γ δ ε : Type} {R : β → γ → Prop} {f : β → γ → δ} {out : δ → ε}
    {key : β → ε} {xs : List β} {ys : List γ} (h : List.Forall₂ R xs ys)
    (hkey : ∀ x y, out (f x y) = key x) : (List.zipWith f xs ys).map out = xs.map key := by
  induction h with
  | nil => rfl
  | cons _ _ ih => rw [List.zipWith_cons_cons, List.map_cons, List.map_cons, hkey, ih]

theorem forall₂_zipWith {β γ δ : Type} {R : β → γ → Prop} {f : β → γ → δ} {xs : List β}
    {ys : List γ} (h : List.Forall₂ R xs ys) :
    List.Forall₂ (fun y z => ∃ x, R x y ∧ z = f x y) ys (List.zipWith f xs ys) := by
  induction h with
  | nil => exact .nil
  | @cons x _ _ _ hxy _ ih => exact .cons ⟨x, hxy, rfl⟩ ih

/-- The devices and the limits of the site come from what the request states. -/
structure Request.Assembled (r : Request Exact) (sooner : Bool) (p : Problem Exact)
    (x : RequestReading) : Prop where
  check : p.check = .ok ()
  states : r.States p.grid x
  devices : p.devices =
    List.zipWith (fun d y => y.device p.grid d.name (d.prefersSooner sooner)) r.devices x.planned ++
      List.zipWith (fun d power => Device.fixed d.name power) r.context.fixedDevices x.fixed
  site : p.site = x.site.limits p.grid

theorem Request.assembled {r : Request Exact} {sooner : Bool} {p : Problem Exact}
    (h : (r.toProblem sooner).1 = .ok p) : ∃ x, r.Assembled sooner p x := by
  obtain ⟨tariffs, planned, fixed, cs, stated, hsteps⟩ := steps_of_toProblem h
  obtain ⟨site, _, _, _, _, hsite, -, -, -, -, hlimits, -⟩ :=
    SiteContext.parts_of_limits hsteps.limits
  obtain ⟨ys, hys, hplanned⟩ := exists_zipWith hsteps.plans fun d _ hd =>
    DeviceRequest.states_of_device hd
  obtain ⟨powers, hpowers, hfixed⟩ := exists_zipWith (k := id) hsteps.fixtures fun d _ hd =>
    FixedDevice.powers_of_device hd
  rw [List.map_id] at hfixed
  refine ⟨⟨tariffs.consumption, ys, powers, site⟩, hsteps.check,
    ⟨hsteps.grid, (SiteContext.reads_of_tariffs hsteps.prices).1, hys, hpowers, hsite⟩, ?_, hlimits⟩
  rw [hsteps.devices, hplanned, hfixed]

namespace Request.Assembled
variable {r : Request Exact} {sooner : Bool} {p : Problem Exact} {x : RequestReading}

theorem ids (h : r.Assembled sooner p x) :
    p.devices.map Device.id =
      r.devices.map DeviceRequest.name ++ r.context.fixedDevices.map FixedDevice.name := by
  rw [h.devices, List.map_append]
  congr 1
  · exact map_zipWith_of_fst h.states.planned fun d y => y.device_id p.grid d.name _
  · exact map_zipWith_of_fst h.states.fixed fun _ _ => rfl

/-- Every device is made of the reading in its place. -/
theorem forall₂_devices (h : r.Assembled sooner p x) :
    List.Forall₂ (fun y e => DeviceReading.Becomes y p.grid e) x.devices p.devices := by
  rw [h.devices, RequestReading.devices]
  refine List.rel_append ?_ (List.forall₂_map_left_iff.mpr ?_)
  · refine (forall₂_zipWith h.states.planned).imp ?_
    rintro y _ ⟨d, hstates, rfl⟩
    unfold DeviceRequest.States at hstates
    cases hmodel : d.flexModel with
    | storage m =>
      rw [hmodel] at hstates
      obtain ⟨s, rfl, hs⟩ := hstates
      exact ⟨m, d.name, d.prefersSooner sooner, hs, rfl⟩
    | process m =>
      rw [hmodel] at hstates
      obtain ⟨power, rfl, -⟩ := hstates
      exact ⟨d.name, rfl⟩
  · refine (forall₂_zipWith h.states.fixed).imp ?_
    rintro power _ ⟨d, -, rfl⟩
    exact ⟨d.name, rfl⟩

/-- A device of the request stands in its own place. -/
theorem device_of_get (h : r.Assembled sooner p x) {i : ℕ} {d : DeviceRequest Exact}
    (hd : r.devices[i]? = some d) :
    ∃ y, d.States p.grid x.prices y ∧
      p.devices[i]? = some (y.device p.grid d.name (d.prefersSooner sooner)) := by
  obtain ⟨hi, hget⟩ := List.getElem?_eq_some_iff.mp hd
  have hlen := h.states.planned.length_eq
  have hy := (List.forall₂_iff_get.mp h.states.planned).2 i hi (hlen ▸ hi)
  simp only [List.get_eq_getElem, hget] at hy
  refine ⟨x.planned[i], hy, ?_⟩
  have hzip : i < (List.zipWith (fun d y => DeviceReading.device y p.grid d.name
      (d.prefersSooner sooner)) r.devices x.planned).length := by
    rw [List.length_zipWith, ← hlen, min_self]
    exact hi
  rw [h.devices, List.getElem?_append_left hzip, List.getElem?_eq_getElem hzip, List.getElem_zipWith,
    hget]

end Request.Assembled

end Dispatch
