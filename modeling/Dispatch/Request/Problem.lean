import Dispatch.Request.Basic
import Dispatch.Failure
import Dispatch.Warning
import Dispatch.Problem

/-! # From requests to problems

* `Tariffs`: the prices of energy bought and sold, slot by slot.
* `StorageModel.device`: a storage as a device, with the commitments that price its levels.
* `SiteContext.limits`: the hard limits of the site and the commitments that price the others.
* `Request.toProblem`: the problem of a request, with the warnings given on the way.

Every tariff, capacity and preference becomes a hard limit or a priced commitment. Prices per kWh
are scaled by the length of a slot, so that every price is per kW of deviation in one slot.
-/

namespace Dispatch
set_option autoImplicit false

variable {α : Type} [Scalar α]
open Scalar

def scaledBy (g : Grid) (factor : α) (values : List α) : List α :=
  values.map fun v => v * factor * g.hours

def allZero (g : Grid) : List α := List.replicate g.len 0

def optionalSeries (g : Grid) (s : Option (Series α)) (field : String) (expected : Dimension) :
    Checked α (Option (List α)) :=
  match s with
  | none => .ok none
  | some s => do
    let values ← s.required g field expected
    return some values

def optionalAmount (a : Option (Amount α)) (field : String) (expected : Dimension)
    (reference : Option α) : Checked α (Option α) :=
  match a with
  | none => .ok none
  | some a => do
    let v ← a.resolve field expected reference
    return some v

/-! ## Energy prices -/

structure Tariffs (α : Type) where
  consumption : List α
  production : List α
deriving DecidableEq, Repr

namespace SiteContext

/-- Without a production price, energy is sold at the consumption price. -/
def tariffs (c : SiteContext α) (g : Grid) : Checked α (Tariffs α) :=
  match c.consumptionPrice with
  | none => .error (.field "consumption-price" .priceRequired)
  | some bought => do
    let consumption ← bought.required g "consumption-price" .energyPrice
    match c.productionPrice with
    | none => return ⟨consumption, consumption⟩
    | some sold =>
      match bought.currency, sold.currency with
      | some b, some s =>
        if b ≠ s then .error (.field "production-price" (.currencyDiffers s b))
      | _, _ => pure ()
      let production ← sold.required g "production-price" .energyPrice
      return ⟨consumption, production⟩

end SiteContext

/-- Buying costs the consumption price, selling earns the production price. -/
def Tariffs.commitment (t : Tariffs α) (g : Grid) : Commitment α :=
  .siteFlow "energy" (List.replicate g.len (some 0)) (scaledBy g 1 t.consumption)
    (scaledBy g (-1) t.production) .each

/-! ## Limits of the site -/

/-- A capacity that may be breached: the largest excursion is priced once, and every slot's
excursion as energy. -/
def breachPair (g : Grid) (kind : String) (baseline : List (Option α)) (price : List α)
    (upwards : Bool) : List (Commitment α) :=
  let zero := allZero g
  let perSlot := scaledBy g 1 price
  let pair (name : String) (p : List α) (grouping : Grouping) : Commitment α :=
    if upwards then .siteFlow name baseline p zero grouping
    else .siteFlow name baseline zero p grouping
  [pair ("any " ++ kind ++ " breach") price .any,
    pair ("all " ++ kind ++ " breaches") perSlot .each]

def peakCommitment (g : Grid) (kind : String) (baseline price : List α) (upwards : Bool) :
    Commitment α :=
  let zero := allZero g
  let quantity := baseline.map some
  if upwards then .siteFlow (kind ++ " peak") quantity price zero .any
  else .siteFlow (kind ++ " peak") quantity zero price .any

namespace SiteContext

def powerLimits (c : SiteContext α) (g : Grid) : Checked α (SiteLimits α) := do
  match ← optionalSeries g c.powerCapacity "site-power-capacity" .power with
  | none => return .unbounded g.len
  | some cap =>
    return (SiteLimits.unbounded g.len).tighten (cap.map fun x => -(Scalar.abs x))
      (cap.map Scalar.abs)

/-- A capacity with a price may be breached; without one it is a hard limit. -/
def consumptionLimits (c : SiteContext α) (g : Grid) (limits : SiteLimits α) :
    Warned (Fault α) (SiteLimits α × List (Commitment α)) := do
  let cap ← Warned.lift (optionalSeries g c.consumptionCapacity "site-consumption-capacity" .power)
  let price ← Warned.lift
    (optionalSeries g c.consumptionBreachPrice "site-consumption-breach-price" .powerPrice)
  match cap, price with
  | some cap, some price => return (limits, breachPair g "consumption" (cap.map some) price true)
  | some cap, none => return (limits.tighten (List.replicate g.len negInfinity) cap, [])
  | none, some _ => do
    Warned.warn .consumptionBreachIgnored
    return (limits, [])
  | none, none => return (limits, [])

def productionLimits (c : SiteContext α) (g : Grid) (limits : SiteLimits α) :
    Warned (Fault α) (SiteLimits α × List (Commitment α)) := do
  let cap ← Warned.lift (optionalSeries g c.productionCapacity "site-production-capacity" .power)
  let price ← Warned.lift
    (optionalSeries g c.productionBreachPrice "site-production-breach-price" .powerPrice)
  match cap, price with
  | some cap, some price =>
    return (limits, breachPair g "production" (cap.map fun x => some (-x)) price false)
  | some cap, none =>
    return (limits.tighten (cap.map fun x => -x) (List.replicate g.len infinity), [])
  | none, some _ => do
    Warned.warn .productionBreachIgnored
    return (limits, [])
  | none, none => return (limits, [])

/-- A priced peak without a baseline is measured from zero. -/
def consumptionPeak (c : SiteContext α) (g : Grid) : Checked α (List (Commitment α)) := do
  match ← optionalSeries g c.peakConsumptionPrice "site-peak-consumption-price" .powerPrice with
  | none => return []
  | some price =>
    let peak ← optionalSeries g c.peakConsumption "site-peak-consumption" .power
    return [peakCommitment g "consumption" (peak.getD (allZero g)) price true]

def productionPeak (c : SiteContext α) (g : Grid) : Checked α (List (Commitment α)) := do
  match ← optionalSeries g c.peakProductionPrice "site-peak-production-price" .powerPrice with
  | none => return []
  | some price =>
    let peak ← optionalSeries g c.peakProduction "site-peak-production" .power
    return [peakCommitment g "production" ((peak.getD (allZero g)).map fun x => -x) price false]

def limits (c : SiteContext α) (g : Grid) :
    Warned (Fault α) (SiteLimits α × List (Commitment α)) := do
  let limits ← Warned.lift (c.powerLimits g)
  let (limits, consumption) ← c.consumptionLimits g limits
  let (limits, production) ← c.productionLimits g limits
  let consumptionPeak ← Warned.lift (c.consumptionPeak g)
  let productionPeak ← Warned.lift (c.productionPeak g)
  return (limits, consumption ++ production ++ consumptionPeak ++ productionPeak)

end SiteContext

/-! ## Storages -/

/-- The energy left at the end of the horizon counts at its price, from the initial level on. -/
def storedEnergy (g : Grid) (device : String) (initial price : α) : Commitment α :=
  let lastOnly {β : Type} (rest last : β) : List β :=
    match g.len with
    | 0 => []
    | n + 1 => List.replicate n rest ++ [last]
  .deviceStock (device ++ ": stored energy") device (lastOnly none (some initial))
    (lastOnly 0 (-price)) (lastOnly 0 price) .each

/-- Priced limits of a level: the worst breach once, and every slot's breach as energy. -/
def levelBreaches (g : Grid) (device kind : String) (levels : List (Option α)) (price : α)
    (upwards : Bool) : List (Commitment α) :=
  if levels.all Option.isNone then []
  else
    let zero := allZero g
    let pair (name : String) (p : α) (grouping : Grouping) : Commitment α :=
      let prices := List.replicate g.len p
      if upwards then .deviceStock name device levels prices zero grouping
      else .deviceStock name device levels zero prices grouping
    [pair (device ++ ": any soc " ++ kind) price .any,
      pair (device ++ ": all soc " ++ kind) (price * g.hours) .each]

def fieldOf (owner key : String) : String := owner ++ "." ++ key

namespace StorageModel

def capacity (m : StorageModel α) (name : String) : Checked α (Option α) :=
  match m.storageCapacity, m.socMax with
  | some c, _ => optionalAmount (some c) (fieldOf name "storage-capacity") .energy none
  | none, max => optionalAmount max (fieldOf name "soc-max") .energy none

/-- The levels at the ends of the slots, gaps where nothing is stated. -/
def levels (g : Grid) (s : Option (Series α)) (field : String) (capacity : Option α) :
    Checked α (List (Option α)) :=
  match s with
  | none => .ok (List.replicate g.len none)
  | some s => s.stateValues g field .energy capacity

def seriesOr (g : Grid) (s : Option (Series α)) (field : String) (expected : Dimension)
    (default : α) : Checked α (List α) :=
  match s with
  | none => .ok (List.replicate g.len default)
  | some s => s.valuesOr g field expected default

def powerBand (m : StorageModel α) (g : Grid) (name : String) :
    Checked α (List α × List α) := do
  let series (s : Option (Series α)) (key : String) :=
    optionalSeries g s (fieldOf name key) .power
  let power ← series m.powerCapacity "power-capacity"
  let consumption ← series m.consumptionCapacity "consumption-capacity"
  let production ← series m.productionCapacity "production-capacity"
  if power.isNone && consumption.isNone && production.isNone then .error (.device name .noPower)
  let max := (consumption.or power).getD (allZero g)
  let min := ((production.or power).getD (allZero g)).map fun p => -p
  let restricted ← TimeWindow.mask g m.timeRestrictions
  let idle (xs : List α) : List α := List.zipWith (fun x r => if r then 0 else x) xs restricted
  return (idle min, idle max)

def raised (limits : List α) (minima : List (Option α)) : List α :=
  List.zipWith (fun lo m => maxNum lo (m.getD negInfinity)) limits minima

def lowered (limits : List α) (maxima : List (Option α)) : List α :=
  List.zipWith (fun hi m => minNum hi (m.getD infinity)) limits maxima

/-- The efficiencies of the stock and the change from outside, in the order in which their fields
are read. -/
def dynamics (m : StorageModel α) (g : Grid) (name : String) (s : Stock α) :
    Checked α (Stock α) := do
  let field := fieldOf name
  let roundtrip ← optionalAmount m.roundtripEfficiency (field "roundtrip-efficiency") .ratio none
  let oneWay := match roundtrip with
    | some r => sqrt r
    | none => 1
  let gain ← seriesOr g m.socGain (field "soc-gain") .power 0
  let usage ← seriesOr g m.socUsage (field "soc-usage") .power 0
  let etaUp ← seriesOr g m.chargingEfficiency (field "charging-efficiency") .ratio oneWay
  let etaDown ← seriesOr g m.dischargingEfficiency (field "discharging-efficiency") .ratio oneWay
  let kept ← seriesOr g m.storageEfficiency (field "storage-efficiency") .ratio 1
  return { s with
    etaUp := etaUp
    etaDown := etaDown
    retention := kept.map fun perHour => pow perHour g.hours
    delta := List.zipWith (fun gained used => (gained - used) * g.hours) gain usage }

/-- A storage and the commitments on its level. `sooner` stands in where the model does not say
whether to charge sooner. -/
def device (m : StorageModel α) (g : Grid) (name : String) (tariffs : Tariffs α)
    (sooner : Bool) : Warned (Fault α) (Device α × List (Commitment α)) := do
  let field := fieldOf name
  let capacity ← Warned.lift (m.capacity name)
  let level (a : Option (Amount α)) (key : String) :=
    Warned.lift (optionalAmount a (field key) .energy capacity)
  let initial ← match ← level m.socAtStart "soc-at-start" with
    | some soc => pure soc
    | none => do
      Warned.warn .emptyStorageAssumed
      pure 0
  let socMin := (← level m.socMin "soc-min").getD 0
  let socMax := ((← level m.socMax "soc-max").or capacity).getD infinity
  let minima ← Warned.lift (levels g m.socMinima (field "soc-minima") capacity)
  let maxima ← Warned.lift (levels g m.socMaxima (field "soc-maxima") capacity)
  let targets ← Warned.lift (levels g m.socTargets (field "soc-targets") capacity)
  let price (a : Option (Amount α)) (key : String) :=
    Warned.lift (optionalAmount a (field key) .energyPrice none)
  let minimaPrice ← price m.socMinimaBreachPrice "soc-minima-breach-price"
  let maximaPrice ← price m.socMaximaBreachPrice "soc-maxima-breach-price"
  let storedPrice := (← price m.storedEnergyPrice "stored-energy-price").getD
    (tariffs.consumption.getLastD 0)
  let lowest := List.replicate g.len socMin
  let highest := List.replicate g.len socMax
  let (lowest, softMinima) := match minimaPrice with
    | some p => (lowest, levelBreaches g name "minima" minima p false)
    | none => (raised lowest minima, [])
  let (highest, softMaxima) := match maximaPrice with
    | some p => (highest, levelBreaches g name "maxima" maxima p true)
    | none => (lowered highest maxima, [])
  let limited : Stock α := { Stock.ideal initial g.len with
    min := lowest.map (· - initial)
    max := highest.map (· - initial)
    equals := targets.map fun t => t.map (· - initial)
    mode := m.efficiencyMode.getD .linear }
  let stock ← Warned.lift (m.dynamics g name limited)
  let (powerMin, powerMax) ← Warned.lift (m.powerBand g name)
  let device : Device α := { Device.flexible name powerMin powerMax with
    stock := some stock
    chargeSooner := m.preferChargingSooner.getD sooner }
  return (device, storedEnergy g name initial storedPrice :: softMinima ++ softMaxima)

end StorageModel

/-! ## Processes -/

namespace ProcessModel

/-- A process occupies a whole number of slots, the last one possibly in part. -/
def slotCount (g : Grid) (duration : Span) : Nat :=
  let step := g.resolution.wholeSeconds
  ((max duration.wholeSeconds 0 + step - 1).tdiv step).toNat

def device (m : ProcessModel α) (g : Grid) (name : String) (prices : List α) :
    Except (Failure α) (Device α) := do
  let valid {β : Type} (r : Checked α β) : Except (Failure α) β := r.mapError Failure.invalid
  let power ← valid (m.power.resolve (fieldOf name "power") .power none)
  let duration ← valid (Checked.inField (fieldOf name "duration") (Duration.ofText m.duration))
  let restricted ← valid (TimeWindow.mask g m.timeRestrictions)
  let process : RunOnce α := ⟨name, m.kind, power, slotCount g duration, restricted, m.direction⟩
  match process.place prices with
  | .ok power => return Device.fixed name power
  | .error cause =>
    .error (.infeasible (.unplaceable name m.kind process.slots cause))

end ProcessModel

/-! ## Stated commitments -/

namespace StatedCommitment

/-- Prices as a commitment charges them. On a flow, a price per kWh is scaled by the length of a slot,
and a bare number is read per kWh. -/
def prices (g : Grid) (s : Series α) (field : String) (kind : CommitmentKind) :
    Checked α (List α) := do
  let dimension ← s.dimension
  let values ← s.valuesOr g field dimension 0
  if (dimension = .energyPrice ∨ dimension = .dimensionless) ∧ kind = .flow then
    return scaledBy g 1 values
  else return values

def commitment (c : StatedCommitment α) (g : Grid) : Checked α (Commitment α) := do
  let field := fieldOf (fieldOf "commitments" c.name)
  let quantity ← match c.kind with
    | .flow => c.baseline.flowValues g (field "baseline") .power none
    | .stock => c.baseline.stateValues g (field "baseline") .energy none
  let up ← prices g c.upPrice (field "up-price") c.kind
  let down ← prices g c.downPrice (field "down-price") c.kind
  return ⟨c.name, c.kind, c.device, quantity, up, down, c.grouping⟩

end StatedCommitment

/-! ## Requests -/

namespace FixedDevice

def device (d : FixedDevice α) (g : Grid) : Checked α (Device α) := do
  let power ← d.power.required g (fieldOf "inflexible-device-sensors" d.name) .power
  return Device.fixed d.name power

end FixedDevice

namespace DeviceRequest

def device (d : DeviceRequest α) (g : Grid) (tariffs : Tariffs α) (sooner : Bool) :
    Warned (Failure α) (Device α × List (Commitment α)) :=
  match d.flexModel with
  | .storage m => ExceptT.adapt Failure.invalid (m.device g d.name tariffs sooner)
  | .process m => do
    let device ← Warned.lift (m.device g d.name tariffs.consumption)
    return (device, [])

end DeviceRequest

namespace Request

/-- Processes are placed on the way; one without a place leaves no problem. -/
def assemble (r : Request α) (sooner : Bool) : Warned (Failure α) (Problem α) := do
  let valid {β : Type} (x : Checked α β) : Warned (Failure α) β :=
    Warned.lift (x.mapError Failure.invalid)
  let g ← valid r.grid
  let tariffs ← valid (r.context.tariffs g)
  let planned ← r.devices.mapM fun d => d.device g tariffs sooner
  let fixed ← valid (r.context.fixedDevices.mapM fun d => d.device g)
  let (site, siteCommitments) ← ExceptT.adapt Failure.invalid (r.context.limits g)
  let stated ← valid (r.context.commitments.mapM fun c => c.commitment g)
  let problem : Problem α := {
    grid := g
    devices := planned.map Prod.fst ++ fixed
    commitments :=
      tariffs.commitment g :: planned.flatMap Prod.snd ++ siteCommitments ++ stated
    site := site }
  valid problem.check
  return problem

def toProblem (r : Request α) (sooner : Bool) : Except (Failure α) (Problem α) × List Warning :=
  (r.assemble sooner).run

end Request

end Dispatch
