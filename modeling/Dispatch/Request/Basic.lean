import Dispatch.Series.Basic
import Dispatch.Commitment
import Dispatch.Stock
import Dispatch.Request.RunOnce

/-! # Scheduling requests

* `Request`: a horizon, the devices to plan, and the tariffs and capacities of their site.
* `FlexModel`: what is known of one device: a storage, or a process that runs once.
* `SiteContext`: tariffs, capacities, their prices, fixed devices and further commitments.
* `TimeWindow`: an interval in which a device may not run.
-/

namespace Dispatch
set_option autoImplicit false

structure TimeWindow where
  start : String
  stop : Option String
  duration : Option String
deriving DecidableEq, Repr

structure StorageModel (α : Type) where
  socAtStart : Option (Amount α)
  socMin : Option (Amount α)
  socMax : Option (Amount α)
  storageCapacity : Option (Amount α)
  socMinima : Option (Series α)
  socMaxima : Option (Series α)
  socTargets : Option (Series α)
  socMinimaBreachPrice : Option (Amount α)
  socMaximaBreachPrice : Option (Amount α)
  /-- Worth of each kWh left at the end of the horizon; by default the consumption price of the
  last slot. -/
  storedEnergyPrice : Option (Amount α)
  powerCapacity : Option (Series α)
  consumptionCapacity : Option (Series α)
  productionCapacity : Option (Series α)
  chargingEfficiency : Option (Series α)
  dischargingEfficiency : Option (Series α)
  roundtripEfficiency : Option (Amount α)
  storageEfficiency : Option (Series α)
  efficiencyMode : Option Decay
  socGain : Option (Series α)
  socUsage : Option (Series α)
  preferChargingSooner : Option Bool
  timeRestrictions : List TimeWindow
deriving Repr

structure ProcessModel (α : Type) where
  kind : ProcessKind
  power : Amount α
  duration : String
  direction : Direction
  timeRestrictions : List TimeWindow
deriving DecidableEq, Repr

inductive FlexModel (α : Type) where
  | storage (model : StorageModel α)
  | process (model : ProcessModel α)
deriving Repr

structure DeviceRequest (α : Type) where
  name : String
  flexModel : FlexModel α
deriving Repr

/-- A load or a generation known only as a series of powers. -/
structure FixedDevice (α : Type) where
  name : String
  power : Series α
deriving Repr

/-- A commitment as a caller states it. A price per kWh on a flow is scaled by the length of a
slot. -/
structure StatedCommitment (α : Type) where
  name : String
  baseline : Series α
  upPrice : Series α
  downPrice : Series α
  grouping : Grouping
  device : Option String
  kind : CommitmentKind
deriving Repr

structure SiteContext (α : Type) where
  consumptionPrice : Option (Series α)
  productionPrice : Option (Series α)
  powerCapacity : Option (Series α)
  consumptionCapacity : Option (Series α)
  productionCapacity : Option (Series α)
  consumptionBreachPrice : Option (Series α)
  productionBreachPrice : Option (Series α)
  peakConsumption : Option (Series α)
  peakConsumptionPrice : Option (Series α)
  peakProduction : Option (Series α)
  peakProductionPrice : Option (Series α)
  fixedDevices : List (FixedDevice α)
  commitments : List (StatedCommitment α)
deriving Repr

namespace SiteContext

def empty {α : Type} : SiteContext α :=
  ⟨none, none, none, none, none, none, none, none, none, none, none, [], []⟩

end SiteContext

structure Request (α : Type) where
  start : String
  stop : Option String
  duration : Option String
  resolution : String
  zone : Option Zone
  devices : List (DeviceRequest α)
  context : SiteContext α
deriving Repr

variable {α : Type} [Scalar α]

/-! ## Windows -/

namespace TimeWindow

def bounds (w : TimeWindow) (g : Grid) : Checked α (Instant × Instant) := do
  let start ← readInstant g.zone w.start
  let stop ← intervalEnd g.zone start w.stop w.duration
    (.field "time-restrictions" .windowWithoutEnd)
  return (start, stop)

/-- Mark the slots that overlap one of the windows, on top of those marked already. -/
def markFrom (g : Grid) : List Bool → List TimeWindow → Checked α (List Bool)
  | mask, [] => .ok mask
  | mask, w :: rest => do
    let (start, stop) ← w.bounds g
    let hit ← g.overlapping start stop
    markFrom g (mask.zipIdx.map fun (m, j) => m || hit.contains j) rest

def mask (g : Grid) (windows : List TimeWindow) : Checked α (List Bool) :=
  markFrom g (List.replicate g.len false) windows

end TimeWindow

/-! ## The horizon -/

namespace Request

def grid (r : Request α) : Checked α Grid := do
  let zone := r.zone.getD .utc
  let start ← readInstant zone r.start
  let stop ← intervalEnd zone start r.stop r.duration (.field "end" .horizonWithoutEnd)
  let resolution ← Duration.ofText r.resolution
  Grid.make start stop resolution zone

end Request

end Dispatch
