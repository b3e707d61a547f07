import Dispatch.Request.Basic
import Dispatch.Json.Record
import Dispatch.Time.ZoneTable

/-! # Reading requests

* `Series.ofJson?`, `TimeWindow.ofJson?`, `FlexModel.ofJson?`, `Request.ofJson?`: the JSON forms.

A request may hold only the keys it knows; a segment, an aligned series and a window may hold others.
A flex-model with the key `process-type` is a process, any other a storage. Zones are found by their
names in the table at hand.
-/

namespace Dispatch
set_option autoImplicit false

variable {α : Type} [Scalar α]

/-- A choice: its name, or an object with its name as the only key and no value. -/
def choice? {β : Type} [Named β] : Json → Option β
  | .string s => Named.ofName? s
  | .object [(key, .null)] => Named.ofName? key
  | _ => none

def zone? [ZoneTable] : Json → Option Zone
  | .string s => ZoneTable.ofName? s
  | _ => none

/-- A number; none if its numeral stands for one beyond the finite ones. -/
def scalar? : Json → Option α
  | .number d _ =>
    let v : α := Scalar.ofDecimal d
    if Scalar.isFinite v then some v else none
  | _ => none

namespace Amount

def ofJson? : Json → Option (Amount α)
  | .string s => some (text s)
  | j => (scalar? j).map number

end Amount

/-! ## Series -/

namespace Segment

def shape : RecordShape where
  keys := [("datetime", true), ("start", true), ("end", true), ("duration", true),
    ("value", false)]
  closed := false

def ofJson? (j : Json) : Option (Segment α) := do
  let r ← shape.read? j
  return {
    datetime := ← r.maybe "datetime" Json.string?
    start := ← r.maybe "start" Json.string?
    stop := ← r.maybe "end" Json.string?
    duration := ← r.maybe "duration" Json.string?
    value := ← r.need "value" Amount.ofJson? }

end Segment

namespace AlignedSeries

def shape : RecordShape where
  keys := [("start", false), ("resolution", false), ("values", false), ("unit", true),
    ("timezone", true)]
  closed := false

def ofJson? [ZoneTable] (j : Json) : Option (AlignedSeries α) := do
  let r ← shape.read? j
  return {
    start := ← r.need "start" Json.string?
    resolution := ← r.need "resolution" Json.string?
    values := ← r.need "values" (Json.listOf? scalar?)
    unit := ← r.maybe "unit" Json.string?
    zone := ← r.maybe "timezone" zone? }

end AlignedSeries

namespace Series

/-- The first form that fits: an amount, a list of segments, samples. -/
def ofJson? [ZoneTable] (j : Json) : Option (Series α) :=
  match Amount.ofJson? j with
  | some a => some (constant a)
  | none =>
    match Json.listOf? Segment.ofJson? j with
    | some items => some (segments items)
    | none => (AlignedSeries.ofJson? j).map aligned

end Series

/-! ## Devices -/

namespace TimeWindow

def shape : RecordShape where
  keys := [("start", false), ("end", true), ("duration", true)]
  closed := false

def ofJson? (j : Json) : Option TimeWindow := do
  let r ← shape.read? j
  return {
    start := ← r.need "start" Json.string?
    stop := ← r.maybe "end" Json.string?
    duration := ← r.maybe "duration" Json.string? }

end TimeWindow

namespace StorageModel

def shape : RecordShape where
  keys := [("soc-at-start", false), ("soc-min", false), ("soc-max", false),
    ("storage-capacity", false), ("soc-minima", false), ("soc-maxima", false),
    ("soc-targets", false), ("soc-minima-breach-price", false),
    ("soc-maxima-breach-price", false), ("stored-energy-price", false),
    ("power-capacity", false), ("consumption-capacity", false), ("production-capacity", false),
    ("charging-efficiency", false), ("discharging-efficiency", false),
    ("roundtrip-efficiency", false), ("storage-efficiency", false), ("efficiency-mode", false),
    ("soc-gain", false), ("soc-usage", false), ("prefer-charging-sooner", false),
    ("time-restrictions", true)]
  closed := true

def ofJson? [ZoneTable] (j : Json) : Option (StorageModel α) := do
  let r ← shape.read? j
  return {
    socAtStart := ← r.maybe "soc-at-start" Amount.ofJson?
    socMin := ← r.maybe "soc-min" Amount.ofJson?
    socMax := ← r.maybe "soc-max" Amount.ofJson?
    storageCapacity := ← r.maybe "storage-capacity" Amount.ofJson?
    socMinima := ← r.maybe "soc-minima" Series.ofJson?
    socMaxima := ← r.maybe "soc-maxima" Series.ofJson?
    socTargets := ← r.maybe "soc-targets" Series.ofJson?
    socMinimaBreachPrice := ← r.maybe "soc-minima-breach-price" Amount.ofJson?
    socMaximaBreachPrice := ← r.maybe "soc-maxima-breach-price" Amount.ofJson?
    storedEnergyPrice := ← r.maybe "stored-energy-price" Amount.ofJson?
    powerCapacity := ← r.maybe "power-capacity" Series.ofJson?
    consumptionCapacity := ← r.maybe "consumption-capacity" Series.ofJson?
    productionCapacity := ← r.maybe "production-capacity" Series.ofJson?
    chargingEfficiency := ← r.maybe "charging-efficiency" Series.ofJson?
    dischargingEfficiency := ← r.maybe "discharging-efficiency" Series.ofJson?
    roundtripEfficiency := ← r.maybe "roundtrip-efficiency" Amount.ofJson?
    storageEfficiency := ← r.maybe "storage-efficiency" Series.ofJson?
    efficiencyMode := ← r.maybe "efficiency-mode" choice?
    socGain := ← r.maybe "soc-gain" Series.ofJson?
    socUsage := ← r.maybe "soc-usage" Series.ofJson?
    preferChargingSooner := ← r.maybe "prefer-charging-sooner" Json.bool?
    timeRestrictions := ← r.orElse "time-restrictions" [] (Json.listOf? TimeWindow.ofJson?) }

end StorageModel

namespace ProcessModel

def shape : RecordShape where
  keys := [("process-type", false), ("power", false), ("duration", false),
    ("optimization-direction", true), ("time-restrictions", true)]
  closed := true

def ofJson? (j : Json) : Option (ProcessModel α) := do
  let r ← shape.read? j
  return {
    kind := ← r.need "process-type" choice?
    power := ← r.need "power" Amount.ofJson?
    duration := ← r.need "duration" Json.string?
    direction := ← r.orElse "optimization-direction" .min choice?
    timeRestrictions := ← r.orElse "time-restrictions" [] (Json.listOf? TimeWindow.ofJson?) }

end ProcessModel

namespace FlexModel

def ofJson? [ZoneTable] (j : Json) : Option (FlexModel α) :=
  if j.hasKey "process-type" then (ProcessModel.ofJson? j).map process
  else (StorageModel.ofJson? j).map storage

end FlexModel

namespace DeviceRequest

def shape : RecordShape where
  keys := [("name", false), ("flex-model", false)]
  closed := true

def ofJson? [ZoneTable] (j : Json) : Option (DeviceRequest α) := do
  let r ← shape.read? j
  return {
    name := ← r.need "name" Json.string?
    flexModel := ← r.need "flex-model" FlexModel.ofJson? }

end DeviceRequest

/-! ## The site -/

namespace FixedDevice

def shape : RecordShape where
  keys := [("name", false), ("power", false)]
  closed := true

def ofJson? [ZoneTable] (j : Json) : Option (FixedDevice α) := do
  let r ← shape.read? j
  return {
    name := ← r.need "name" Json.string?
    power := ← r.need "power" Series.ofJson? }

end FixedDevice

namespace StatedCommitment

def shape : RecordShape where
  keys := [("name", false), ("baseline", false), ("up-price", true), ("down-price", true),
    ("type", true), ("device", true), ("class", true)]
  closed := true

def noPrice : Series α := .constant (.number 0)

def ofJson? [ZoneTable] (j : Json) : Option (StatedCommitment α) := do
  let r ← shape.read? j
  return {
    name := ← r.need "name" Json.string?
    baseline := ← r.need "baseline" Series.ofJson?
    upPrice := ← r.orElse "up-price" noPrice Series.ofJson?
    downPrice := ← r.orElse "down-price" noPrice Series.ofJson?
    grouping := ← r.orElse "type" .each choice?
    device := ← r.maybe "device" Json.string?
    kind := ← r.orElse "class" .flow choice? }

end StatedCommitment

namespace SiteContext

def shape : RecordShape where
  keys := [("consumption-price", false), ("production-price", false),
    ("site-power-capacity", false), ("site-consumption-capacity", false),
    ("site-production-capacity", false), ("site-consumption-breach-price", false),
    ("site-production-breach-price", false), ("site-peak-consumption", false),
    ("site-peak-consumption-price", false), ("site-peak-production", false),
    ("site-peak-production-price", false), ("inflexible-device-sensors", true),
    ("commitments", true)]
  closed := true

def ofJson? [ZoneTable] (j : Json) : Option (SiteContext α) := do
  let r ← shape.read? j
  return {
    consumptionPrice := ← r.maybe "consumption-price" Series.ofJson?
    productionPrice := ← r.maybe "production-price" Series.ofJson?
    powerCapacity := ← r.maybe "site-power-capacity" Series.ofJson?
    consumptionCapacity := ← r.maybe "site-consumption-capacity" Series.ofJson?
    productionCapacity := ← r.maybe "site-production-capacity" Series.ofJson?
    consumptionBreachPrice := ← r.maybe "site-consumption-breach-price" Series.ofJson?
    productionBreachPrice := ← r.maybe "site-production-breach-price" Series.ofJson?
    peakConsumption := ← r.maybe "site-peak-consumption" Series.ofJson?
    peakConsumptionPrice := ← r.maybe "site-peak-consumption-price" Series.ofJson?
    peakProduction := ← r.maybe "site-peak-production" Series.ofJson?
    peakProductionPrice := ← r.maybe "site-peak-production-price" Series.ofJson?
    fixedDevices :=
      ← r.orElse "inflexible-device-sensors" [] (Json.listOf? FixedDevice.ofJson?)
    commitments := ← r.orElse "commitments" [] (Json.listOf? StatedCommitment.ofJson?) }

end SiteContext

/-! ## The request -/

namespace Request

def shape : RecordShape where
  keys := [("start", false), ("end", true), ("duration", true), ("resolution", false),
    ("timezone", true), ("devices", false), ("flex-context", true)]
  closed := true

def ofJson? [ZoneTable] (j : Json) : Option (Request α) := do
  let r ← shape.read? j
  return {
    start := ← r.need "start" Json.string?
    stop := ← r.maybe "end" Json.string?
    duration := ← r.maybe "duration" Json.string?
    resolution := ← r.need "resolution" Json.string?
    zone := ← r.maybe "timezone" zone?
    devices := ← r.need "devices" (Json.listOf? DeviceRequest.ofJson?)
    context := ← r.orElse "flex-context" .empty SiteContext.ofJson? }

end Request

end Dispatch
