import Dispatch.Request.Basic
import Dispatch.Json.Basic

/-! # Writing requests

* `finiteJson`: a number, or `null` for one that is not finite.
* `Series.toJson`, `FlexModel.toJson`, `Request.toJson`: the JSON forms, every field present and what
  is not stated written as `null`; a segment leaves out what it does not state.
-/

namespace Dispatch
set_option autoImplicit false

variable {α : Type} [Scalar α] [NumJson α]

def finiteJson (x : α) : Json := if Scalar.isFinite x then NumJson.numJson x else .null

def choiceJson {β : Type} [Named β] (b : β) : Json := .string (Named.name b)

def zoneJson (z : Zone) : Json := .string z.name

namespace Amount

def toJson : Amount α → Json
  | number v => finiteJson v
  | text s => .string s

end Amount

/-! ## Series -/

/-- A field that is left out when there is nothing to write. -/
def present (key : String) : Option String → List (String × Json)
  | none => []
  | some s => [(key, .string s)]

namespace Segment

def toJson (s : Segment α) : Json :=
  .object (present "datetime" s.datetime ++ present "start" s.start ++ present "end" s.stop ++
    present "duration" s.duration ++ [("value", s.value.toJson)])

end Segment

namespace AlignedSeries

def toJson (s : AlignedSeries α) : Json :=
  .object [("start", .string s.start), ("resolution", .string s.resolution),
    ("values", .array (s.values.map finiteJson)), ("unit", Json.optional .string s.unit),
    ("timezone", Json.optional zoneJson s.zone)]

end AlignedSeries

namespace Series

def toJson : Series α → Json
  | constant a => a.toJson
  | segments items => .array (items.map Segment.toJson)
  | aligned s => s.toJson

end Series

def amountJson (a : Option (Amount α)) : Json := Json.optional Amount.toJson a

def seriesJson (s : Option (Series α)) : Json := Json.optional Series.toJson s

/-! ## Devices -/

namespace TimeWindow

def toJson (w : TimeWindow) : Json :=
  .object [("start", .string w.start), ("end", Json.optional .string w.stop),
    ("duration", Json.optional .string w.duration)]

end TimeWindow

namespace StorageModel

def toJson (m : StorageModel α) : Json :=
  .object [("soc-at-start", amountJson m.socAtStart), ("soc-min", amountJson m.socMin),
    ("soc-max", amountJson m.socMax), ("storage-capacity", amountJson m.storageCapacity),
    ("soc-minima", seriesJson m.socMinima), ("soc-maxima", seriesJson m.socMaxima),
    ("soc-targets", seriesJson m.socTargets),
    ("soc-minima-breach-price", amountJson m.socMinimaBreachPrice),
    ("soc-maxima-breach-price", amountJson m.socMaximaBreachPrice),
    ("stored-energy-price", amountJson m.storedEnergyPrice),
    ("power-capacity", seriesJson m.powerCapacity),
    ("consumption-capacity", seriesJson m.consumptionCapacity),
    ("production-capacity", seriesJson m.productionCapacity),
    ("charging-efficiency", seriesJson m.chargingEfficiency),
    ("discharging-efficiency", seriesJson m.dischargingEfficiency),
    ("roundtrip-efficiency", amountJson m.roundtripEfficiency),
    ("storage-efficiency", seriesJson m.storageEfficiency),
    ("efficiency-mode", Json.optional choiceJson m.efficiencyMode),
    ("soc-gain", seriesJson m.socGain), ("soc-usage", seriesJson m.socUsage),
    ("prefer-charging-sooner", Json.optional .bool m.preferChargingSooner),
    ("time-restrictions", .array (m.timeRestrictions.map TimeWindow.toJson))]

end StorageModel

namespace ProcessModel

def toJson (m : ProcessModel α) : Json :=
  .object [("process-type", choiceJson m.kind), ("power", m.power.toJson),
    ("duration", .string m.duration), ("optimization-direction", choiceJson m.direction),
    ("time-restrictions", .array (m.timeRestrictions.map TimeWindow.toJson))]

end ProcessModel

namespace FlexModel

def toJson : FlexModel α → Json
  | storage m => m.toJson
  | process m => m.toJson

end FlexModel

namespace DeviceRequest

def toJson (d : DeviceRequest α) : Json :=
  .object [("name", .string d.name), ("flex-model", d.flexModel.toJson)]

end DeviceRequest

/-! ## The site -/

namespace FixedDevice

def toJson (d : FixedDevice α) : Json :=
  .object [("name", .string d.name), ("power", d.power.toJson)]

end FixedDevice

namespace StatedCommitment

def toJson (c : StatedCommitment α) : Json :=
  .object [("name", .string c.name), ("baseline", c.baseline.toJson),
    ("up-price", c.upPrice.toJson), ("down-price", c.downPrice.toJson),
    ("type", choiceJson c.grouping), ("device", Json.optional .string c.device),
    ("class", choiceJson c.kind)]

end StatedCommitment

namespace SiteContext

def toJson (c : SiteContext α) : Json :=
  .object [("consumption-price", seriesJson c.consumptionPrice),
    ("production-price", seriesJson c.productionPrice),
    ("site-power-capacity", seriesJson c.powerCapacity),
    ("site-consumption-capacity", seriesJson c.consumptionCapacity),
    ("site-production-capacity", seriesJson c.productionCapacity),
    ("site-consumption-breach-price", seriesJson c.consumptionBreachPrice),
    ("site-production-breach-price", seriesJson c.productionBreachPrice),
    ("site-peak-consumption", seriesJson c.peakConsumption),
    ("site-peak-consumption-price", seriesJson c.peakConsumptionPrice),
    ("site-peak-production", seriesJson c.peakProduction),
    ("site-peak-production-price", seriesJson c.peakProductionPrice),
    ("inflexible-device-sensors", .array (c.fixedDevices.map FixedDevice.toJson)),
    ("commitments", .array (c.commitments.map StatedCommitment.toJson))]

end SiteContext

/-! ## The request -/

namespace Request

def toJson (r : Request α) : Json :=
  .object [("start", .string r.start), ("end", Json.optional .string r.stop),
    ("duration", Json.optional .string r.duration), ("resolution", .string r.resolution),
    ("timezone", Json.optional zoneJson r.zone),
    ("devices", .array (r.devices.map DeviceRequest.toJson)),
    ("flex-context", r.context.toJson)]

end Request

end Dispatch
