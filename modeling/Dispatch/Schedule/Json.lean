import Dispatch.Schedule.Basic
import Dispatch.Schedule.Id
import Dispatch.Request.Reader
import Dispatch.Request.Writer

/-! # Schedules in JSON

* `Schedule.toJson`: a schedule as a caller gets it; a number that is not finite is `null`.
* `StoredSchedule`: a schedule with its identifier and the time it was made.
* `StoredSchedule.toJson`, `StoredSchedule.ofJson?`: writing it down and reading it back.
-/

namespace Dispatch
set_option autoImplicit false

/-! ## Writing -/

section
variable {α : Type} [Scalar α] [NumJson α]

def timeJson (t : LocalTime) : Json := .string t.stampZ

def numsJson (xs : List α) : Json := .array (xs.map finiteJson)

namespace ScheduleEntry

def toJson (e : ScheduleEntry α) : Json :=
  .object [("time_start", timeJson e.start), ("time_end", timeJson e.stop),
    ("target_power_kw", finiteJson e.power), ("reason", .string e.reason)]

end ScheduleEntry

namespace DeviceSchedule

def toJson (d : DeviceSchedule α) : Json :=
  .object ([("device", .string d.device), ("entries", .array (d.entries.map ScheduleEntry.toJson))] ++
    match d.stock with
    | none => []
    | some levels => [("stock_kwh", numsJson levels)])

end DeviceSchedule

namespace CommitmentCost

def toJson (c : CommitmentCost α) : Json :=
  .object [("name", .string c.name), ("cost", finiteJson c.cost),
    ("upwards_deviation", finiteJson c.upDeviation),
    ("downwards_deviation", finiteJson c.downDeviation)]

end CommitmentCost

namespace Costs

def toJson (c : Costs α) : Json :=
  .object [("commitments", .array (c.commitments.map CommitmentCost.toJson)),
    ("total", finiteJson c.total), ("tie_break", finiteJson c.tieBreak),
    ("objective", finiteJson c.objective)]

end Costs

namespace Schedule

def fields (s : Schedule α) : List (String × Json) :=
  [("status", .string (Named.name s.status)), ("valid_from", timeJson s.validFrom),
    ("valid_until", timeJson s.validUntil),
    ("devices", .array (s.devices.map DeviceSchedule.toJson)),
    ("ems_power_kw", numsJson s.sitePowers), ("costs", s.costs.toJson),
    ("optimizer_version", .string s.version)]

def toJson (s : Schedule α) : Json := .object s.fields

end Schedule

end

/-! ## Stored schedules -/

structure StoredSchedule (α : Type) where
  id : ScheduleId
  createdAt : LocalTime
  schedule : Schedule α
deriving DecidableEq, Repr

namespace StoredSchedule
variable {α : Type}

def toJson [Scalar α] [NumJson α] (s : StoredSchedule α) : Json :=
  .object ([("id", .string s.id.text), ("created_at", timeJson s.createdAt)] ++ s.schedule.fields)

end StoredSchedule

/-! ## Reading -/

section
variable {α : Type} [Scalar α]

def time? (j : Json) : Option LocalTime := j.string?.bind fun s => LocalTime.ofText? s.toList

def scalars? : Json → Option (List α) := Json.listOf? scalar?

namespace ScheduleEntry

def shape : RecordShape where
  keys := [("time_start", false), ("time_end", false), ("target_power_kw", false),
    ("reason", false)]
  closed := false

def ofJson? (j : Json) : Option (ScheduleEntry α) := do
  let r ← shape.read? j
  return {
    start := ← r.need "time_start" time?
    stop := ← r.need "time_end" time?
    power := ← r.need "target_power_kw" scalar?
    reason := ← r.need "reason" Json.string? }

end ScheduleEntry

namespace DeviceSchedule

def shape : RecordShape where
  keys := [("device", false), ("entries", false), ("stock_kwh", true)]
  closed := false

def ofJson? (j : Json) : Option (DeviceSchedule α) := do
  let r ← shape.read? j
  return {
    device := ← r.need "device" Json.string?
    entries := ← r.need "entries" (Json.listOf? ScheduleEntry.ofJson?)
    stock := ← r.maybe "stock_kwh" scalars? }

end DeviceSchedule

namespace CommitmentCost

def shape : RecordShape where
  keys := [("name", false), ("cost", false), ("upwards_deviation", false),
    ("downwards_deviation", false)]
  closed := false

def ofJson? (j : Json) : Option (CommitmentCost α) := do
  let r ← shape.read? j
  return {
    name := ← r.need "name" Json.string?
    cost := ← r.need "cost" scalar?
    upDeviation := ← r.need "upwards_deviation" scalar?
    downDeviation := ← r.need "downwards_deviation" scalar? }

end CommitmentCost

namespace Costs

def shape : RecordShape where
  keys := [("commitments", false), ("total", false), ("tie_break", false), ("objective", false)]
  closed := false

def ofJson? (j : Json) : Option (Costs α) := do
  let r ← shape.read? j
  return {
    commitments := ← r.need "commitments" (Json.listOf? CommitmentCost.ofJson?)
    total := ← r.need "total" scalar?
    tieBreak := ← r.need "tie_break" scalar?
    objective := ← r.need "objective" scalar? }

end Costs

namespace StoredSchedule

def shape : RecordShape where
  keys := [("id", false), ("status", false), ("created_at", false), ("valid_from", false),
    ("valid_until", false), ("devices", false), ("ems_power_kw", false), ("costs", false),
    ("optimizer_version", false)]
  closed := false

def ofJson? (j : Json) : Option (StoredSchedule α) := do
  let r ← shape.read? j
  let schedule : Schedule α := {
    status := ← r.need "status" choice?
    validFrom := ← r.need "valid_from" time?
    validUntil := ← r.need "valid_until" time?
    devices := ← r.need "devices" (Json.listOf? DeviceSchedule.ofJson?)
    sitePowers := ← r.need "ems_power_kw" scalars?
    costs := ← r.need "costs" Costs.ofJson?
    version := ← r.need "optimizer_version" Json.string? }
  return {
    id := ← r.need "id" fun j => j.string?.bind ScheduleId.ofText?
    createdAt := ← r.need "created_at" time?
    schedule := schedule }

end StoredSchedule

end

end Dispatch
