import Dispatch.Plan

/-! # Schedules

* `Schedule`: a plan told in local times, with its costs.
* `Schedule.device`, `Schedule.ofPlan`: the schedule of a device and of a plan.
* `Schedule.powerAt?`: the power of a device at an instant.
-/

namespace Dispatch
set_option autoImplicit false

structure ScheduleEntry (α : Type) where
  start : LocalTime
  stop : LocalTime
  power : α
  reason : String
deriving DecidableEq, Repr

structure DeviceSchedule (α : Type) where
  device : String
  entries : List (ScheduleEntry α)
  /-- The level at the end of each slot, for a storage. -/
  stock : Option (List α)
deriving DecidableEq, Repr

structure Schedule (α : Type) where
  status : ScheduleStatus
  validFrom : LocalTime
  validUntil : LocalTime
  devices : List (DeviceSchedule α)
  sitePowers : List α
  costs : Costs α
  version : String
deriving DecidableEq, Repr

variable {α : Type}

section
variable [Scalar α]
open Scalar

/-- Flows up to this magnitude are idle, in kW. -/
def idlePower : α := lit 1 6

def reasonFor (power : α) (fixed : Bool) : String :=
  if fixed then "fixed"
  else if gt power idlePower then "milp:charge"
  else if lt power (-idlePower) then "milp:discharge"
  else "milp:idle"

/-! ## From plans -/

namespace Schedule

def entry (g : Grid) (d : Device α) (powers : List α) (j : Nat) : Checked α (ScheduleEntry α) := do
  let start ← g.slotStart j
  let stop ← g.slotEnd j
  let power := valueAt powers j
  return ⟨g.localTime start, g.localTime stop, power,
    reasonFor power (Scalar.eq (valueAt d.powerMin j) (valueAt d.powerMax j))⟩

def device (g : Grid) (d : Device α) (plan : DevicePlan α) : Checked α (DeviceSchedule α) := do
  let entries ← g.slots.mapM (entry g d plan.powers)
  return ⟨d.id, entries, plan.stock⟩

/-- The schedule of a plan of which the devices are told already. -/
def ofPlan (p : Problem α) (plan : Plan α) (devices : List (DeviceSchedule α)) (costs : Costs α)
    (version : String) : Checked α (Schedule α) := do
  let stop ← p.grid.stop
  return {
    status := .optimal
    validFrom := p.grid.localTime p.grid.start
    validUntil := p.grid.localTime stop
    devices := devices
    sitePowers := plan.sitePowers
    costs := costs
    version := version }

end Schedule

end

/-! ## Looking up -/

namespace DeviceSchedule

def powers (d : DeviceSchedule α) : List α := d.entries.map ScheduleEntry.power

def powerAt? (d : DeviceSchedule α) (t : Instant) : Option α :=
  (d.entries.find? fun e => e.start.instant ≤ t && t < e.stop.instant).map ScheduleEntry.power

end DeviceSchedule

namespace Schedule

def device? (s : Schedule α) (name : String) : Option (DeviceSchedule α) :=
  s.devices.find? fun d => d.device == name

def powerAt? (s : Schedule α) (name : String) (t : Instant) : Option α :=
  (s.device? name).bind fun d => d.powerAt? t

end Schedule

end Dispatch
