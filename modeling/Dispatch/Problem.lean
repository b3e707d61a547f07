import Dispatch.Device
import Dispatch.Commitment
import Dispatch.Site
import Dispatch.Grid

/-! # Scheduling problems

* `Problem`: everything one scheduling run optimises over.
* `Problem.deviceIndex?`: the place of a device in the order of the problem.
* `Problem.check`: what makes a problem unusable. It runs before any program is built.
-/

namespace Dispatch
set_option autoImplicit false

structure Problem (α : Type) where
  grid : Grid
  devices : List (Device α)
  commitments : List (Commitment α)
  site : SiteLimits α
deriving Repr

namespace Problem
variable {α : Type} [Scalar α]

def len (p : Problem α) : Nat := p.grid.len

def hours (p : Problem α) : α := p.grid.hours

def deviceIndex? (p : Problem α) (id : String) : Option Nat :=
  p.devices.findIdx? fun d => d.id == id

def committed? (p : Problem α) (c : Commitment α) : Option Nat := c.device.bind p.deviceIndex?

def siteMembers (p : Problem α) : List Nat :=
  (p.devices.zipIdx.filter fun (d, _) => d.onSite).map Prod.snd

/-! ## Checks -/

/-- Every device is usable and bears a name that none before it bears. -/
def checkDevices (len : Nat) : List String → List (Device α) → Checked α Unit
  | _, [] => .ok ()
  | seen, d :: rest => do
    if seen.contains d.id then .error (.device d.id .duplicateName)
    d.check len
    checkDevices len (d.id :: seen) rest

/-- The device of a commitment exists, and has a stock if the commitment is on one. -/
def checkReference (p : Problem α) (c : Commitment α) : Checked α Unit :=
  match c.device with
  | none => .ok ()
  | some id =>
    match p.devices.find? fun d => d.id == id with
    | none => .error (.commitment c.name (.unknownDevice id))
    | some d =>
      if c.kind = .stock ∧ d.stock.isNone then .error (.commitment c.name (.noStock id))
      else .ok ()

def check (p : Problem α) : Checked α Unit := do
  if p.len = 0 then .error (.grid .noSlots)
  if p.devices.isEmpty then .error (.field "devices" .nothingToSchedule)
  checkDevices p.len [] p.devices
  p.site.check p.len
  p.commitments.forM fun c => do
    c.check p.len
    p.checkReference c

end Problem

end Dispatch
