import Dispatch.Program.Objective
import Dispatch.Failure

/-! # Plans

* `Assignment`: the values a solver hands back, possibly not for every column.
* `Plan`: the flows and levels that an assignment means.
* `Plan.readDevice`: what an assignment means for a device, checked against its hard limits.
* `Plan.check`: a plan respects the limits of the site, and every deviation has the value that the
  plan implies.

A solver's word is not taken: whatever it hands back, a plan comes out only if the flows, replayed
through the stocks and summed over the site, respect every limit up to a tolerance.
-/

namespace Dispatch
set_option autoImplicit false

abbrev Assignment (α : Type) := Nat → Option α

structure DevicePlan (α : Type) where
  powers : List α
  stock : Option (List α)
deriving DecidableEq, Repr

structure Plan (α : Type) where
  devices : List (DevicePlan α)
  sitePowers : List α
deriving DecidableEq, Repr

variable {α : Type} [Scalar α]
open Scalar

namespace Plan

/-- The value of a column; an assignment without it is incomplete. -/
def valueOf (values : Assignment α) (column : Nat) : Except (SolveFault α) α :=
  match values column with
  | some v => .ok v
  | none => .error (.failed .incomplete)

def reject {β : Type} (cause : Rejection α) : Except (SolveFault α) β :=
  .error (.failed (.rejected cause))

/-- Values below the tolerance count as zero. -/
def clean (tolerance x : α) : α := if lt (abs x) tolerance then 0 else x

/-! ## Flows -/

/-- How far a flow of a device may miss its bounds. -/
def flowSlack (tolerance : α) (d : Device α) : α := tolerance * (1 + d.flowBound)

def readFlow (tolerance : α) (d : Device α) (columns : DeviceColumns) (values : Assignment α)
    (j : Nat) : Except (SolveFault α) α := do
  let slack := flowSlack tolerance d
  let up ← valueOf values (columns.up.getD j 0)
  let down ← valueOf values (columns.down.getD j 0)
  if lt up (-slack) || gt down slack then reject (.misSigned d.id j)
  if gt (minNum up (-down)) slack then reject (.bothHalves d.id j)
  let p := clean tolerance (up + down)
  if lt p (valueAt d.powerMin j - slack) || gt p (valueAt d.powerMax j + slack) then
    reject (.powerBand d.id j)
  return p

/-! ## Levels -/

/-- How far a replayed level may miss its limits. -/
def stockSlack (tolerance hours : α) (d : Device α) (len : Nat) : α :=
  maxNum (tolerance * (1 + d.stockBound hours) * ofNat len) (lit 1 6)

/-- The levels as the solver has them. The flows, replayed, must respect the limits. -/
def readStock (p : Problem α) (tolerance : α) (d : Device α) (s : Stock α) (columns : List Nat)
    (values : Assignment α) (powers : List α) : Except (SolveFault α) (List α) := do
  let solved ← columns.mapM (valueOf values)
  match s.violations (s.replay powers p.hours) (stockSlack tolerance p.hours d p.len) with
  | [] => return solved.map (clean tolerance)
  | j :: _ => reject (.stockLimits d.id j)

def readDevice (p : Problem α) (tolerance : α) (values : Assignment α) (d : Device α)
    (columns : DeviceColumns) : Except (SolveFault α) (DevicePlan α) := do
  let powers ← p.grid.slots.mapM (readFlow tolerance d columns values)
  match d.stock, columns.stock with
  | some s, some levels => do
    let stock ← readStock p tolerance d s levels values powers
    return ⟨powers, some stock⟩
  | _, _ => return ⟨powers, none⟩

/-! ## The site -/

def powerOf (devices : List (DevicePlan α)) (d j : Nat) : α :=
  match devices[d]? with
  | some plan => valueAt plan.powers j
  | none => 0

def siteFlows (p : Problem α) (tolerance : α) (devices : List (DevicePlan α)) : List α :=
  p.grid.slots.map fun j => clean tolerance (sum (p.siteMembers.map fun d => powerOf devices d j))

def siteSlack (p : Problem α) (tolerance : α) : α :=
  let bounds := p.siteMembers.map fun d => (p.devices[d]?.map Device.flowBound).getD 0
  tolerance * (1 + sum bounds)

def checkSite (p : Problem α) (tolerance : α) (flows : List α) : Except (SolveFault α) Unit :=
  if p.siteMembers.isEmpty then .ok ()
  else
    let slack := siteSlack p tolerance
    match p.grid.slots.find? fun j => !p.site.contains j (valueAt flows j) slack with
    | none => .ok ()
    | some j => reject (.siteFlow (valueAt flows j) j)

/-! ## Commitments -/

/-- What a commitment measures in a slot of the plan; levels are the solver's. -/
def scope (p : Problem α) (h : Handles α) (values : Assignment α) (plan : Plan α)
    (c : Commitment α) (j : Nat) : α :=
  match c.kind, p.committed? c with
  | .flow, some d => powerOf plan.devices d j
  | .flow, none => valueAt plan.sitePowers j
  | .stock, some d =>
    match (h.devices.getD d .empty).stock with
    | some levels => (values (levels.getD j 0)).getD 0
    | none => 0
  | .stock, none => 0

/-- Whether a pair of deviations fits what is measured, up to a slack that grows with the values. -/
def linked (tolerance : α) (grouping : Grouping) (scope q up down : α) : Bool :=
  let slack := tolerance * (1 + abs scope + abs q + up + down) * ofNat 10
  match grouping with
  | .each => le (abs (scope - q - up + down)) slack
  | .any => le (scope - q) (up + slack) && le (q - scope) (down + slack)

def checkGroup (p : Problem α) (h : Handles α) (tolerance : α) (values : Assignment α)
    (plan : Plan α) (c : Commitment α) (g : GroupColumns α) : Except (SolveFault α) Unit :=
  let up := (values g.up).getD 0
  let down := (values g.down).getD 0
  g.slots.forM fun j =>
    if linked tolerance c.grouping (scope p h values plan c j) (c.baseline j) up down then .ok ()
    else reject (.unlinked c.name j)

def checkLinks (p : Problem α) (h : Handles α) (tolerance : α) (values : Assignment α)
    (plan : Plan α) : Except (SolveFault α) Unit :=
  (p.commitments.zip h.commitments).forM fun (c, columns) =>
    columns.groups.forM (checkGroup p h tolerance values plan c)

/-! ## Whole plans -/

def ofDevices (p : Problem α) (tolerance : α) (devices : List (DevicePlan α)) : Plan α :=
  ⟨devices, siteFlows p tolerance devices⟩

/-- The limits of the site and the deviations. -/
def check (p : Problem α) (h : Handles α) (tolerance : α) (values : Assignment α) (plan : Plan α) :
    Except (SolveFault α) Unit := do
  checkSite p tolerance plan.sitePowers
  checkLinks p h tolerance values plan

end Plan

end Dispatch
