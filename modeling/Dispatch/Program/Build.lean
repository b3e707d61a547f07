import Dispatch.Program.Basic
import Dispatch.Problem

/-! # The program of a problem

* `Build`: adding columns and rows to a growing program.
* `DeviceColumns`, `CommitmentColumns`, `Handles`: where the columns of a device and of a commitment
  stand.
* `buildDevice`, `buildSite`, `buildCommitment`: the rows of each part of a problem.
* `Problem.model`: the columns and rows of a whole problem.

The flow of a device in a slot is split into a consumption half, at least zero, and a production
half, at most zero. Where both may differ from zero a binary selector keeps one of them at zero. A
storage has one column per slot for its level, tied to the level before by its balance.
-/

namespace Dispatch
set_option autoImplicit false

/-! ## Growing programs -/

structure Draft (α : Type) where
  columns : Array (Column α)
  rows : Array (Row α)
  /-- How many binary columns have been added. -/
  binaries : Nat
deriving Repr

namespace Draft

def empty {α : Type} : Draft α := ⟨#[], #[], 0⟩

end Draft

abbrev Build (α : Type) := StateM (Draft α)

namespace Build
variable {α : Type} [Scalar α]

def column (c : Column α) : Build α Nat :=
  modifyGet fun d => (d.columns.size, { d with columns := d.columns.push c })

def binary : Build α Nat := do
  modify fun d => { d with binaries := d.binaries + 1 }
  column .binary

def row (r : Row α) : Build α Unit := modify fun d => { d with rows := d.rows.push r }

def rowWhen (b : Bool) (r : Row α) : Build α Unit := if b then row r else pure ()

end Build

/-! ## Where columns stand -/

structure DeviceColumns where
  up : List Nat
  down : List Nat
  selector : List (Option Nat)
  stock : Option (List Nat)
deriving DecidableEq, Repr

structure GroupColumns (α : Type) where
  slots : List Nat
  up : Nat
  down : Nat
  upPrice : α
  downPrice : α
  selector : Option Nat
deriving DecidableEq, Repr

structure CommitmentColumns (α : Type) where
  name : String
  groups : List (GroupColumns α)
deriving DecidableEq, Repr

structure Handles (α : Type) where
  devices : List DeviceColumns
  commitments : List (CommitmentColumns α)
  members : List Nat
deriving DecidableEq, Repr

variable {α : Type} [Scalar α]
open Scalar

namespace DeviceColumns

def flow (d : DeviceColumns) (j : Nat) : LinExpr α :=
  LinExpr.col (d.up.getD j 0) + LinExpr.col (d.down.getD j 0)

def empty : DeviceColumns := ⟨[], [], [], none⟩

end DeviceColumns

def siteExpr (devices : List DeviceColumns) (members : List Nat) (j : Nat) : LinExpr α :=
  LinExpr.sum (members.map fun d => (devices.getD d .empty).flow j)

/-! ## Devices -/

structure SlotColumns where
  up : Nat
  down : Nat
  selector : Option Nat
deriving DecidableEq, Repr

def columnName (owner role : String) (n : Nat) : String :=
  Text.underscored owner ++ "_" ++ role ++ "_" ++ toString n

/-- A band on one side of zero also bounds the sum of both halves; a selector keeps one half at
zero where the band has two sides. -/
def buildSlot (d : Device α) (bigM : α) (j : Nat) : Build α SlotColumns := do
  let low := valueAt d.powerMin j
  let high := valueAt d.powerMax j
  let up ← Build.column ⟨columnName d.id "up" j, 0, maxNum high 0, false⟩
  let down ← Build.column ⟨columnName d.id "down" j, minNum low 0, 0, false⟩
  let both : LinExpr α := LinExpr.col up + LinExpr.col down
  Build.rowWhen (gt low 0) (.ge both (.const low))
  Build.rowWhen (lt high 0) (.le both (.const high))
  if d.isBidirectional j then
    let selector ← Build.binary
    let chosen : LinExpr α := .term bigM selector
    Build.row (.le (.col up) chosen)
    Build.row (.le (chosen - .col down) (.const bigM))
    return ⟨up, down, some selector⟩
  else return ⟨up, down, none⟩

/-- The change of a slot, before decay, as an expression in both halves of the flow. -/
def changeExpr (s : Stock α) (hours : α) (j : Nat) (slot : SlotColumns) : LinExpr α :=
  LinExpr.term (hours * valueAt s.etaUp j) slot.up +
    LinExpr.term (hours / valueAt s.etaDown j) slot.down + .const (valueAt s.delta j)

/-- The level after slot `j`: within its limits, by the balance from the level before, and on its
target if it has one. -/
def buildLevel (s : Stock α) (owner : String) (hours : α) (j : Nat) (slot : SlotColumns)
    (before : LinExpr α) : Build α Nat := do
  let low := valueAt s.min j
  let high := valueAt s.max j
  let level ← Build.column ⟨columnName owner "stock" j,
    if isFinite low then s.initial + low else negInfinity,
    if isFinite high then s.initial + high else infinity, false⟩
  let (a, b) := s.coefficients j
  Build.row (.eq (.col level) (before.scale a + (changeExpr s hours j slot).scale b))
  match givenAt s.equals j with
  | none => pure ()
  | some target => Build.row (.eq (.col level) (.const (s.initial + target)))
  return level

def buildLevels (s : Stock α) (owner : String) (hours : α) :
    Nat → LinExpr α → List SlotColumns → Build α (List Nat)
  | _, _, [] => pure []
  | j, before, slot :: rest => do
    let level ← buildLevel s owner hours j slot before
    let levels ← buildLevels s owner hours (j + 1) (.col level) rest
    return level :: levels

def buildDevice (p : Problem α) (margin : α) (d : Device α) : Build α DeviceColumns := do
  let slots ← p.grid.slots.mapM (buildSlot d (d.bigM margin))
  let stock ← match d.stock with
    | none => pure none
    | some s => do
      let levels ← buildLevels s d.id p.hours 0 (.const s.initial) slots
      pure (some levels)
  return ⟨slots.map SlotColumns.up, slots.map SlotColumns.down, slots.map SlotColumns.selector,
    stock⟩

/-! ## The site -/

def buildSite (p : Problem α) (devices : List DeviceColumns) : Build α Unit :=
  if p.siteMembers.isEmpty then pure ()
  else p.grid.slots.forM fun j => do
    let low := valueAt p.site.min j
    let high := valueAt p.site.max j
    Build.rowWhen (isFinite low) (.ge (siteExpr devices p.siteMembers j) (.const low))
    Build.rowWhen (isFinite high) (.le (siteExpr devices p.siteMembers j) (.const high))

/-! ## Commitments -/

namespace Commitment

def scope (p : Problem α) (devices : List DeviceColumns) (c : Commitment α) (j : Nat) :
    LinExpr α :=
  match c.kind, p.committed? c with
  | .flow, some d => (devices.getD d .empty).flow j
  | .flow, none => siteExpr devices p.siteMembers j
  | .stock, some d =>
    match (devices.getD d .empty).stock with
    | some levels => .col (levels.getD j 0)
    | none => .const 0
  | .stock, none => .const 0

def scopeBound (p : Problem α) (c : Commitment α) : α :=
  match c.kind, p.committed? c with
  | .flow, some d => (p.devices[d]?.map Device.flowBound).getD 0
  | .flow, none => sum ((p.devices.filter fun d => d.onSite).map Device.flowBound)
  | .stock, some d => (p.devices[d]?.map fun d => d.stockBound p.hours).getD 0
  | .stock, none => 0

end Commitment

/-- The deviations of a slot: for a pair of its own their difference is the deviation, a shared pair
bounds it on both sides. -/
def buildLink (c : Commitment α) (scope : LinExpr α) (up down j : Nat) : Build α Unit :=
  let q : LinExpr α := .const (c.baseline j)
  match c.grouping with
  | .each => Build.row (.eq (scope - .col up + .col down) q)
  | .any => do
    Build.row (.le (scope - .col up) q)
    Build.row (.ge (scope + .col down) q)

/-- A pair of deviations that would earn money together gets a selector that keeps one at zero. -/
def buildGroup (p : Problem α) (margin : α) (devices : List DeviceColumns) (c : Commitment α)
    (g : Nat) (group : DeviationGroup α) : Build α (GroupColumns α) := do
  let up ← Build.column ⟨columnName c.name "up" g, 0, infinity, false⟩
  let down ← Build.column ⟨columnName c.name "down" g, 0, infinity, false⟩
  group.slots.forM fun j => buildLink c (c.scope p devices j) up down j
  let handles : GroupColumns α := ⟨group.slots, up, down, group.upPrice, group.downPrice, none⟩
  if c.grouping = .each ∧ group.needsSelector then
    let baseline := largest (group.slots.map fun j => abs (c.baseline j))
    let bigM := (c.scopeBound p + baseline) * (1 + margin) + 1
    let selector ← Build.binary
    let chosen : LinExpr α := .term bigM selector
    Build.row (.le (.col up) chosen)
    Build.row (.le (chosen + .col down) (.const bigM))
    return { handles with selector := some selector }
  else return handles

def buildCommitment (p : Problem α) (margin : α) (devices : List DeviceColumns)
    (c : Commitment α) : Build α (CommitmentColumns α) := do
  let groups ← c.groups.zipIdx.mapM fun (group, g) => buildGroup p margin devices c g group
  return ⟨c.name, groups⟩

/-! ## Whole problems -/

/-- Columns and rows with the places of the columns. -/
structure Model (α : Type) where
  draft : Draft α
  handles : Handles α
deriving Repr

def buildHandles (p : Problem α) (margin : α) : Build α (Handles α) := do
  let devices ← p.devices.mapM (buildDevice p margin)
  buildSite p devices
  let commitments ← p.commitments.mapM (buildCommitment p margin devices)
  return ⟨devices, commitments, p.siteMembers⟩

def marginField : String := "big_m_margin"

namespace Problem

def model (p : Problem α) (margin : α) : Checked α (Model α) := do
  p.check
  if ge margin 0 && isFinite margin then
    let (handles, draft) := (buildHandles p margin).run .empty
    return ⟨draft, handles⟩
  else .error (.field marginField (.badMargin margin))

end Problem

end Dispatch
