import Dispatch.Program.Build
import Dispatch.TieBreak

/-! # The objective

* `Problem.priceSpread`: how far the prices of energy lie apart.
* `Problem.biasStep`: the size of the preference for charging sooner.
* `SlotBias`: what a slot adds per kWh charged and discharged.
* `Objective`: the priced deviations plus the preference.
* `Costs`: the value of a plan, commitment by commitment, and the preference apart.
-/

namespace Dispatch
set_option autoImplicit false

structure SlotBias (α : Type) where
  charge : α
  discharge : α
deriving DecidableEq, Repr

structure Objective (α : Type) where
  expr : LinExpr α
  beta : α
  biasTerms : List (Nat × α)
deriving Repr

/-! ## Costs of a plan -/

structure CommitmentCost (α : Type) where
  name : String
  cost : α
  upDeviation : α
  downDeviation : α
deriving DecidableEq, Repr

structure Costs (α : Type) where
  commitments : List (CommitmentCost α)
  /-- The cost of all deviations, without the preference. -/
  total : α
  tieBreak : α
  objective : α
deriving DecidableEq, Repr

variable {α : Type} [Scalar α]
open Scalar

namespace Problem

/-- The prices per kWh of exceeding a baseline, over all slots of commitments on flow that are
priced slot by slot. -/
def energyPrices (p : Problem α) : List α :=
  (p.commitments.filter fun c => c.kind == .flow && c.grouping == .each).flatMap fun c =>
    c.activeSlots.map fun j => valueAt c.upPrice j / p.hours

def priceSpread (p : Problem α) : α × α :=
  let prices : List α := p.energyPrices
  if prices.isEmpty then (0, 0)
  else
    let low := prices.foldl minNum infinity
    let high := prices.foldl maxNum negInfinity
    (high - low, sum prices / ofNat prices.length)

/-- Equal prices count as a spread of their mean, and of 1 at least. -/
def biasStep (p : Problem α) (t : TieBreak α) : α :=
  if t.enabled then
    let (spread, mean) := p.priceSpread
    let scale := if gt spread 0 then spread else maxNum (abs mean) 1
    t.relative * scale / ofNat 2
  else 0

/-- Charging grows dearer over the horizon and discharging cheaper, while a charge and a discharge
together always cost at least twice the step. -/
def slotBias (p : Problem α) (t : TieBreak α) (beta : α) (j : Nat) : SlotBias α :=
  let x : α := if 1 < p.len then ofNat j / ofNat (p.len - 1) else 0
  let s := t.curve.shape x
  ⟨beta * (1 + s), beta * (ofNat 2 - s)⟩

/-- The preference of one storage. The production half is negative, so its coefficient is too. -/
def deviceBias (p : Problem α) (t : TieBreak α) (beta : α) (columns : DeviceColumns) :
    List (Nat × α) :=
  p.grid.slots.flatMap fun j =>
    let bias := p.slotBias t beta j
    [(columns.up.getD j 0, bias.charge * p.hours),
      (columns.down.getD j 0, -bias.discharge * p.hours)]

def biasTerms (p : Problem α) (t : TieBreak α) (beta : α) (devices : List DeviceColumns) :
    List (Nat × α) :=
  if gt beta 0 then
    (p.devices.zip devices).flatMap fun (d, columns) =>
      if d.stock.isSome && d.chargeSooner then p.deviceBias t beta columns else []
  else []

end Problem

namespace Handles

def priceTerms (h : Handles α) : List (Nat × α) :=
  h.commitments.flatMap fun c =>
    c.groups.flatMap fun g => [(g.up, g.upPrice), (g.down, g.downPrice)]

def commitmentCost (values : Nat → α) (c : CommitmentColumns α) : CommitmentCost α where
  name := c.name
  cost := sum (c.groups.map fun g => g.upPrice * values g.up + g.downPrice * values g.down)
  upDeviation := sum (c.groups.map fun g => values g.up)
  downDeviation := sum (c.groups.map fun g => values g.down)

end Handles

namespace Objective

def compose (p : Problem α) (h : Handles α) (t : TieBreak α) : Objective α :=
  let beta := p.biasStep t
  let bias := p.biasTerms t beta h.devices
  let expr : LinExpr α :=
    ⟨(h.priceTerms ++ bias).foldl (fun ts (c, x) => addTerm c x ts) [], 0⟩
  ⟨expr, beta, bias⟩

/-- Split the value of a plan into the costs of the commitments and the preference. -/
def evaluate (o : Objective α) (h : Handles α) (values : Nat → α) : Costs α :=
  let commitments := h.commitments.map (Handles.commitmentCost values)
  let total := sum (commitments.map CommitmentCost.cost)
  let tieBreak := sum (o.biasTerms.map fun (c, x) => x * values c)
  ⟨commitments, total, tieBreak, total + tieBreak⟩

end Objective

/-! ## The whole program -/

namespace Model

def program (m : Model α) (o : Objective α) : Program α :=
  ⟨m.draft.columns, m.draft.rows, o.expr, m.draft.binaries⟩

end Model

end Dispatch
