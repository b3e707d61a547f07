import Dispatch.Fault
import Dispatch.Named
import Dispatch.Series.Values

/-! # Commitments

* `Commitment`: a baseline for a flow or a stock, and the prices of exceeding it and of falling
  short of it.
* `Commitment.groups`: which slots share a pair of deviations, and at which prices.
* `DeviationGroup.needsSelector`: the two deviations of a pair would earn money together.
* `Commitment.check`: what makes a commitment unusable.
-/

namespace Dispatch
set_option autoImplicit false

/-- What a baseline refers to: power or the level of a stock. -/
inductive CommitmentKind where
  | flow
  | stock
deriving DecidableEq, Repr

instance : Named CommitmentKind where
  all := [.flow, .stock]
  name
    | .flow => "flow"
    | .stock => "stock"

/-- One pair of deviations per slot, or one pair for the whole horizon that measures the worst
excursion. -/
inductive Grouping where
  | each
  | any
deriving DecidableEq, Repr

instance : Named Grouping where
  all := [.each, .any]
  name
    | .each => "each"
    | .any => "any"

/-- Slots without a quantity are not committed. Without a device, the commitment is the site's. -/
structure Commitment (α : Type) where
  name : String
  kind : CommitmentKind
  device : Option String
  quantity : List (Option α)
  upPrice : List α
  downPrice : List α
  grouping : Grouping
deriving DecidableEq, Repr

/-- Slots that share one pair of deviations, and what a unit of either costs. -/
structure DeviationGroup (α : Type) where
  slots : List Nat
  upPrice : α
  downPrice : α
deriving DecidableEq, Repr

namespace DeviationGroup
variable {α : Type} [Scalar α]

def needsSelector (g : DeviationGroup α) : Bool := Scalar.lt (g.upPrice + g.downPrice) 0

end DeviationGroup

namespace Commitment
variable {α : Type} [Scalar α]
open Scalar

def siteFlow (name : String) (quantity : List (Option α)) (upPrice downPrice : List α)
    (grouping : Grouping) : Commitment α where
  name := name
  kind := .flow
  device := none
  quantity := quantity
  upPrice := upPrice
  downPrice := downPrice
  grouping := grouping

def deviceStock (name device : String) (quantity : List (Option α)) (upPrice downPrice : List α)
    (grouping : Grouping) : Commitment α where
  name := name
  kind := .stock
  device := some device
  quantity := quantity
  upPrice := upPrice
  downPrice := downPrice
  grouping := grouping

def activeSlots (c : Commitment α) : List Nat :=
  (c.quantity.zipIdx.filter fun (q, _) => q.isSome).map Prod.snd

/-- The baseline of a slot, zero where there is none. -/
def baseline (c : Commitment α) (j : Nat) : α := (givenAt c.quantity j).getD 0

def meanOver (slots : List Nat) (prices : List α) : α :=
  sum (slots.map (valueAt prices)) / ofNat slots.length

def groups (c : Commitment α) : List (DeviationGroup α) :=
  let active := c.activeSlots
  match c.grouping with
  | .each => active.map fun j => ⟨[j], valueAt c.upPrice j, valueAt c.downPrice j⟩
  | .any =>
    if active.isEmpty then []
    else [⟨active, meanOver active c.upPrice, meanOver active c.downPrice⟩]

/-! ## Checks -/

def slotFinite (c : Commitment α) (j : Nat) : Bool :=
  isFinite (c.baseline j) && isFinite (valueAt c.upPrice j) && isFinite (valueAt c.downPrice j)

def checkSeries (c : Commitment α) (len : Nat) : Except CommitmentFault Unit := do
  if c.quantity.length != len || c.upPrice.length != len || c.downPrice.length != len then
    .error (.lengths len)
  if c.kind = .stock ∧ c.device = none then .error .needsDevice
  c.activeSlots.forM fun j => if c.slotFinite j then .ok () else .error (.notFinite j)
  if c.grouping = .any ∧ c.groups.any (fun g => lt g.upPrice 0 || lt g.downPrice 0) then
    .error .negativeGroupPrice

def check (c : Commitment α) (len : Nat) : Checked α Unit :=
  (c.checkSeries len).mapError (Fault.commitment c.name)

end Commitment

end Dispatch
