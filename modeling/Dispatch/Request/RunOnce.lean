import Dispatch.Fault
import Dispatch.Named
import Dispatch.Series.Values

/-! # Processes that run once

* `RunOnce`: a load of fixed power that runs for a number of slots, and the slots it may not use.
* `RunOnce.place`: its power slot by slot: at once in one piece, spread over any slots, or in one piece
  at the best moment, as its kind says; the earlier slots win a tie.
-/

namespace Dispatch
set_option autoImplicit false

inductive ProcessKind where
  | inflexible
  | breakable
  | shiftable
deriving DecidableEq, Repr

instance : Named ProcessKind where
  all := [.inflexible, .breakable, .shiftable]
  name
    | .inflexible => "INFLEXIBLE"
    | .breakable => "BREAKABLE"
    | .shiftable => "SHIFTABLE"

/-- Whether the cheapest or the dearest slots are the best. -/
inductive Direction where
  | min
  | max
deriving DecidableEq, Repr

instance : Named Direction where
  all := [.min, .max]
  name
    | .min => "MIN"
    | .max => "MAX"

structure RunOnce (α : Type) where
  name : String
  kind : ProcessKind
  power : α
  slots : Nat
  restricted : List Bool
  direction : Direction
deriving DecidableEq, Repr

inductive PlacementFault where
  | noBlock
  | notEnoughSlots
deriving DecidableEq, Repr

namespace PlacementFault

def message : PlacementFault → String
  | noBlock => "no unrestricted block is long enough"
  | notEnoughSlots => "not enough unrestricted slots"

end PlacementFault

namespace RunOnce
variable {α : Type} [Scalar α]
open Scalar

def len (p : RunOnce α) : Nat := p.restricted.length

def isFree (p : RunOnce α) (j : Nat) : Bool := !p.restricted.getD j false

def block (p : RunOnce α) (s : Nat) : List Nat := (List.range p.slots).map (s + ·)

/-- Where a block without restricted slots may start. -/
def blockStarts (p : RunOnce α) : List Nat :=
  if p.len < p.slots then []
  else (List.range (p.len - p.slots + 1)).filter fun s => (p.block s).all p.isFree

/-- A price as it counts in the direction of the process. -/
def signed (p : RunOnce α) (price : α) : α :=
  match p.direction with
  | .min => 1 * price
  | .max => -1 * price

def blockCost (p : RunOnce α) (prices : List α) (s : Nat) : α :=
  p.signed (sum ((p.block s).map (valueAt prices)))

def leastBy {β : Type} (key : β → α) : List β → Option β
  | [] => none
  | b :: rest =>
    match leastBy key rest with
    | none => some b
    | some c => if orderedLe (key b) (key c) then some b else some c

def chosen (p : RunOnce α) (prices : List α) : Except PlacementFault (List Nat) :=
  match p.kind with
  | .inflexible =>
    match p.blockStarts with
    | [] => .error .noBlock
    | s :: _ => .ok (p.block s)
  | .shiftable =>
    match leastBy (p.blockCost prices) p.blockStarts with
    | none => .error .noBlock
    | some s => .ok (p.block s)
  | .breakable =>
    let free := (List.range p.len).filter p.isFree
    if free.length < p.slots then .error .notEnoughSlots
    else
      let ranked := free.mergeSort fun i j =>
        orderedLe (p.signed (valueAt prices i)) (p.signed (valueAt prices j))
      .ok (ranked.take p.slots)

def place (p : RunOnce α) (prices : List α) : Except PlacementFault (List α) :=
  if p.slots = 0 then .ok (List.replicate p.len 0)
  else do
    let slots ← p.chosen prices
    return (List.range p.len).map fun j => if slots.contains j then p.power else 0

end RunOnce

end Dispatch
