import Dispatch.Fault
import Dispatch.Named
import Dispatch.Series.Values

/-! # Stocks

* `Decay`: where the share of stock that survives a slot enters the balance of the slot.
* `Decay.coefficients`: the balance is `level after = a * level before + b * change`.
* `Stock`: what a storage holds at the start, its limits relative to that, its efficiencies and its
  losses, slot by slot.
* `Stock.replay`: the levels that a series of flows leads to.
* `Stock.violations`: the slots in which given levels break the limits.
* `Stock.check`: what makes a stock unusable.
-/

namespace Dispatch
set_option autoImplicit false

/-! ## Decay during a slot -/

inductive Decay where
  | perfect
  /-- Change first, then decay. -/
  | left
  /-- Decay first, then change. -/
  | right
  /-- Continuous decay while the change comes in evenly. -/
  | linear
deriving DecidableEq, Repr

instance : Named Decay where
  all := [.perfect, .left, .right, .linear]
  name
    | .perfect => "perfect"
    | .left => "left"
    | .right => "right"
    | .linear => "linear"

section
variable {α : Type} [Scalar α]
open Scalar

/-- `(ε - 1) / ln ε`: how much of an even inflow is left at the end of the slot. Near 1 the quotient
is taken from its power series, where it would cancel. -/
def linearLossFactor (retention : α) : α :=
  let x := retention - 1
  if lt (abs x) (lit 1 4) then
    1 + x / ofNat 2 - x * x / ofNat 12 + x * x * x / ofNat 24
  else x / log retention

/-- Retentions this close to 1 count as lossless. -/
def losslessMargin : α := lit 1 12

namespace Decay

def coefficients (mode : Decay) (retention : α) : α × α :=
  if le (abs (retention - 1)) losslessMargin then (1, 1)
  else match mode with
    | perfect => (1, 1)
    | left => (retention, retention)
    | right => (retention, 1)
    | linear => (retention, linearLossFactor retention)

end Decay

end

/-! ## The stock of a device -/

/-- Limits and targets are relative to the initial level; infinite limits are none. -/
structure Stock (α : Type) where
  initial : α
  min : List α
  max : List α
  equals : List (Option α)
  etaUp : List α
  etaDown : List α
  retention : List α
  /-- Change from outside, in kWh per slot. -/
  delta : List α
  mode : Decay
deriving DecidableEq, Repr

namespace Stock
variable {α : Type} [Scalar α]
open Scalar

def ideal (initial : α) (len : Nat) : Stock α where
  initial := initial
  min := List.replicate len negInfinity
  max := List.replicate len infinity
  equals := List.replicate len none
  etaUp := List.replicate len 1
  etaDown := List.replicate len 1
  retention := List.replicate len 1
  delta := List.replicate len 0
  mode := .perfect

def coefficients (s : Stock α) (j : Nat) : α × α := s.mode.coefficients (valueAt s.retention j)

/-- The change of slot `j` before decay, for a consumption half `up ≥ 0` and a production half
`down ≤ 0` of the flow. -/
def change (s : Stock α) (j : Nat) (up down hours : α) : α :=
  (down / valueAt s.etaDown j + up * valueAt s.etaUp j) * hours + valueAt s.delta j

def after (s : Stock α) (hours : α) (j : Nat) (level flow : α) : α :=
  let (a, b) := s.coefficients j
  a * level + b * s.change j (maxNum flow 0) (minNum flow 0) hours

/-- The levels after slots `j`, `j + 1`, … for the flows of these slots. -/
def replayFrom (s : Stock α) (hours : α) (j : Nat) (level : α) : List α → List α
  | [] => []
  | flow :: flows =>
    let next := s.after hours j level flow
    next :: replayFrom s hours (j + 1) next flows

def replay (s : Stock α) (flows : List α) (hours : α) : List α :=
  s.replayFrom hours 0 s.initial flows

@[simp] theorem replayFrom_length (s : Stock α) (hours : α) (j : Nat) (level : α)
    (flows : List α) : (s.replayFrom hours j level flows).length = flows.length := by
  induction flows generalizing j level with
  | nil => rfl
  | cons f fs ih => simp [replayFrom, ih]

@[simp] theorem replay_length (s : Stock α) (flows : List α) (hours : α) :
    (s.replay flows hours).length = flows.length := replayFrom_length ..

/-- Whether a level leaves the limits or misses the target of slot `j` by more than the
tolerance. -/
def violates (s : Stock α) (tolerance : α) (j : Nat) (level : α) : Bool :=
  let rel := level - s.initial
  let missed := match givenAt s.equals j with
    | some e => lt tolerance (abs (rel - e))
    | none => false
  lt rel (valueAt s.min j - tolerance) || gt rel (valueAt s.max j + tolerance) || missed

def violations (s : Stock α) (levels : List α) (tolerance : α) : List Nat :=
  (levels.zipIdx.filter fun (level, j) => s.violates tolerance j level).map Prod.snd

/-! ## Checks -/

def isShare (x : α) : Bool := gt x 0 && le x 1

def checkSlot (s : Stock α) (j : Nat) : Except (DeviceFault α) Unit :=
  let low := valueAt s.min j
  let high := valueAt s.max j
  let up := valueAt s.etaUp j
  let down := valueAt s.etaDown j
  let retention := valueAt s.retention j
  let targetFinite := match givenAt s.equals j with
    | some e => isFinite e
    | none => true
  if gt low high then .error (.emptyStockRange low high j)
  else if !isShare up then .error (.efficiency true up j)
  else if !isShare down then .error (.efficiency false down j)
  else if !isShare retention then .error (.retention retention j)
  else if !isFinite (valueAt s.delta j) || !targetFinite then .error (.stockNotFinite j)
  else .ok ()

def lengths (s : Stock α) : List Nat :=
  [s.min.length, s.max.length, s.equals.length, s.etaUp.length, s.etaDown.length,
    s.retention.length, s.delta.length]

def check (s : Stock α) (len : Nat) : Except (DeviceFault α) Unit :=
  if s.lengths.any (· != len) then .error (.stockLengths len)
  else if !isFinite s.initial then .error .initialNotFinite
  else (List.range len).forM s.checkSlot

end Stock

end Dispatch
