import Dispatch.Stock

/-! # Devices

* `Device`: a source or sink of power at a site. Positive flow is consumption, negative production.
* `Device.flexible`, `Device.fixed`: devices that may be planned, and devices that follow a series.
* `Device.bigM`: a bound strictly above the magnitude of either half of the flow.
* `Device.stockBound`: a bound on the stock that the device's own flows can reach.
* `Device.check`: what makes a device unusable.
-/

namespace Dispatch
set_option autoImplicit false

structure Device (α : Type) where
  id : String
  powerMin : List α
  powerMax : List α
  stock : Option (Stock α)
  /-- Whether the flow counts towards the flow of the site. -/
  onSite : Bool
  /-- Whether equally good plans are told apart by charging sooner. -/
  chargeSooner : Bool
deriving DecidableEq, Repr

namespace Device
variable {α : Type} [Scalar α]
open Scalar

def flexible (id : String) (powerMin powerMax : List α) : Device α where
  id := id
  powerMin := powerMin
  powerMax := powerMax
  stock := none
  onSite := true
  chargeSooner := false

/-- A load or a generation that follows `power` exactly. -/
def fixed (id : String) (power : List α) : Device α := flexible id power power

def len (d : Device α) : Nat := d.powerMin.length

def isBidirectional (d : Device α) (j : Nat) : Bool :=
  gt (valueAt d.powerMax j) 0 && lt (valueAt d.powerMin j) 0

/-- The largest magnitude that the power bounds admit. -/
def flowBound (d : Device α) : α := largest ((d.powerMin ++ d.powerMax).map abs)

def bigM (d : Device α) (margin : α) : α := d.flowBound * (1 + margin) + 1

def stockBound (d : Device α) (hours : α) : α :=
  match d.stock with
  | none => 0
  | some s =>
    (List.range d.len).foldl
      (fun acc j =>
        let inflow := maxNum (valueAt d.powerMax j) 0 * valueAt s.etaUp j
        let outflow := maxNum (-(valueAt d.powerMin j)) 0 / valueAt s.etaDown j
        acc + maxNum inflow outflow * hours + abs (valueAt s.delta j))
      (abs s.initial)

/-! ## Checks -/

def checkSlot (d : Device α) (j : Nat) : Except (DeviceFault α) Unit :=
  let low := valueAt d.powerMin j
  let high := valueAt d.powerMax j
  if !isFinite low || !isFinite high then .error (.powerNotFinite j)
  else if gt low high then .error (.emptyPowerBand low high j)
  else .ok ()

def checkSeries (d : Device α) (len : Nat) : Except (DeviceFault α) Unit := do
  if d.powerMin.length != len || d.powerMax.length != len then .error (.powerLengths len)
  (List.range len).forM d.checkSlot
  match d.stock with
  | none => return ()
  | some s => s.check len

def check (d : Device α) (len : Nat) : Checked α Unit :=
  (d.checkSeries len).mapError (Fault.device d.id)

end Device

end Dispatch
