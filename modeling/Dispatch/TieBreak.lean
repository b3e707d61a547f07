import Dispatch.Named
import Dispatch.Scalar

/-! # Telling equal plans apart

* `BiasCurve`: how a small preference grows over the horizon.
* `TieBreak`: whether there is such a preference, how large it may get, and its curve.
-/

namespace Dispatch
set_option autoImplicit false

inductive BiasCurve where
  | linear
  | quadratic
deriving DecidableEq, Repr

instance : Named BiasCurve where
  all := [.linear, .quadratic]
  name
    | .linear => "linear"
    | .quadratic => "quadratic"

namespace BiasCurve

def shape {α : Type} [Scalar α] (c : BiasCurve) (x : α) : α :=
  match c with
  | linear => x
  | quadratic => x * x

end BiasCurve

structure TieBreak (α : Type) where
  enabled : Bool
  /-- The largest bias per kWh, as a share of the spread of the prices. -/
  relative : α
  curve : BiasCurve
deriving DecidableEq, Repr

namespace TieBreak
variable {α : Type} [Scalar α]

def standard : TieBreak α := ⟨true, Scalar.lit 1 3, .linear⟩

def disabled : TieBreak α := { (standard : TieBreak α) with enabled := false }

end TieBreak

end Dispatch
