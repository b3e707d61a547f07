import Dispatch.Fault
import Dispatch.Series.Values

/-! # Site limits

* `SiteLimits`: hard limits on the summed flow of the devices on site, slot by slot; an infinite
  limit is none.
* `SiteLimits.tighten`: the intersection with further limits.
* `SiteLimits.contains`: whether a flow lies inside, up to a tolerance.
* `SiteLimits.check`: every slot must leave some flow.
-/

namespace Dispatch
set_option autoImplicit false

structure SiteLimits (α : Type) where
  min : List α
  max : List α
deriving DecidableEq, Repr

namespace SiteLimits
variable {α : Type} [Scalar α]
open Scalar

def unbounded (len : Nat) : SiteLimits α :=
  ⟨List.replicate len negInfinity, List.replicate len infinity⟩

/-- From `-|capacity|` to `|capacity|`. -/
def symmetric (capacity : α) (len : Nat) : SiteLimits α :=
  ⟨List.replicate len (-(abs capacity)), List.replicate len (abs capacity)⟩

/-- Combine two series where both have a value; what is left of the first stays. -/
def merge (f : α → α → α) : List α → List α → List α
  | x :: xs, y :: ys => f x y :: merge f xs ys
  | xs, _ => xs

def tighten (s : SiteLimits α) (min max : List α) : SiteLimits α :=
  ⟨merge maxNum s.min min, merge minNum s.max max⟩

def contains (s : SiteLimits α) (j : Nat) (flow tolerance : α) : Bool :=
  ge flow (valueAt s.min j - tolerance) && le flow (valueAt s.max j + tolerance)

def fieldName : String := "site bounds"

def checkSlot (s : SiteLimits α) (j : Nat) : Except (FieldFault α) Unit :=
  let low := valueAt s.min j
  let high := valueAt s.max j
  if isNaN low || isNaN high || gt low high then .error (.emptyRange low high j) else .ok ()

def check (s : SiteLimits α) (len : Nat) : Checked α Unit :=
  let series : Except (FieldFault α) Unit :=
    if s.min.length != len || s.max.length != len then .error (.lengths len)
    else (List.range len).forM s.checkSlot
  series.mapError (Fault.field fieldName)

end SiteLimits

end Dispatch
