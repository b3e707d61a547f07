import Dispatch.Decimal.Binary

/-! # JSON values

* `Json`: a value; a number keeps its exact decimal and whether it was written as an integer.
* `Json.field?`, `Json.item?`: what stands under a key or at an index. A key given twice counts once,
  with its last value.
-/

namespace Dispatch
set_option autoImplicit false

inductive Json where
  | null
  | bool (b : Bool)
  /-- `whole` is set for a number written without a point and without an exponent. -/
  | number (value : Decimal) (whole : Bool)
  | string (s : String)
  | array (items : List Json)
  | object (fields : List (String × Json))
deriving Repr, Inhabited

namespace Json

/-- The value of the last field with this key, `null` counting as absent. -/
def field? (key : String) : Json → Option Json
  | object fields =>
    match (fields.reverse.find? fun f => f.1 == key).map Prod.snd with
    | some null => none
    | v => v
  | _ => none

def hasKey (key : String) : Json → Bool
  | object fields => fields.any fun f => f.1 == key
  | _ => false

def string? : Json → Option String
  | string s => some s
  | _ => none

def bool? : Json → Option Bool
  | bool b => some b
  | _ => none

def array? : Json → Option (List Json)
  | array items => some items
  | _ => none

def int? : Json → Option Int
  | number d true =>
    let n : Int := (d.digits * Nat.pow 10 d.exponent.toNat : Nat)
    some (if d.negative then -n else n)
  | _ => none

def nat? (j : Json) : Option Nat := j.int?.bind fun i => if 0 ≤ i then some i.toNat else none

/-! ## Building values -/

def nat (n : Nat) : Json := number (Decimal.ofNat n) true

def int (i : Int) : Json := number (Decimal.ofInt i) true

def optional {α : Type} (write : α → Json) : Option α → Json
  | none => null
  | some a => write a

end Json

/-! ## Numbers as JSON -/

class NumJson (α : Type) where
  numJson : α → Json

/-- A finite float by the fewest digits that read back. JSON has no numeral for any other, so it goes by
its name here, and documents have `null` in its place (`finiteJson`). -/
instance : NumJson Float where
  numJson x :=
    if x.isNaN then .string "nan"
    else if x.isFinite then .number (Decimal.ofFloat .toEven x) false
    else .string (if x < 0 then "-inf" else "inf")

end Dispatch
