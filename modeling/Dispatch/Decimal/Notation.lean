import Dispatch.Decimal.Binary
import Dispatch.Scalar

/-! # How numbers are written

* `Decimal.positional`: digits and a point, never an exponent.
* `Decimal.scientific`: one digit before the point, then the exponent with its sign.
* `Decimal.plain`: the notation inside sentences; whole numbers have no point.
* `Decimal.data`: the notation inside answers; a magnitude in `[10 ^ -5, 10 ^ 16)` is positional and
  always has a fraction, any other is scientific, and zero has no sign.
-/

namespace Dispatch
set_option autoImplicit false

namespace Decimal

/-- Digits on both sides of the point for `digits * 10 ^ exponent`. -/
def split (digits : Nat) (exponent : Int) : List Char × List Char :=
  let ds := digitsOf digits
  if 0 ≤ exponent then (ds ++ List.replicate exponent.toNat '0', [])
  else
    let places := (-exponent).toNat
    let padded := List.replicate (places + 1 - ds.length) '0' ++ ds
    (padded.take (padded.length - places), padded.drop (padded.length - places))

/-- Positional notation; `fraction` is what a whole number has after its digits. -/
def positional (d : Decimal) (fraction : String) : String :=
  let (whole, part) := split d.digits d.exponent
  let sign := if d.negative then "-" else ""
  let tail := if part.isEmpty then fraction else "." ++ String.ofList part
  sign ++ String.ofList whole ++ tail

def scientific (d : Decimal) : String :=
  let sign := if d.negative then "-" else ""
  let e := d.magnitude - 1
  let exponent := (if e < 0 then "e-" else "e+") ++ toString e.natAbs
  match digitsOf d.digits with
  | [] => "0"
  | lead :: [] => sign ++ lead.toString ++ exponent
  | lead :: rest => sign ++ lead.toString ++ "." ++ String.ofList rest ++ exponent

def plain (d : Decimal) : String := d.strip.positional ""

def data (d : Decimal) : String :=
  let d := d.strip
  if d.digits = 0 then "0.0"
  else if -5 < d.magnitude ∧ d.magnitude ≤ 16 then d.positional ".0"
  else d.scientific

end Decimal

/-! ## Floats -/

/-- A float inside a sentence: the fewest digits that read back, a tie between two candidates going
away from zero. -/
instance : NumText Float where
  numText x :=
    if x.isNaN then "NaN"
    else if x.isFinite then (Decimal.ofFloat .awayFromZero x).plain
    else if x < 0 then "-inf" else "inf"

end Dispatch
