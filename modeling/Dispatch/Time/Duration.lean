import Dispatch.Fault

/-! # Durations as text

* `Duration.readFrom`: the components of a duration, added up in seconds.
* `Duration.ofText`: `P`, weeks and days, then `T`, hours, minutes and seconds, in any order inside
  each part. Years and months are refused, as their lengths vary.
-/

namespace Dispatch.Duration
set_option autoImplicit false

variable {α : Type} [Scalar α]

/-- Seconds in one unit of a designator, by the part of the duration it stands in. -/
def unitSeconds (inTime : Bool) (c : Char) : Except DurationFault α :=
  match inTime, c with
  | false, 'W' => .ok (Scalar.ofNat 604800)
  | false, 'D' => .ok (Scalar.ofNat 86400)
  | true, 'H' => .ok (Scalar.ofNat 3600)
  | true, 'M' => .ok (Scalar.ofNat 60)
  | true, 'S' => .ok 1
  | false, 'Y' | false, 'M' => .error .calendarUnit
  | _, _ => .error .unknownDesignator

/-- Read on after some components: whether the `T` has passed, whether there was a component, the
seconds so far, and the number that waits for its designator. -/
def readFrom (inTime started : Bool) (total : α) (pending : List Char) :
    List Char → Except DurationFault α
  | [] =>
    if !pending.isEmpty then .error .trailingNumber
    else if started then .ok total
    else .error .noComponents
  | c :: rest =>
    if c = 'T' ∧ inTime = false ∧ pending = [] then readFrom true started total [] rest
    else if Decimal.isDigit c || c == '.' then readFrom inTime started total (pending ++ [c]) rest
    else
      match Numeral.unsigned? false pending with
      | none => .error .missingNumber
      | some n =>
        match unitSeconds inTime c with
        | .error e => .error e
        | .ok k => readFrom inTime true (total + Scalar.ofDecimal n * k) [] rest

def seconds : List Char → Except DurationFault α
  | [] => .error .noLeadingP
  | 'P' :: body => if body.isEmpty then .error .empty else readFrom false false 0 [] body
  | _ :: _ => .error .noLeadingP

def ofText (s : String) : Checked α Span :=
  let cs := Text.trim s.toList
  match (seconds cs : Except DurationFault α) with
  | .ok total => .ok (Span.ofMillis (Scalar.roundInt (total * Scalar.ofNat 1000)))
  | .error e => .error (.text (String.ofList cs) (.duration e))

end Dispatch.Duration
