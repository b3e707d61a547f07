import Dispatch.Json.Parser
import Dispatch.Text.Quoted

/-! # Identifiers of schedules

* `ScheduleId`: 32 hexadecimal digits.
* `ScheduleId.text`: the digits in groups of 8, 4, 4, 4 and 12, with hyphens between them.
* `ScheduleId.ofText?`: reads the digits without hyphens, or with them, then also in braces or
  behind `urn:uuid:`.
* `ScheduleId.ofRandom`: an identifier made from random digits.
-/

namespace Dispatch
set_option autoImplicit false

/-- The digits, as numbers below 16. -/
structure ScheduleId where
  digits : List Nat
deriving DecidableEq, Repr

namespace ScheduleId

def groups : List Nat := [8, 4, 4, 4, 12]

def digitText (ds : List Nat) : List Char := ds.map fun d => (Text.hex d).headD '0'

def textFrom : List Nat → List Nat → List Char
  | [], _ => []
  | [n], ds => digitText (ds.take n)
  | n :: rest, ds => digitText (ds.take n) ++ '-' :: textFrom rest (ds.drop n)

def text (id : ScheduleId) : String := String.ofList (textFrom groups id.digits)

def readGroups? : List Nat → List Char → Option (List Nat)
  | [], [] => some []
  | [], _ :: _ => none
  | [n], cs => if cs.length = n then cs.mapM Json.hexDigit? else none
  | n :: rest, cs =>
    match cs.drop n with
    | '-' :: tail => do
      let first ← (cs.take n).mapM Json.hexDigit?
      let others ← readGroups? rest tail
      return first ++ others
    | _ => none

def unbraced? : List Char → Option (List Char)
  | '\x7b' :: rest => if rest.getLast? = some '\x7d' then some rest.dropLast else none
  | _ => none

def urnPrefix : List Char := "urn:uuid:".toList

def ofText? (s : String) : Option ScheduleId :=
  let cs := s.toList
  let digits :=
    if cs.length = 32 then cs.mapM Json.hexDigit?
    else if cs.length = 36 then readGroups? groups cs
    else if cs.length = 38 then (unbraced? cs).bind (readGroups? groups)
    else if cs.length = 45 ∧ urnPrefix.isPrefixOf cs then
      readGroups? groups (cs.drop urnPrefix.length)
    else none
  digits.map ScheduleId.mk

/-- The identifier that 32 random digits make: the thirteenth digit says how it was made, and the upper
half of the seventeenth that its layout is the usual one. -/
def ofRandom (digits : List Nat) : ScheduleId :=
  ⟨digits.mapIdx fun i d => if i = 12 then 4 else if i = 16 then 8 + d % 4 else d % 16⟩

end ScheduleId

end Dispatch
