import Dispatch.Json.Basic

/-! # Records in JSON

* `RecordShape`: the keys of a record in order, which of them may be missing from its end, and whether
  other keys are refused.
* `RecordShape.read?`: a record written as an object, or as an array of its values in order.
* `Record.need`, `Record.maybe`, `Record.orElse`: a field that must be there, one that may be absent
  or `null`, and one with a value of its own when absent.
-/

namespace Dispatch
set_option autoImplicit false

structure RecordShape where
  /-- The keys, and whether an array may end before their values. -/
  keys : List (String × Bool)
  closed : Bool

abbrev Record := List (String × Json)

namespace RecordShape

def read? (shape : RecordShape) : Json → Option Record
  | .object fields =>
    if shape.closed && fields.any (fun f => !shape.keys.any fun k => k.1 == f.1) then none
    else some fields
  | .array items =>
    if shape.keys.length < items.length then none
    else if (shape.keys.drop items.length).all Prod.snd then
      some ((shape.keys.map Prod.fst).zip items)
    else none
  | _ => none

end RecordShape

namespace Record
variable {β : Type}

def raw? (r : Record) (key : String) : Option Json :=
  (r.reverse.find? fun f => f.1 == key).map Prod.snd

def need (r : Record) (key : String) (read : Json → Option β) : Option β := (r.raw? key).bind read

def maybe (r : Record) (key : String) (read : Json → Option β) : Option (Option β) :=
  match r.raw? key with
  | none | some .null => some none
  | some j => (read j).map some

def orElse (r : Record) (key : String) (default : β) (read : Json → Option β) : Option β :=
  match r.raw? key with
  | none => some default
  | some j => read j

end Record

namespace Json
variable {β : Type}

def listOf? (read : Json → Option β) : Json → Option (List β)
  | array items => items.mapM read
  | _ => none

end Json

end Dispatch
