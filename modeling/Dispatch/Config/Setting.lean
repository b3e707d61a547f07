import Dispatch.Json.Basic
import Dispatch.Decimal.Literal
import Dispatch.Named
import Dispatch.Scalar

/-! # Settings

* `Setting`: a value of a configuration, whatever notation it was written in.
* `Setting.merge`: one configuration laid over another; tables are merged key by key, anything else is
  replaced.
* `Setting.ofJson`: a setting written in JSON.
* `Setting.entries?`: the values of a section, written as a table, or as a list in order.
* `Setting.nat?`, `Setting.number?`, …: the values of a kind. No kind is read as another, except that an
  integer is a number.
-/

namespace Dispatch
set_option autoImplicit false

inductive Setting where
  | empty
  | flag (b : Bool)
  | integer (n : Int)
  | float (x : Numeral)
  | text (s : String)
  | list (items : List Setting)
  | table (fields : List (String × Setting))
deriving Repr, Inhabited

namespace Setting

/-! ## Merging -/

def upsert {β : Type} (key : String) (f : Option β → β) : List (String × β) → List (String × β)
  | [] => [(key, f none)]
  | (k, v) :: rest => if k == key then (k, f (some v)) :: rest else (k, v) :: upsert key f rest

mutual

def merge (under : Setting) : Setting → Setting
  | table fields =>
    match under with
    | table below => table (mergeFields below fields)
    | _ => table (mergeFields [] fields)
  | above => above

def mergeFields (below : List (String × Setting)) :
    List (String × Setting) → List (String × Setting)
  | [] => below
  | (key, v) :: rest => mergeFields (upsert key (fun old => merge (old.getD empty) v) below) rest

end

/-! ## JSON -/

/-- Two to the 63rd: signed words are below it. -/
def signedLimit : Nat := 9223372036854775808

/-- Two to the 64th: words are below it. -/
def wordLimit : Nat := 18446744073709551616

/-- Whole numbers between -2^63 and 2^64 are integers, all others floats; so is -0. -/
def ofNumber (d : Decimal) (whole : Bool) : Setting :=
  match (Json.number d whole).int? with
  | some n =>
    if (d.negative && n == 0) || n < -signedLimit || wordLimit ≤ n then float (.finite d)
    else integer n
  | none => float (.finite d)

mutual

def ofJson : Json → Setting
  | .null => empty
  | .bool b => flag b
  | .number d whole => ofNumber d whole
  | .string s => text s
  | .array items => list (ofItems items)
  | .object fields => table (ofFields [] fields)

def ofItems : List Json → List Setting
  | [] => []
  | v :: rest => ofJson v :: ofItems rest

/-- A key given twice has its last value. -/
def ofFields (acc : List (String × Setting)) : List (String × Json) → List (String × Setting)
  | [] => acc
  | (key, v) :: rest => ofFields (upsert key (fun _ => ofJson v) acc) rest

end

/-! ## Sections -/

/-- The values under these keys; a list holds them in order. -/
def entries? (keys : List String) : Setting → Option (List (String × Setting))
  | table fields => some fields
  | list items => some (keys.zip items)
  | _ => none

def need {β : Type} (fields : List (String × Setting)) (key : String)
    (read : Setting → Option β) : Option β :=
  ((fields.find? fun f => f.1 == key).map Prod.snd).bind read

/-! ## Kinds of values -/

/-- An integer from zero up to a limit. -/
def nat? (limit : Nat) : Setting → Option Nat
  | integer n => if 0 ≤ n ∧ n < limit then some n.toNat else none
  | _ => none

def flag? : Setting → Option Bool
  | flag b => some b
  | _ => none

def text? : Setting → Option String
  | text s => some s
  | _ => none

def number? {α : Type} [Scalar α] : Setting → Option α
  | integer n => some (Scalar.ofInt n)
  | float (.finite d) => some (Scalar.ofDecimal d)
  | float (.infinite negative) => some (if negative then Scalar.negInfinity else Scalar.infinity)
  | float .notANumber => some (Scalar.infinity - Scalar.infinity)
  | _ => none

/-- The key of a table that comes first in the order of the keys, with its value. -/
def first? : List (String × Setting) → Option (String × Setting)
  | [] => none
  | f :: rest => some (rest.foldl (fun a b => if b.1 < a.1 then b else a) f)

/-- A choice by its name, or by a table with its name as the first key and nothing under it. -/
def choice? {β : Type} [Named β] : Setting → Option β
  | text s => Named.ofName? s
  | table fields =>
    match first? fields with
    | some (key, empty) => Named.ofName? key
    | _ => none
  | _ => none

end Setting

end Dispatch
