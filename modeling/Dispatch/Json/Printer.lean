import Dispatch.Json.Basic
import Dispatch.Decimal.Notation

/-! # Writing JSON

* `Json.render`: a value on one line without blanks.
* `Json.pretty`: a value over several lines, two blanks to a level.
-/

namespace Dispatch.Json
set_option autoImplicit false

def hexPad (n : Nat) : List Char :=
  let ds := Nat.toDigits 16 n
  List.replicate (4 - ds.length) '0' ++ ds

def escapeChar (c : Char) : List Char :=
  match c with
  | '"' => ['\\', '"']
  | '\\' => ['\\', '\\']
  | '\n' => ['\\', 'n']
  | '\t' => ['\\', 't']
  | '\r' => ['\\', 'r']
  | '\x08' => ['\\', 'b']
  | '\x0c' => ['\\', 'f']
  | c => if c.toNat < 0x20 then ['\\', 'u'] ++ hexPad c.toNat else [c]

def renderText (s : String) : String :=
  String.ofList ('"' :: s.toList.flatMap escapeChar ++ ['"'])

def renderNumber (d : Decimal) (whole : Bool) : String :=
  if whole then (if d.digits = 0 then "0" else d.positional "") else d.data

mutual

def render : Json → String
  | null => "null"
  | bool b => if b then "true" else "false"
  | number d whole => renderNumber d whole
  | string s => renderText s
  | array items => "[" ++ renderItems items ++ "]"
  | object fields => "\x7b" ++ renderFields fields ++ "\x7d"

def renderItems : List Json → String
  | [] => ""
  | [v] => render v
  | v :: rest => render v ++ "," ++ renderItems rest

def renderFields : List (String × Json) → String
  | [] => ""
  | [(k, v)] => renderText k ++ ":" ++ render v
  | (k, v) :: rest => renderText k ++ ":" ++ render v ++ "," ++ renderFields rest

end

/-! ## Several lines -/

def indent (level : Nat) : String := "\n" ++ String.ofList (List.replicate (2 * level) ' ')

mutual

def prettyAt (level : Nat) : Json → String
  | array [] => "[]"
  | array items => "[" ++ prettyItems (level + 1) items ++ indent level ++ "]"
  | object [] => "\x7b\x7d"
  | object fields => "\x7b" ++ prettyFields (level + 1) fields ++ indent level ++ "\x7d"
  | null => "null"
  | bool b => if b then "true" else "false"
  | number d whole => renderNumber d whole
  | string s => renderText s

def prettyItems (level : Nat) : List Json → String
  | [] => ""
  | [v] => indent level ++ prettyAt level v
  | v :: rest => indent level ++ prettyAt level v ++ "," ++ prettyItems level rest

def prettyFields (level : Nat) : List (String × Json) → String
  | [] => ""
  | [(k, v)] => indent level ++ renderText k ++ ": " ++ prettyAt level v
  | (k, v) :: rest =>
    indent level ++ renderText k ++ ": " ++ prettyAt level v ++ "," ++ prettyFields level rest

end

def pretty (j : Json) : String := prettyAt 0 j

end Dispatch.Json
