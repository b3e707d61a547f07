import Dispatch.Json.Basic
import Dispatch.Decimal.Literal

/-! # Reading JSON

* `Json.parseValue`: one value at the front of a text and what follows it.
* `Json.parse?`: a text that is one value, with blanks around it.

Each value uses up at least one character, so the length of the text bounds the depth of the
recursion.
-/

namespace Dispatch.Json
set_option autoImplicit false

def isSpace (c : Char) : Bool := c == ' ' || c == '\n' || c == '\t' || c == '\r'

def skipSpace (cs : List Char) : List Char := cs.dropWhile isSpace

/-! ## Texts -/

def hexDigit? (c : Char) : Option Nat :=
  if '0' ≤ c ∧ c ≤ '9' then some (c.toNat - '0'.toNat)
  else if 'a' ≤ c ∧ c ≤ 'f' then some (c.toNat - 'a'.toNat + 10)
  else if 'A' ≤ c ∧ c ≤ 'F' then some (c.toNat - 'A'.toNat + 10)
  else none

def hexUnit? : List Char → Option (Nat × List Char)
  | a :: b :: c :: d :: rest => do
    let a ← hexDigit? a
    let b ← hexDigit? b
    let c ← hexDigit? c
    let d ← hexDigit? d
    return (((a * 16 + b) * 16 + c) * 16 + d, rest)
  | _ => none

/-- What follows a backslash and `u`; two halves of a pair make one character. -/
def unicodeEscape? (cs : List Char) : Option (Char × List Char) := do
  let (n, rest) ← hexUnit? cs
  if 0xD800 ≤ n ∧ n < 0xDC00 then
    match rest with
    | '\\' :: 'u' :: rest =>
      let (m, rest) ← hexUnit? rest
      if 0xDC00 ≤ m ∧ m < 0xE000 then
        some (Char.ofNat (0x10000 + (n - 0xD800) * 0x400 + (m - 0xDC00)), rest)
      else none
    | _ => none
  else if 0xDC00 ≤ n ∧ n < 0xE000 then none
  else some (Char.ofNat n, rest)

/-- The rest of a text after its opening quote; `acc` holds what was read, last first. -/
def parseText : Nat → List Char → List Char → Option (String × List Char)
  | 0, _, _ => none
  | fuel + 1, acc, cs =>
    match cs with
    | '"' :: rest => some (String.ofList acc.reverse, rest)
    | '\\' :: c :: rest =>
      match c with
      | '"' => parseText fuel ('"' :: acc) rest
      | '\\' => parseText fuel ('\\' :: acc) rest
      | '/' => parseText fuel ('/' :: acc) rest
      | 'b' => parseText fuel ('\x08' :: acc) rest
      | 'f' => parseText fuel ('\x0c' :: acc) rest
      | 'n' => parseText fuel ('\n' :: acc) rest
      | 'r' => parseText fuel ('\r' :: acc) rest
      | 't' => parseText fuel ('\t' :: acc) rest
      | 'u' =>
        match unicodeEscape? rest with
        | some (c, rest) => parseText fuel (c :: acc) rest
        | none => none
      | _ => none
    | c :: rest => if c.toNat < 0x20 then none else parseText fuel (c :: acc) rest
    | [] => none

/-! ## Numbers -/

def isNumberChar (c : Char) : Bool :=
  Decimal.isDigit c || c == '-' || c == '+' || c == '.' || c == 'e' || c == 'E'

def wellFormed (body : List Char) : Bool :=
  let whole := body.takeWhile Decimal.isDigit
  let rest := body.dropWhile Decimal.isDigit
  let wholeOk := match whole with
    | [] => false
    | ['0'] => true
    | c :: _ => c != '0'
  let partOk := match rest with
    | '.' :: c :: _ => Decimal.isDigit c
    | ['.'] => false
    | _ => true
  wholeOk && partOk

def parseNumber (cs : List Char) : Option (Json × List Char) :=
  let text := cs.takeWhile isNumberChar
  let rest := cs.dropWhile isNumberChar
  let (negative, body) := match text with
    | '-' :: body => (true, body)
    | body => (false, body)
  if wellFormed body then
    (Numeral.unsigned? negative body).map fun d =>
      (number d (body.all Decimal.isDigit), rest)
  else none

/-! ## Values -/

def afterWord? (word : List Char) (cs : List Char) : Option (List Char) :=
  if word.isPrefixOf cs then some (cs.drop word.length) else none

mutual

def parseValue : Nat → List Char → Option (Json × List Char)
  | 0, _ => none
  | fuel + 1, cs =>
    match skipSpace cs with
    | '"' :: rest => (parseText (rest.length + 1) [] rest).map fun (s, rest) => (string s, rest)
    | '[' :: rest =>
      match skipSpace rest with
      | ']' :: rest => some (array [], rest)
      | rest => parseItems fuel [] rest
    | '\x7b' :: rest =>
      match skipSpace rest with
      | '\x7d' :: rest => some (object [], rest)
      | rest => parseFields fuel [] rest
    | 't' :: rest => (afterWord? ['r', 'u', 'e'] rest).map fun rest => (bool true, rest)
    | 'f' :: rest => (afterWord? ['a', 'l', 's', 'e'] rest).map fun rest => (bool false, rest)
    | 'n' :: rest => (afterWord? ['u', 'l', 'l'] rest).map fun rest => (null, rest)
    | cs => parseNumber cs

/-- The items of an array from the next one on; `acc` holds the earlier ones, last first. -/
def parseItems : Nat → List Json → List Char → Option (Json × List Char)
  | 0, _, _ => none
  | fuel + 1, acc, cs =>
    match parseValue fuel cs with
    | none => none
    | some (v, rest) =>
      match skipSpace rest with
      | ',' :: rest => parseItems fuel (v :: acc) rest
      | ']' :: rest => some (array (v :: acc).reverse, rest)
      | _ => none

/-- The fields of an object from the next one on; `acc` holds the earlier ones, last first. -/
def parseFields : Nat → List (String × Json) → List Char → Option (Json × List Char)
  | 0, _, _ => none
  | fuel + 1, acc, cs =>
    match skipSpace cs with
    | '"' :: rest =>
      match parseText (rest.length + 1) [] rest with
      | none => none
      | some (key, rest) =>
        match skipSpace rest with
        | ':' :: rest =>
          match parseValue fuel rest with
          | none => none
          | some (v, rest) =>
            match skipSpace rest with
            | ',' :: rest => parseFields fuel ((key, v) :: acc) rest
            | '\x7d' :: rest => some (object ((key, v) :: acc).reverse, rest)
            | _ => none
        | _ => none
    | _ => none

end

def parse? (text : String) : Option Json :=
  let cs := text.toList
  match parseValue (cs.length + 1) cs with
  | some (v, rest) => if (skipSpace rest).isEmpty then some v else none
  | none => none

end Dispatch.Json
