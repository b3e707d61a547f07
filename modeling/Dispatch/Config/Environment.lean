import Dispatch.Config.Toml
import Dispatch.Text.Blank

/-! # Settings in environment variables

* `Environment.value`: the setting that the text of a variable writes: a word, a number, a quoted text, a
  list or a table, and any other text as it stands.
* `Environment.path?`: the keys that the name of a variable stands for.
* `Environment.layer`: the settings of all variables that belong to the configuration.
* `Environment.names`: the variables that the settings of a configuration can be looked up under.

A fraction needs a point to be a number; digits with an exponent alone are a text.
-/

namespace Dispatch.Environment
set_option autoImplicit false

/-! ## Values -/

def isGap (c : Char) : Bool :=
  c == ' ' || c == '\t' || c == '\n' || c == '\x0c' || c == '\r'

def skipGap (cs : List Char) : List Char := cs.dropWhile isGap

def isSeparator (c : Char) : Bool :=
  c == ',' || c == '\x7b' || c == '\x7d' || c == '[' || c == ']'

/-- Digits with an optional sign, from -2^63 up to 2^64. -/
def integer? (cs : List Char) : Option Int :=
  let (negative, body) := Numeral.spanSign cs
  if body.isEmpty || !body.all Decimal.isDigit then none
  else
    let n : Int := Decimal.ofDigits 0 body
    let n := if negative then -n else n
    if -Setting.signedLimit ≤ n ∧ n < Setting.wordLimit then some n else none

def word (cs : List Char) : Setting :=
  let fraction := if cs.contains '.' then Numeral.read? cs else none
  match fraction with
  | some x => .float x
  | none =>
    match integer? cs with
    | some n => .integer n
    | none => .text (String.ofList cs)

/-- A text between quotes; a backslash keeps the character after it from ending the text. -/
def quoted? (cs : List Char) : Option (String × List Char) :=
  Toml.shortText '"' true (cs.length + 1) [] cs

def key? : List Char → Option (String × List Char)
  | '"' :: rest => quoted? rest
  | cs =>
    match cs.takeWhile Toml.isBare with
    | [] => none
    | name => some (String.ofList name, cs.dropWhile Toml.isBare)

mutual

/-- A value with blanks around it, and what follows. -/
def value? : Nat → List Char → Option (Setting × List Char)
  | 0, _ => none
  | fuel + 1, cs =>
    let cs := skipGap cs
    let found : Option (Setting × List Char) :=
      match cs with
      | '\x7b' :: rest => fields? fuel [] rest
      | '[' :: rest => items? fuel [] rest
      | '"' :: rest => (quoted? rest).map fun (s, rest) => (.text s, rest)
      | '\'' :: c :: '\'' :: rest => some (.text (String.singleton c), rest)
      | '\'' :: _ => none
      | cs =>
        match Json.afterWord? "true".toList cs, Json.afterWord? "false".toList cs with
        | some rest, _ => some (.flag true, rest)
        | none, some rest => some (.flag false, rest)
        | none, none =>
          some (word (Text.trim (cs.takeWhile fun c => !isSeparator c)),
            cs.dropWhile fun c => !isSeparator c)
    found.map fun (s, rest) => (s, skipGap rest)

/-- The items of a list from the next one on; `acc` holds the earlier ones, last first. -/
def items? : Nat → List Setting → List Char → Option (Setting × List Char)
  | 0, _, _ => none
  | fuel + 1, acc, cs =>
    match cs with
    | ']' :: rest => some (.list acc.reverse, rest)
    | cs =>
      match value? fuel cs with
      | some (v, ',' :: rest) => items? fuel (v :: acc) rest
      | some (v, ']' :: rest) => some (.list (v :: acc).reverse, rest)
      | _ => none

/-- The fields of a table from the next one on. -/
def fields? : Nat → List (String × Setting) → List Char → Option (Setting × List Char)
  | 0, _, _ => none
  | fuel + 1, acc, cs =>
    match cs with
    | '\x7d' :: rest => some (.table acc, rest)
    | cs =>
      match key? (skipGap cs) with
      | none => none
      | some (key, rest) =>
        match skipGap rest with
        | '=' :: rest =>
          match value? fuel rest with
          | some (v, ',' :: rest) => fields? fuel (Setting.upsert key (fun _ => v) acc) rest
          | some (v, '\x7d' :: rest) => some (.table (Setting.upsert key (fun _ => v) acc), rest)
          | _ => none
        | _ => none

end

/-- A text that is no value from end to end stands for itself. -/
def value (s : String) : Setting :=
  let cs := s.toList
  match value? (2 * cs.length + 2) cs with
  | some (v, []) => v
  | _ => .text s

/-! ## Names -/

/-- The text before every variable of the configuration. -/
def mark : List Char := "oes__".toList

def pointed : List Char → List Char
  | '_' :: '_' :: rest => '.' :: pointed rest
  | c :: rest => c :: pointed rest
  | [] => []

def parts : List Char → List (List Char)
  | [] => [[]]
  | c :: rest =>
    match parts rest with
    | first :: others => if c = '.' then [] :: first :: others else (c :: first) :: others
    | [] => [[c]]

/-- None for a name that does not belong to the configuration, and for one with an empty part. Case
does not matter. -/
def path? (name : String) : Option (List String) :=
  let cs := (Text.trim name.toList).map Char.toLower
  if mark.isPrefixOf cs then
    let keys := parts (Text.trim (pointed (cs.drop mark.length)))
    if keys.any List.isEmpty then none else some (keys.map String.ofList)
  else none

def nest (s : Setting) : List String → Setting
  | [] => s
  | key :: path => .table [(key, nest s path)]

/-- Later variables are laid over earlier ones. -/
def layer (bindings : List (String × String)) : Setting :=
  bindings.foldl
    (fun under (name, text) =>
      match path? name with
      | some path => under.merge (nest (value text) path)
      | none => under)
    (.table [])

def names : Setting → List String
  | .table sections => sections.flatMap fun (part, fields) =>
    match fields with
    | .table entries => entries.map fun (key, _) =>
      "OES__" ++ part.toUpper ++ "__" ++ key.toUpper
    | _ => []
  | _ => []

end Dispatch.Environment
