import Dispatch.Config.Setting
import Dispatch.Json.Parser
import Dispatch.Time.Calendar

/-! # Reading TOML

* `Toml.value?`: one value at the front of a text and what follows it.
* `Toml.Node`: what a key stands for while the document is read; a table remembers how it came to be.
* `Toml.descend`: go down a path of keys and change the table at its end.
* `Toml.read?`: a whole document as a table of settings.

A key is given once. A table has one header at most; a header may still name a table that only stood
on the way to others. Dotted keys add to tables that came from dotted keys, and to no others.
A date or a time is no setting of any kind and reads as an empty table.
-/

namespace Dispatch.Toml
set_option autoImplicit false

/-! ## Lines -/

def isGap (c : Char) : Bool := c == ' ' || c == '\t'

def skipGap (cs : List Char) : List Char := cs.dropWhile isGap

/-- A control character; only the tab may stand in texts and comments. -/
def isControl (c : Char) : Bool := (c.toNat < 0x20 && c != '\t') || c.toNat == 0x7f

def newline? : List Char → Option (List Char)
  | '\n' :: rest => some rest
  | '\r' :: '\n' :: rest => some rest
  | _ => none

def skipComment : List Char → List Char
  | '#' :: rest => rest.dropWhile fun c => !isControl c
  | cs => cs

def lineEnd? (cs : List Char) : Option (List Char) :=
  match skipComment (skipGap cs) with
  | [] => some []
  | cs => newline? cs

def skipLines : Nat → List Char → List Char
  | 0, cs => cs
  | fuel + 1, cs =>
    let cs := skipComment (skipGap cs)
    match newline? cs with
    | some rest => skipLines fuel rest
    | none => cs

/-! ## Texts -/

def hexNumber? (count : Nat) (cs : List Char) : Option (Nat × List Char) :=
  if cs.length < count then none
  else ((cs.take count).mapM Json.hexDigit?).map fun ds =>
    (ds.foldl (fun n d => 16 * n + d) 0, cs.drop count)

/-- A character by its number, so many digits long. -/
def numbered? (count : Nat) (cs : List Char) : Option (Char × List Char) :=
  match hexNumber? count cs with
  | some (n, rest) =>
    if n < 0xD800 ∨ (0xE000 ≤ n ∧ n < 0x110000) then some (Char.ofNat n, rest) else none
  | none => none

def escape? : List Char → Option (Char × List Char)
  | 'b' :: rest => some ('\x08', rest)
  | 't' :: rest => some ('\t', rest)
  | 'n' :: rest => some ('\n', rest)
  | 'f' :: rest => some ('\x0c', rest)
  | 'r' :: rest => some ('\r', rest)
  | '"' :: rest => some ('"', rest)
  | '\\' :: rest => some ('\\', rest)
  | 'u' :: rest => numbered? 4 rest
  | 'U' :: rest => numbered? 8 rest
  | _ => none

/-- The rest of a text on one line; `acc` holds what was read, last first. -/
def shortText (quote : Char) (escapes : Bool) :
    Nat → List Char → List Char → Option (String × List Char)
  | 0, _, _ => none
  | fuel + 1, acc, cs =>
    match cs with
    | [] => none
    | c :: rest =>
      if c = quote then some (String.ofList acc.reverse, rest)
      else if c = '\\' ∧ escapes then
        match escape? rest with
        | some (c, rest) => shortText quote escapes fuel (c :: acc) rest
        | none => none
      else if isControl c then none
      else shortText quote escapes fuel (c :: acc) rest

/-- The quotes of a closing triple, of which up to two more belong to the text. -/
def closing? (quote : Char) (cs : List Char) : Option (Nat × List Char) :=
  let quotes := (cs.takeWhile (· == quote)).length
  if quotes < 3 then none else some (min (quotes - 3) 2, cs.drop (min quotes 5))

/-- The rest of a text over several lines. A backslash at the end of a line takes the line end and the
blanks after it away. -/
def longText (quote : Char) (escapes : Bool) :
    Nat → List Char → List Char → Option (String × List Char)
  | 0, _, _ => none
  | fuel + 1, acc, cs =>
    match closing? quote cs with
    | some (more, rest) => some (String.ofList (acc.reverse ++ List.replicate more quote), rest)
    | none =>
      match newline? cs with
      | some rest => longText quote escapes fuel ('\n' :: acc) rest
      | none =>
        match cs with
        | [] => none
        | c :: rest =>
          if c = '\\' ∧ escapes then
            match newline? (skipGap rest) with
            | some rest =>
              longText quote escapes fuel acc
                (rest.dropWhile fun c => isGap c || c == '\n' || c == '\r')
            | none =>
              match escape? rest with
              | some (c, rest) => longText quote escapes fuel (c :: acc) rest
              | none => none
          else if isControl c then none
          else longText quote escapes fuel (c :: acc) rest

/-- A line end right after the opening quotes does not count. -/
def afterOpening (cs : List Char) : List Char := (newline? cs).getD cs

def text? : List Char → Option (String × List Char)
  | '"' :: '"' :: '"' :: rest => longText '"' true (rest.length + 1) [] (afterOpening rest)
  | '\'' :: '\'' :: '\'' :: rest => longText '\'' false (rest.length + 1) [] (afterOpening rest)
  | '"' :: rest => shortText '"' true (rest.length + 1) [] rest
  | '\'' :: rest => shortText '\'' false (rest.length + 1) [] rest
  | _ => none

/-! ## Keys -/

def isBare (c : Char) : Bool := c.isAlphanum || c == '_' || c == '-'

def keyPart? : List Char → Option (String × List Char)
  | '"' :: rest => shortText '"' true (rest.length + 1) [] rest
  | '\'' :: rest => shortText '\'' false (rest.length + 1) [] rest
  | cs =>
    match cs.takeWhile isBare with
    | [] => none
    | word => some (String.ofList word, cs.dropWhile isBare)

def key? : Nat → List Char → Option (List String × List Char)
  | 0, _ => none
  | fuel + 1, cs =>
    match keyPart? (skipGap cs) with
    | none => none
    | some (part, rest) =>
      match skipGap rest with
      | '.' :: rest => (key? fuel rest).map fun (parts, rest) => (part :: parts, rest)
      | rest => some ([part], rest)

/-! ## Numbers -/

def grouped? (isDigit : Char → Bool) : List Char → Option (List Char)
  | [] => none
  | [c] => if isDigit c then some [c] else none
  | c :: '_' :: d :: rest =>
    if isDigit c then (grouped? isDigit (d :: rest)).map (c :: ·) else none
  | c :: d :: rest => if isDigit c then (grouped? isDigit (d :: rest)).map (c :: ·) else none

def wholeDigits? (cs : List Char) : Option (List Char) :=
  match grouped? Decimal.isDigit cs with
  | some ('0' :: _ :: _) => none
  | ds => ds

def inBase (base : Nat) (cs : List Char) : Option Nat :=
  let isDigit (c : Char) : Bool := (Json.hexDigit? c).any (· < base)
  (grouped? isDigit cs).map fun ds =>
    ds.foldl (fun n c => base * n + (Json.hexDigit? c).getD 0) 0

def integer? (cs : List Char) : Option Int :=
  let n? : Option Int := match cs with
    | '0' :: 'x' :: ds => (inBase 16 ds).map Int.ofNat
    | '0' :: 'o' :: ds => (inBase 8 ds).map Int.ofNat
    | '0' :: 'b' :: ds => (inBase 2 ds).map Int.ofNat
    | cs =>
      let (negative, body) := Numeral.spanSign cs
      (wholeDigits? body).map fun ds =>
        let n : Int := Decimal.ofDigits 0 ds
        if negative then -n else n
  n?.filter fun n => -Setting.signedLimit ≤ n && n < Setting.signedLimit

def isMark (c : Char) : Bool := c == 'e' || c == 'E'

def exponent? (cs : List Char) : Option Int :=
  let (negative, body) := Numeral.spanSign cs
  (grouped? Decimal.isDigit body).map fun ds =>
    let n : Int := Decimal.ofDigits 0 ds
    if negative then -n else n

/-- Digits with a fraction, an exponent, or both. Too large a number is none, unless it is
negative. -/
def finite? (negative : Bool) (body : List Char) : Option Decimal := do
  let mantissa := body.takeWhile fun c => !isMark c
  let power := body.dropWhile fun c => !isMark c
  let isPoint (c : Char) : Bool := c == '.'
  let whole ← wholeDigits? (mantissa.takeWhile fun c => !isPoint c)
  let part ← match mantissa.dropWhile fun c => !isPoint c with
    | [] => some []
    | _ :: ds => grouped? Decimal.isDigit ds
  let e ← match power with
    | [] => if part.isEmpty then none else some 0
    | _ :: cs => exponent? cs
  let d : Decimal := ⟨negative, Decimal.ofDigits 0 (whole ++ part), e - part.length⟩
  if !negative && d.toFloat.isInf then none else some d

def float? (cs : List Char) : Option Numeral :=
  let (negative, body) := Numeral.spanSign cs
  if body = ['i', 'n', 'f'] then some (.infinite negative)
  else if body = ['n', 'a', 'n'] then some .notANumber
  else (finite? negative body).map .finite

/-! ## Dates and times -/

/-- So many digits that write a number within limits. -/
def digits? (count low high : Nat) (cs : List Char) : Option (Nat × List Char) :=
  let ds := cs.take count
  let n := Decimal.ofDigits 0 ds
  if ds.length = count ∧ ds.all Decimal.isDigit ∧ low ≤ n ∧ n ≤ high then some (n, cs.drop count)
  else none

def after? (c : Char) : List Char → Option (List Char)
  | d :: rest => if c = d then some rest else none
  | [] => none

def date? (cs : List Char) : Option (List Char) := do
  let (y, cs) ← digits? 4 0 9999 cs
  let (m, cs) ← digits? 2 1 12 (← after? '-' cs)
  let (_, cs) ← digits? 2 1 (Date.daysInMonth y m) (← after? '-' cs)
  return cs

def clock? (cs : List Char) : Option (List Char) := do
  let (_, cs) ← digits? 2 0 23 cs
  let (_, cs) ← digits? 2 0 59 (← after? ':' cs)
  let (_, cs) ← digits? 2 0 60 (← after? ':' cs)
  match cs with
  | '.' :: c :: rest => if Decimal.isDigit c then some (rest.dropWhile Decimal.isDigit) else none
  | cs => some cs

def isOffset (cs : List Char) : Bool :=
  match cs with
  | [] | ['Z'] | ['z'] => true
  | c :: rest =>
    (c == '+' || c == '-') &&
      ((do
        let (_, cs) ← digits? 2 0 23 rest
        let (_, cs) ← digits? 2 0 59 (← after? ':' cs)
        return cs.isEmpty : Option Bool).getD false)

def isMoment (cs : List Char) : Bool :=
  match date? cs with
  | some [] => true
  | some (c :: rest) =>
    (c == 'T' || c == 't' || c == ' ') && (clock? rest).any isOffset
  | none => (clock? cs).any List.isEmpty

/-! ## Tables -/

/-- How a table came to be: by a header, on the way of a header, or by a dotted key. -/
inductive Origin where
  | stated
  | implied
  | dotted
deriving DecidableEq, Repr

inductive Node where
  | value (s : Setting)
  | table (origin : Origin) (fields : List (String × Node))
  /-- Tables with one header each, the last one first. -/
  | tables (items : List (List (String × Node)))
deriving Inhabited

abbrev Fields := List (String × Node)

mutual

def Node.setting : Node → Setting
  | .value s => s
  | .table _ fields => .table (fieldSettings fields)
  | .tables items => .list (itemSettings items).reverse

def fieldSettings : List (String × Node) → List (String × Setting)
  | [] => []
  | (key, node) :: rest => (key, node.setting) :: fieldSettings rest

def itemSettings : List (List (String × Node)) → List Setting
  | [] => []
  | fields :: rest => .table (fieldSettings fields) :: itemSettings rest

end

/-- Change what a key stands for, or give it a meaning. -/
def alter (key : String) (f : Option Node → Option Node) : Fields → Option Fields
  | [] => (f none).map fun node => [(key, node)]
  | (k, node) :: rest =>
    if k == key then (f (some node)).map fun node => (k, node) :: rest
    else (alter key f rest).map ((k, node) :: ·)

def define (key : String) (node : Node) : Fields → Option Fields :=
  alter key fun
    | none => some node
    | some _ => none

/-- Go down a path and change the table at its end, which `f` gets with its origin. The way leads
through the last one of several tables; a dotted way does not lead through tables with a header. -/
def descend (dotted : Bool) (f : Origin → Fields → Option Fields) :
    Origin → List String → Fields → Option Fields
  | origin, [], fields => f origin fields
  | _, key :: path, fields =>
    alter key
      (fun
        | none =>
          let origin := if dotted then Origin.dotted else Origin.implied
          (descend dotted f origin path []).map (Node.table origin)
        | some (.table origin inner) =>
          if dotted ∧ origin = .stated then none
          else (descend dotted f origin path inner).map (Node.table origin)
        | some (.tables (last :: earlier)) =>
          (descend dotted f .stated path last).map fun fields => Node.tables (fields :: earlier)
        | some (.tables []) => none
        | some (.value _) => none)
      fields

def assign (path : List String) (s : Setting) (fields : Fields) : Option Fields :=
  match path.getLast? with
  | none => none
  | some key =>
    let way := path.dropLast
    descend true
      (fun origin inner =>
        if way.isEmpty ∨ origin = .dotted then define key (.value s) inner else none)
      .stated way fields

/-! ## Values -/

def isTokenChar (c : Char) : Bool :=
  c.isAlphanum || c == '_' || c == '+' || c == '-' || c == '.' || c == ':'

/-- A word that is neither a text nor made of other values, and what follows it. A blank may stand
between a date and a time. -/
def token (cs : List Char) : List Char × List Char :=
  let word := cs.takeWhile isTokenChar
  let rest := cs.dropWhile isTokenChar
  match rest with
  | ' ' :: c :: more =>
    if date? word = some [] ∧ Decimal.isDigit c then
      (word ++ ' ' :: (c :: more).takeWhile isTokenChar, (c :: more).dropWhile isTokenChar)
    else (word, rest)
  | _ => (word, rest)

def plain? (word : List Char) : Option Setting :=
  if word = "true".toList then some (.flag true)
  else if word = "false".toList then some (.flag false)
  else match integer? word with
    | some n => some (.integer n)
    | none =>
      match float? word with
      | some x => some (.float x)
      | none => if isMoment word then some (.table []) else none

mutual

def value? : Nat → List Char → Option (Setting × List Char)
  | 0, _ => none
  | fuel + 1, cs =>
    match cs with
    | '[' :: rest => items? fuel [] rest
    | '\x7b' :: rest =>
      match skipGap rest with
      | '\x7d' :: rest => some (.table [], rest)
      | rest => inline? fuel [] rest
    | '"' :: _ | '\'' :: _ => (text? cs).map fun (s, rest) => (.text s, rest)
    | cs =>
      let (word, rest) := token cs
      (plain? word).map fun s => (s, rest)

/-- The items of a list from the next one on; `acc` holds the earlier ones, last first. -/
def items? : Nat → List Setting → List Char → Option (Setting × List Char)
  | 0, _, _ => none
  | fuel + 1, acc, cs =>
    match skipLines cs.length cs with
    | ']' :: rest => some (.list acc.reverse, rest)
    | cs =>
      match value? fuel cs with
      | none => none
      | some (v, rest) =>
        match skipLines rest.length rest with
        | ',' :: rest => items? fuel (v :: acc) rest
        | ']' :: rest => some (.list (v :: acc).reverse, rest)
        | _ => none

/-- The fields of a table between braces from the next one on. -/
def inline? : Nat → Fields → List Char → Option (Setting × List Char)
  | 0, _, _ => none
  | fuel + 1, acc, cs =>
    match key? (cs.length + 1) cs with
    | some (path, '=' :: rest) =>
      match value? fuel (skipGap rest) with
      | none => none
      | some (v, rest) =>
        match assign path v acc with
        | none => none
        | some acc =>
          match skipGap rest with
          | ',' :: rest => inline? fuel acc rest
          | '\x7d' :: rest => some (.table (fieldSettings acc), rest)
          | _ => none
    | _ => none

end

/-! ## Documents -/

/-- What was read so far, and the table that the last header named. -/
structure Document where
  root : Fields
  path : List String

namespace Document

def openTable (d : Document) (path : List String) : Option Document :=
  match path.getLast? with
  | none => none
  | some key =>
    let state (_ : Origin) : Fields → Option Fields :=
      alter key fun
        | none => some (.table .stated [])
        | some (.table .implied inner) => some (.table .stated inner)
        | some _ => none
    (descend false state .stated path.dropLast d.root).map fun root => ⟨root, path⟩

def openItem (d : Document) (path : List String) : Option Document :=
  match path.getLast? with
  | none => none
  | some key =>
    let state (_ : Origin) : Fields → Option Fields :=
      alter key fun
        | none => some (.tables [[]])
        | some (.tables items) => some (.tables ([] :: items))
        | some _ => none
    (descend false state .stated path.dropLast d.root).map fun root => ⟨root, path⟩

/-- A key and its value, in the table of the last header. -/
def add (d : Document) (path : List String) (s : Setting) : Option Document :=
  (descend false (fun _ fields => assign path s fields) .stated d.path d.root).map fun root =>
    { d with root := root }

def line? (d : Document) (cs : List Char) : Option (Document × List Char) :=
  match skipGap cs with
  | '[' :: '[' :: rest =>
    match key? (rest.length + 1) rest with
    | some (path, ']' :: ']' :: rest) => do return (← d.openItem path, ← lineEnd? rest)
    | _ => none
  | '[' :: rest =>
    match key? (rest.length + 1) rest with
    | some (path, ']' :: rest) => do return (← d.openTable path, ← lineEnd? rest)
    | _ => none
  | cs =>
    match lineEnd? cs with
    | some rest => some (d, rest)
    | none =>
      match key? (cs.length + 1) cs with
      | some (path, '=' :: rest) => do
        let (v, rest) ← value? (rest.length + 1) (skipGap rest)
        return (← d.add path v, ← lineEnd? rest)
      | _ => none

def lines? : Nat → Document → List Char → Option Document
  | _, d, [] => some d
  | 0, _, _ :: _ => none
  | fuel + 1, d, cs =>
    match d.line? cs with
    | some (d, rest) => lines? fuel d rest
    | none => none

end Document

/-- A mark of the byte order may stand in front. -/
def read? (text : String) : Option Setting :=
  let cs := match text.toList with
    | '\ufeff' :: rest => rest
    | cs => cs
  (Document.lines? cs.length ⟨[], []⟩ cs).map fun d => .table (fieldSettings d.root)

end Dispatch.Toml
