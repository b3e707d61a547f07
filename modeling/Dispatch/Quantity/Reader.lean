import Dispatch.Fault

/-! # Reading quantities

* `splitNumber?`: the longest front part of a text that is a numeral, and the rest.
* `Quantity.ofText`: a number with an optional unit, in canonical units.
* `Quantity.canonical`: the magnitude where a dimension is expected; a bare number is taken as
  canonical already, and a percentage is taken of a reference.
* `Amount.resolve`: the same for a field of a request, the field named in any fault.
-/

namespace Dispatch
set_option autoImplicit false

variable {α : Type} [Scalar α]

/-! ## The number in front -/

/-- The longest numeral among the front parts of at most `n` characters, blanks around it
dropped. -/
def longestNumeral : Nat → List Char → Option (Numeral × List Char)
  | 0, _ => none
  | n + 1, cs =>
    match Numeral.read? (Text.trim (cs.take (n + 1))) with
    | some v => some (v, Text.trim (cs.drop (n + 1)))
    | none => longestNumeral n cs

def splitNumber? (cs : List Char) : Option (α × List Char) :=
  match longestNumeral cs.length cs with
  | some (.finite d, unit) =>
    let v : α := Scalar.ofDecimal d
    if Scalar.isFinite v then some (v, unit) else none
  | _ => none

/-! ## Units -/

def powerFactor? (unit : String) : Option α :=
  match unit with
  | "W" => some (Scalar.lit 1 3)
  | "kW" => some 1
  | "MW" => some (Scalar.ofNat 1000)
  | "GW" => some (Scalar.ofNat 1000000)
  | _ => none

def energyFactor? (unit : String) : Option α :=
  match unit with
  | "Wh" => some (Scalar.lit 1 3)
  | "kWh" => some 1
  | "MWh" => some (Scalar.ofNat 1000)
  | "GWh" => some (Scalar.ofNat 1000000)
  | _ => none

def splitSlash? (unit : List Char) : Option (List Char × List Char) :=
  match unit.dropWhile (· != '/') with
  | [] => none
  | _ :: per => some (unit.takeWhile (· != '/'), per)

namespace Quantity

/-- A price: the currency holds no digit, and it is stated per unit of energy or of power. -/
def price (value : α) (currency per : List Char) : Except TextFault (Quantity α) :=
  let currency := Text.trim currency
  let per := String.ofList (Text.trim per)
  if currency.isEmpty || currency.any Decimal.isDigit then .error .missingCurrency
  else match energyFactor? per with
    | some k => .ok ⟨value / k, .energyPrice, some (String.ofList currency)⟩
    | none => match powerFactor? per with
      | some k => .ok ⟨value / k, .powerPrice, some (String.ofList currency)⟩
      | none => .error (.unknownDenominator per)

def ofUnit (value : α) (unit : List Char) : Except TextFault (Quantity α) :=
  let name := String.ofList unit
  if unit.isEmpty then .ok (number value)
  else if name = "%" then .ok ⟨value / Scalar.ofNat 100, .ratio, none⟩
  else match powerFactor? name with
    | some k => .ok ⟨value * k, .power, none⟩
    | none => match energyFactor? name with
      | some k => .ok ⟨value * k, .energy, none⟩
      | none => match splitSlash? unit with
        | some (currency, per) => price value currency per
        | none => .error (.unknownUnit name)

def ofText (s : String) : Checked α (Quantity α) :=
  let cs := Text.trim s.toList
  let read : Except TextFault (Quantity α) :=
    match splitNumber? cs with
    | none => .error .noNumber
    | some (value, unit) => ofUnit value unit
  read.mapError (Fault.text (String.ofList cs))

def canonical (q : Quantity α) (expected : Dimension) (reference : Option α) : Checked α α :=
  if q.dimension = expected ∨ q.dimension = .dimensionless then .ok q.value
  else if q.dimension = .ratio ∧ (expected = .power ∨ expected = .energy) then
    match reference with
    | some r => .ok (q.value * r)
    | none => .error (.conversion q (.needsReference expected))
  else .error (.conversion q (.mismatch expected))

end Quantity

namespace Amount

def quantity : Amount α → Checked α (Quantity α)
  | number v => .ok (.number v)
  | text s => Quantity.ofText s

def resolve (a : Amount α) (field : String) (expected : Dimension) (reference : Option α) :
    Checked α α :=
  Checked.inField field (a.quantity.bind fun q => q.canonical expected reference)

/-- The currency a text names; a text that is no quantity names none. -/
def currency : Amount α → Option String
  | number _ => none
  | text s => match (Quantity.ofText s : Checked α (Quantity α)) with
    | .ok q => q.currency
    | .error _ => none

end Amount

end Dispatch
