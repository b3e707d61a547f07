import Dispatch.Scalar
import Dispatch.Decimal.Notation

/-! # Physical quantities

* `Dimension`: what a number measures. The canonical units are kW, kWh, currency per kWh and currency
  per kW; a ratio is a fraction.
* `Quantity`: a magnitude in canonical units, with the currency of a price.
* `Quantity.text`: a quantity as it appears inside sentences.
* `Amount`: a number in canonical units, or a text such as `5 kW`.
-/

namespace Dispatch
set_option autoImplicit false

inductive Dimension where
  | dimensionless
  | ratio
  | power
  | energy
  | energyPrice
  | powerPrice
deriving DecidableEq, Repr

namespace Dimension

def all : List Dimension := [dimensionless, ratio, power, energy, energyPrice, powerPrice]

def name : Dimension → String
  | dimensionless => "dimensionless"
  | ratio => "ratio"
  | power => "power"
  | energy => "energy"
  | energyPrice => "energy_price"
  | powerPrice => "power_price"

def ofName? (s : String) : Option Dimension := all.find? fun d => d.name == s

end Dimension

structure Quantity (α : Type) where
  value : α
  dimension : Dimension
  currency : Option String
deriving DecidableEq, Repr

namespace Quantity
variable {α : Type}

def number (value : α) : Quantity α := ⟨value, .dimensionless, none⟩

def text [Scalar α] [NumText α] (q : Quantity α) : String :=
  let currency := q.currency.getD ""
  match q.dimension with
  | .dimensionless => NumText.numText q.value
  | .ratio => NumText.numText (q.value * Scalar.ofNat 100) ++ "%"
  | .power => NumText.numText q.value ++ " kW"
  | .energy => NumText.numText q.value ++ " kWh"
  | .energyPrice => NumText.numText q.value ++ " " ++ currency ++ "/kWh"
  | .powerPrice => NumText.numText q.value ++ " " ++ currency ++ "/kW"

end Quantity

/-- A scalar field as a request states it. -/
inductive Amount (α : Type) where
  | number (value : α)
  | text (text : String)
deriving DecidableEq, Repr

end Dispatch
