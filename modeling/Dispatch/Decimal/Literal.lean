import Dispatch.Decimal.Basic

/-! # Numerals

* `Numeral`: what a numeral may denote: a decimal, an infinity, or no number.
* `Numeral.unsigned?`: digits with at most one point and an optional exponent.
* `Numeral.read?`: a whole text that is a numeral, with an optional sign; the words `inf`,
  `infinity` and `nan` are read in any case.
-/

namespace Dispatch
set_option autoImplicit false

inductive Numeral where
  | finite (value : Decimal)
  | infinite (negative : Bool)
  | notANumber
deriving DecidableEq, Repr

namespace Numeral

def spanDigits (cs : List Char) : List Char × List Char :=
  (cs.takeWhile Decimal.isDigit, cs.dropWhile Decimal.isDigit)

def spanSign : List Char → Bool × List Char
  | '-' :: rest => (true, rest)
  | '+' :: rest => (false, rest)
  | cs => (false, cs)

/-- An exponent that fills the text: empty, or `e` with an optional sign and at least one digit. -/
def exponent? : List Char → Option Int
  | [] => some 0
  | c :: rest =>
    if c = 'e' ∨ c = 'E' then
      let (negative, digits) := spanSign rest
      if digits.isEmpty || !digits.all Decimal.isDigit then none
      else
        let n : Int := Decimal.ofDigits 0 digits
        some (if negative then -n else n)
    else none

/-- Digits with at most one point, at least one digit in all, then an optional exponent. -/
def unsigned? (negative : Bool) (cs : List Char) : Option Decimal :=
  let (whole, rest) := spanDigits cs
  let (part, rest) := match rest with
    | '.' :: rest => spanDigits rest
    | _ => ([], rest)
  if whole.isEmpty && part.isEmpty then none
  else
    (exponent? rest).map fun e =>
      ⟨negative, Decimal.ofDigits 0 (whole ++ part), e - part.length⟩

def read? (cs : List Char) : Option Numeral :=
  let (negative, body) := spanSign cs
  match unsigned? negative body with
  | some d => some (.finite d)
  | none =>
    let word := String.ofList (body.map Char.toLower)
    if word = "inf" ∨ word = "infinity" then some (.infinite negative)
    else if word = "nan" then some .notANumber
    else none

end Numeral

end Dispatch
