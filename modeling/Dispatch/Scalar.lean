import Dispatch.Decimal.Binary

/-! # The numbers of the planner

* `Scalar`: the arithmetic the planner runs on. Everything between reading a request and writing a
  schedule is written once over this class; at `Float` the order of operations is the order of
  roundings.
* `Scalar.maxNum`, `Scalar.minNum`: the larger and the smaller of two numbers, where a NaN loses
  against any number.
* `NumText`: numbers as they appear inside sentences.

Comparisons answer `Bool`; every comparison with a NaN answers `false`.
-/

namespace Dispatch
set_option autoImplicit false

class Scalar (α : Type) extends Zero α, One α, Add α, Sub α, Mul α, Div α, Neg α where
  ofDecimal : Decimal → α
  infinity : α
  lt : α → α → Bool
  le : α → α → Bool
  eq : α → α → Bool
  abs : α → α
  sqrt : α → α
  log : α → α
  pow : α → α → α
  isNaN : α → Bool
  isFinite : α → Bool
  /-- The nearest integer, halves away from zero, held inside the signed 64-bit range; zero for
  NaN. -/
  roundInt : α → Int
  /-- The integer nearest to `n` times a number, halves to the even neighbour, the product being taken
  exactly; none for NaN and the infinities. -/
  roundTimes? : Nat → α → Option Int

namespace Scalar
variable {α : Type} [Scalar α]

def ofNat (n : Nat) : α := ofDecimal (Decimal.ofNat n)

def ofInt (i : Int) : α := ofDecimal (Decimal.ofInt i)

def lit (digits places : Nat) : α := ofDecimal ⟨false, digits, -(places : Int)⟩

def negInfinity : α := -infinity

def gt (a b : α) : Bool := lt b a

def ge (a b : α) : Bool := le b a

def maxNum (a b : α) : α := if isNaN a then b else if lt a b then b else a

def minNum (a b : α) : α := if isNaN a then b else if lt b a then b else a

/-- The sum of a list, added up from the left. -/
def sum (xs : List α) : α := xs.foldl (· + ·) 0

/-- The order in which NaN is the greatest number and equal to itself: `a` comes no later
than `b`. -/
def orderedLe (a b : α) : Bool := if isNaN b then true else if isNaN a then false else le a b

@[simp] theorem sum_nil : sum ([] : List α) = 0 := rfl

theorem sum_append_singleton (xs : List α) (x : α) : sum (xs ++ [x]) = sum xs + x := by
  simp [sum, List.foldl_append]

end Scalar

/-! ## Floats -/

/-- The integer nearest to `num / den`, halves to the even neighbour. -/
def roundDivEven (num den : Nat) : Nat :=
  let q := num / den
  let twice := 2 * (num % den)
  if den < twice ∨ (twice = den ∧ q % 2 = 1) then q + 1 else q

def Float.roundTimes? (n : Nat) (x : Float) : Option Int :=
  if x.isFinite then
    let b := Binary.ofBits x.toBits
    let r : Int := roundDivEven (n * b.m * Nat.pow 2 b.q.toNat) (Nat.pow 2 (-b.q).toNat)
    some (if x < 0 then -r else r)
  else none

instance : Scalar Float where
  zero := 0.0
  one := 1.0
  ofDecimal := Decimal.toFloat
  infinity := 1.0 / 0.0
  lt a b := a < b
  le a b := a ≤ b
  eq a b := a == b
  abs := Float.abs
  sqrt := Float.sqrt
  log := Float.log
  pow := Float.pow
  isNaN := Float.isNaN
  isFinite := Float.isFinite
  roundInt x := x.round.toInt64.toInt
  roundTimes? := Float.roundTimes?

/-! ## Numbers in sentences -/

/-- Positional notation without an exponent, whole numbers without a point. -/
class NumText (α : Type) where
  numText : α → String

end Dispatch
