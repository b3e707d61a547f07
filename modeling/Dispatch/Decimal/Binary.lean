import Dispatch.Decimal.Basic

/-! # Binary floating point against decimals

* `Binary`: a finite magnitude `m * 2 ^ q` read off the bits of a float.
* `Binary.readsBack`: which decimals round to that magnitude (to nearest, ties to even).
* `Binary.shortest`: the decimal with the fewest digits that reads back, nearest to the value.
* `Float.ofDecimal` and `Float.toDecimal`: the two directions on floats.
-/

namespace Dispatch
set_option autoImplicit false

/-- Which of two equally near decimals with the same number of digits is taken. -/
inductive Tie where
  | toEven
  | awayFromZero
deriving DecidableEq, Repr

structure Binary where
  m : Nat
  q : Int
  /-- The gap to the value below is half the gap to the value above. -/
  narrowBelow : Bool
deriving DecidableEq, Repr

namespace Binary

def ofBits (b : UInt64) : Binary :=
  let e := ((b >>> 52) &&& 0x7FF).toNat
  let f := (b &&& 0xFFFFFFFFFFFFF).toNat
  if e = 0 then ⟨f, -1074, false⟩ else ⟨4503599627370496 + f, (e : Int) - 1075, f == 0 && 1 < e⟩

def compareScaled (a : Nat) (i : Int) (n : Nat) (j : Int) : Ordering :=
  compare (a * Nat.pow 10 i.toNat * Nat.pow 2 (-j).toNat)
    (n * Nat.pow 2 j.toNat * Nat.pow 10 (-i).toNat)

/-- `digits * 10 ^ exponent` lies among the reals that round to `x`: between the midpoints towards
its neighbours, the midpoints themselves included when `m` is even. -/
def readsBack (x : Binary) (digits : Nat) (exponent : Int) : Bool :=
  let low := if x.narrowBelow then 4 * x.m - 1 else 4 * x.m - 2
  let belowEnd := compareScaled digits exponent low (x.q - 2)
  let aboveEnd := compareScaled digits exponent (4 * x.m + 2) (x.q - 2)
  let closed := x.m % 2 == 0
  (belowEnd == .gt || (closed && belowEnd == .eq)) &&
    (aboveEnd == .lt || (closed && aboveEnd == .eq))

def floorAt (x : Binary) (e : Int) : Nat :=
  x.m * Nat.pow 2 x.q.toNat * Nat.pow 10 (-e).toNat /
    (Nat.pow 2 (-x.q).toNat * Nat.pow 10 e.toNat)

/-- Starting at `k`, the least exponent with `m * 2 ^ q < 10 ^ k`, looking at most `fuel` steps. -/
def scaleFrom (x : Binary) : Nat → Int → Int
  | 0, k => k
  | fuel + 1, k => if compareScaled 1 k x.m x.q == .gt then k else scaleFrom x fuel (k + 1)

/-- The least `k` with `m * 2 ^ q < 10 ^ k`, for a positive magnitude. -/
def scale (x : Binary) : Int :=
  let bits : Int := x.m.log2 + x.q
  scaleFrom x 4 (bits * 30103 / 100000 - 1)

/-- The better of the two neighbours of `x` on the grid of multiples of `10 ^ e`, if one reads
back. -/
def nearestOn (x : Binary) (tie : Tie) (e : Int) : Option Nat :=
  let n := x.floorAt e
  match x.readsBack n e, x.readsBack (n + 1) e with
  | true, false => some n
  | false, true => some (n + 1)
  | true, true =>
    match compareScaled (2 * n + 1) e (2 * x.m) x.q with
    | .gt => some n
    | .lt => some (n + 1)
    | .eq => match tie with
      | .awayFromZero => some (n + 1)
      | .toEven => some (if n % 2 = 0 then n else n + 1)
  | false, false => none

/-- Try `fuel` grids, each ten times finer than the one before; the exact value if none does. -/
def shortestFrom (x : Binary) (tie : Tie) : Nat → Int → Nat × Int
  | 0, _ =>
    if x.q < 0 then (x.m * Nat.pow 5 (-x.q).toNat, x.q)
    else (x.m * Nat.pow 2 x.q.toNat, 0)
  | fuel + 1, e =>
    match x.nearestOn tie e with
    | some n => (n, e)
    | none => shortestFrom x tie fuel (e - 1)

/-- The decimal with the fewest digits that reads back as `x`; of those the nearest to `x`. -/
def shortest (x : Binary) (tie : Tie) : Nat × Int :=
  if x.m = 0 then (0, 0) else x.shortestFrom tie 17 (x.scale - 1)

end Binary

/-! ## Floats -/

def Decimal.toFloat (d : Decimal) : Float :=
  let magnitude : Float :=
    if d.digits = 0 then 0
    else if 310 < d.magnitude then 1 / 0
    else if d.magnitude < -330 then 0
    else Float.ofScientific d.digits (decide (d.exponent < 0)) d.exponent.natAbs
  if d.negative then -magnitude else magnitude

/-- The decimal with the fewest digits that reads back as a finite float. -/
def Decimal.ofFloat (tie : Tie) (x : Float) : Decimal :=
  let bits := x.toBits
  let (n, e) := (Binary.ofBits bits).shortest tie
  Decimal.strip ⟨bits >>> 63 == 1, n, e⟩

end Dispatch
