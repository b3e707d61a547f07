import Dispatch.Decimal.Notation

/-! # Lengths of time

* `Span`: a signed length of time, exact to the nanosecond.
* `Span.wholeSeconds`: its seconds, cut towards zero.
* `Span.plus?`: the sum of two spans, unless it is too long to wait for.
* `Span.iso`: `P0D` for no time at all, else `PT` seconds `S`.
* `Span.prose`: in the largest unit with a nonzero whole part, as in `1.5s` or `7.5ms`.
-/

namespace Dispatch
set_option autoImplicit false

structure Span where
  nanos : Int
deriving DecidableEq, Repr

namespace Span

def zero : Span := ⟨0⟩

def ofNanos (n : Int) : Span := ⟨n⟩

def ofMillis (ms : Int) : Span := ⟨ms * 1000000⟩

def ofSeconds (s : Int) : Span := ⟨s * 1000000000⟩

def wholeSeconds (d : Span) : Int := d.nanos.tdiv 1000000000

def wholeMillis (d : Span) : Int := d.nanos.tdiv 1000000

instance : Add Span := ⟨fun a b => ⟨a.nanos + b.nanos⟩⟩

instance : Sub Span := ⟨fun a b => ⟨a.nanos - b.nanos⟩⟩

def times (n : Int) (d : Span) : Span := ⟨n * d.nanos⟩

instance : LT Span := ⟨fun a b => a.nanos < b.nanos⟩

instance : LE Span := ⟨fun a b => a.nanos ≤ b.nanos⟩

instance (a b : Span) : Decidable (a < b) := inferInstanceAs (Decidable (a.nanos < b.nanos))

instance (a b : Span) : Decidable (a ≤ b) := inferInstanceAs (Decidable (a.nanos ≤ b.nanos))

@[simp] theorem nanos_add (a b : Span) : (a + b).nanos = a.nanos + b.nanos := rfl

@[simp] theorem nanos_times (n : Int) (d : Span) : (d.times n).nanos = n * d.nanos := rfl

theorem lt_iff {a b : Span} : a < b ↔ a.nanos < b.nanos := Iff.rfl

theorem le_iff {a b : Span} : a ≤ b ↔ a.nanos ≤ b.nanos := Iff.rfl

/-! ## Waiting -/

/-- The first span that is too long to wait for, 2 ^ 64 seconds. -/
def longest : Span := ofSeconds 18446744073709551616

def plus? (a b : Span) : Option Span := if a + b < longest then some (a + b) else none

/-! ## Texts -/

def iso (d : Span) : String :=
  if d.nanos = 0 then "P0D"
  else
    (if d.nanos < 0 then "-PT" else "PT") ++ Decimal.plain ⟨false, d.nanos.natAbs, -9⟩ ++ "S"

def prose (d : Span) : String :=
  let n := d.nanos.natAbs
  if 1000000000 ≤ n then Decimal.plain ⟨false, n, -9⟩ ++ "s"
  else if 1000000 ≤ n then Decimal.plain ⟨false, n, -6⟩ ++ "ms"
  else if 1000 ≤ n then Decimal.plain ⟨false, n, -3⟩ ++ "µs"
  else toString n ++ "ns"

end Span

end Dispatch
