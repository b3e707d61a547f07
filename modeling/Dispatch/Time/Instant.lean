import Dispatch.Time.Span
import Dispatch.Time.Calendar

/-! # Instants

* `Instant`: seconds since the start of 1970 in universal time, and nanoseconds; the nanoseconds of
  a leap second run from one to two billion.
* `Instant.add?`: an instant moved by a span, if it stays inside the calendar.
* `Instant.since`: the span between two instants.
-/

namespace Dispatch
set_option autoImplicit false

structure Instant where
  seconds : Int
  nanos : Nat
deriving DecidableEq, Repr

namespace Instant

instance : LT Instant :=
  ⟨fun a b => a.seconds < b.seconds ∨ a.seconds = b.seconds ∧ a.nanos < b.nanos⟩

instance : LE Instant :=
  ⟨fun a b => a.seconds < b.seconds ∨ a.seconds = b.seconds ∧ a.nanos ≤ b.nanos⟩

instance (a b : Instant) : Decidable (a < b) :=
  inferInstanceAs (Decidable (a.seconds < b.seconds ∨ a.seconds = b.seconds ∧ a.nanos < b.nanos))

instance (a b : Instant) : Decidable (a ≤ b) :=
  inferInstanceAs (Decidable (a.seconds < b.seconds ∨ a.seconds = b.seconds ∧ a.nanos ≤ b.nanos))

theorem lt_iff {a b : Instant} :
    a < b ↔ a.seconds < b.seconds ∨ a.seconds = b.seconds ∧ a.nanos < b.nanos := Iff.rfl

theorem le_iff {a b : Instant} :
    a ≤ b ↔ a.seconds < b.seconds ∨ a.seconds = b.seconds ∧ a.nanos ≤ b.nanos := Iff.rfl

/-! ## The calendar's range -/

def secondsPerDay : Int := 86400

def firstSecond : Int := (⟨Date.firstYear, 1, 1⟩ : Date).dayNumber * secondsPerDay

def lastSecond : Int := (⟨Date.lastYear, 12, 31⟩ : Date).dayNumber * secondsPerDay + 86399

def inRange (seconds : Int) : Bool := firstSecond ≤ seconds && seconds ≤ lastSecond

/-- The instant at these seconds, if the calendar has them. -/
def ofSeconds? (seconds : Int) (nanos : Nat) : Option Instant :=
  if inRange seconds then some ⟨seconds, nanos⟩ else none

/-! ## Moving and measuring -/

/-- A span from an instant inside a leap second stays inside it while it can; leaving it forwards
or backwards counts the leap second as part of the second it belongs to. -/
def add? (t : Instant) (d : Span) : Option Instant :=
  let secs := d.wholeSeconds
  let frac : Int := d.nanos - secs * 1000000000
  let carry (seconds : Int) (nanos : Int) : Option Instant :=
    ofSeconds? (seconds + nanos / 1000000000) (nanos % 1000000000).toNat
  if t.nanos < 1000000000 then carry (t.seconds + secs) (t.nanos + frac)
  else if 0 < secs ∨ (0 < frac ∧ 2000000000 ≤ t.nanos + frac) then
    carry (t.seconds + secs) (t.nanos - 1000000000 + frac)
  else if secs < 0 then carry (t.seconds + 1 + secs) (t.nanos - 1000000000 + frac)
  else ofSeconds? t.seconds (t.nanos + frac).toNat

/-- A leap second counts where it lies strictly between two times of day. -/
def since (t from_ : Instant) : Span :=
  let days := t.seconds / secondsPerDay - from_.seconds / secondsPerDay
  let a := t.seconds % secondsPerDay
  let b := from_.seconds % secondsPerDay
  let leap : Int :=
    if b < a then (if 1000000000 ≤ from_.nanos then 1 else 0)
    else if a < b then (if 1000000000 ≤ t.nanos then -1 else 0)
    else 0
  ⟨(days * secondsPerDay + a - b + leap) * 1000000000 + (t.nanos - from_.nanos)⟩

end Instant

end Dispatch
