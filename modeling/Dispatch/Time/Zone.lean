import Dispatch.Time.Instant

/-! # Time zones

* `Zone`: what a time zone database says of a zone.
* `Zone.utc`: universal time.
* `LocalTime`: an instant as the clocks of a zone show it.
-/

namespace Dispatch
set_option autoImplicit false

/-- A zone is its name and the answers of the database that it comes from. Nothing is assumed of them,
so what holds of all zones holds whatever the database. -/
structure Zone where
  name : String
  /-- Seconds that local time is ahead of universal time at a second. -/
  offsetAt : Int → Int
  /-- The first instant at which the clocks show these seconds and nanoseconds; none for a time that is
  skipped. -/
  earliest? : Int → Nat → Option Instant

instance : Repr Zone := ⟨fun z _ => z.name⟩

/-! ## Local times -/

structure LocalTime where
  instant : Instant
  offset : Int
deriving DecidableEq, Repr

namespace Zone

def utc : Zone := ⟨"UTC", fun _ => 0, Instant.ofSeconds?⟩

def localTime (z : Zone) (t : Instant) : LocalTime := ⟨t, z.offsetAt t.seconds⟩

end Zone

end Dispatch
