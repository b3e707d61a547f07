import Dispatch.Time.Zone

/-! # Zones by name

* `ZoneTable`: a database of zones, in which a zone is found by its name.
* `ZoneRules`: offsets by rules for summer time, in force since 2008 and laid down until the end of
  2099; the other years have none.
* `Zone.known`: the zones that the program comes with.
-/

namespace Dispatch
set_option autoImplicit false

class ZoneTable where
  ofName? : String → Option Zone

/-! ## Rules -/

structure ZoneRules where
  name : String
  standard : Int
  summer : Int
  /-- When summer time begins and ends in a year, as seconds of universal time. -/
  change? : Int → Option (Int × Int)
  /-- The offset before standard time was brought in, and the second that was the first of standard
  time. -/
  meridian? : Option (Int × Int)

namespace ZoneRules

/-- Summer time lies inside the year in the north and around its turn in the south. -/
def isSummer (r : ZoneRules) (seconds : Int) : Bool :=
  let year := (Date.ofDayNumber (seconds / Instant.secondsPerDay)).year
  if year < 2008 ∨ 2099 < year then false
  else
    match r.change? year with
    | none => false
    | some (start, stop) =>
      if start < stop then start ≤ seconds && seconds < stop
      else start ≤ seconds || seconds < stop

def offsetAt (r : ZoneRules) (seconds : Int) : Int :=
  let civil := if r.isSummer seconds then r.summer else r.standard
  match r.meridian? with
  | none => civil
  | some (offset, until_) => if seconds < until_ then offset else civil

/-- The offsets that a zone may have, the larger ones first. -/
def offsets (r : ZoneRules) : List Int :=
  match r.meridian? with
  | none => [r.summer, r.standard]
  | some (offset, _) => [r.summer, offset, r.standard]

/-- The larger offset gives the earlier instant, so it is tried first. -/
def earliest? (r : ZoneRules) (localSeconds : Int) (nanos : Nat) : Option Instant :=
  match r.offsets.find? fun o => r.offsetAt (localSeconds - o) == o with
  | none => none
  | some o => Instant.ofSeconds? (localSeconds - o) nanos

def zone (r : ZoneRules) : Zone := ⟨r.name, r.offsetAt, r.earliest?⟩

end ZoneRules

/-! ## The zones of the program -/

namespace Zone

/-- The seconds of universal time at the start of a day. -/
def day (n : Int) : Int := n * Instant.secondsPerDay

def amsterdam : Zone := ZoneRules.zone {
  name := "Europe/Amsterdam"
  standard := 3600
  summer := 7200
  change? := fun year =>
    some (day (Date.lastSunday year 3) + 3600, day (Date.lastSunday year 10) + 3600)
  meridian? := none }

/-- Standard time was brought in at the end of 1883; until then the clocks had the mean time of their
meridian. -/
def newYork : Zone := ZoneRules.zone {
  name := "America/New_York"
  standard := -18000
  summer := -14400
  change? := fun year => some (day (Date.sundayFrom year 3 1) + 7200 + 18000,
    day (Date.sundayFrom year 11 0) + 7200 + 14400)
  meridian? := some (-17762, -2717650800) }

def kolkata : Zone := ZoneRules.zone {
  name := "Asia/Kolkata"
  standard := 19800
  summer := 19800
  change? := fun _ => none
  meridian? := none }

def lordHowe : Zone := ZoneRules.zone {
  name := "Australia/Lord_Howe"
  standard := 37800
  summer := 39600
  change? := fun year => some (day (Date.sundayFrom year 10 0) + 7200 - 37800,
    day (Date.sundayFrom year 4 0) + 7200 - 39600)
  meridian? := none }

def known : List Zone := [utc, amsterdam, newYork, kolkata, lordHowe]

def ofName? (s : String) : Option Zone := known.find? fun z => z.name == s

end Zone

instance : ZoneTable := ⟨Zone.ofName?⟩

end Dispatch
