/-! # The calendar

* `Date`: a day of the Gregorian calendar, extended to all years.
* `Date.dayNumber`, `Date.ofDayNumber`: days counted from 1 January 1970.
* `Date.valid`: the month exists and has that day.
* `firstYear`, `lastYear`: the years that instants may lie in.
-/

namespace Dispatch
set_option autoImplicit false

structure Date where
  year : Int
  month : Nat
  day : Nat
deriving DecidableEq, Repr

namespace Date

def firstYear : Int := -262143

def lastYear : Int := 262142

def isLeapYear (y : Int) : Bool := y % 4 == 0 && (y % 100 != 0 || y % 400 == 0)

def daysInMonth (y : Int) (m : Nat) : Nat :=
  match m with
  | 2 => if isLeapYear y then 29 else 28
  | 4 | 6 | 9 | 11 => 30
  | _ => 31

def valid (d : Date) : Bool :=
  1 ≤ d.month && d.month ≤ 12 && 1 ≤ d.day && d.day ≤ daysInMonth d.year d.month &&
    firstYear ≤ d.year && d.year ≤ lastYear

/-- Days before the first of March of year `y`, counted from the first of March of year 0. -/
def daysBeforeMarch (y : Int) : Int := 365 * y + y / 4 - y / 100 + y / 400

/-- Days from the first of March to the first of month `m`, where March is month 0. -/
def daysBeforeMonth (m : Int) : Int := (153 * m + 2) / 5

def dayNumber (d : Date) : Int :=
  let early := d.month ≤ 2
  let y := if early then d.year - 1 else d.year
  let m : Int := if early then d.month + 9 else d.month - 3
  daysBeforeMarch y + daysBeforeMonth m + d.day - 1 - 719468

def ofDayNumber (n : Int) : Date :=
  let z := n + 719468
  let era := z / 146097
  let doe := z % 146097
  let yoe := (doe - doe / 1460 + doe / 36524 - doe / 146096) / 365
  let doy := doe - (365 * yoe + yoe / 4 - yoe / 100)
  let m := (5 * doy + 2) / 153
  let day := doy - daysBeforeMonth m + 1
  let month := if m < 10 then m + 3 else m - 9
  let year := yoe + era * 400 + (if month ≤ 2 then 1 else 0)
  ⟨year, month.toNat, day.toNat⟩

def weekday (d : Date) : Int := (d.dayNumber + 4) % 7

/-- The number of the `n`-th Sunday of a month, the first being `n = 0`. -/
def sundayFrom (y : Int) (m : Nat) (n : Nat) : Int :=
  let first : Date := ⟨y, m, 1⟩
  first.dayNumber + (7 - first.weekday) % 7 + 7 * n

def lastSunday (y : Int) (m : Nat) : Int :=
  let last : Date := ⟨y, m, 31⟩
  last.dayNumber - last.weekday

end Date

end Dispatch
