import Dispatch.Time.Zone
import Dispatch.Text.Blank
import Dispatch.Decimal.Literal

/-! # Instants as text

* `LocalTime.stamp`: date, `T`, time and numeric offset; `LocalTime.stampZ` writes `Z` for offset
  zero.
* `Instant.prose`, `LocalTime.prose`: date, blank, time and offset, as inside sentences.
* `LocalTime.ofStamp?`: reads a full stamp: four-digit year, `T`, `t` or a blank between date and
  time, any number of fraction digits, and an offset.
* `Clock.read`: reads a local time without offset, to the minute or to the second, and says why it
  cannot.
* `LocalTime.ofText?`: reads a stamp as it may be written by hand, blanks between its parts included.
* `Instant.ofText`: a full stamp, or else a local time in a zone.
-/

namespace Dispatch
set_option autoImplicit false

/-! ## Writing -/

def padded (width n : Nat) : String :=
  let ds := Decimal.digitsOf n
  String.ofList (List.replicate (width - ds.length) '0' ++ ds)

/-- Four digits; outside 0 to 9999 with a sign. -/
def yearText (y : Int) : String :=
  if 0 ≤ y ∧ y ≤ 9999 then padded 4 y.toNat
  else (if y < 0 then "-" else "+") ++ padded 4 y.natAbs

/-- A fraction of a second in 3, 6 or 9 digits, absent when zero. -/
def fractionText (nanos : Nat) : String :=
  if nanos = 0 then ""
  else if nanos % 1000000 = 0 then "." ++ padded 3 (nanos / 1000000)
  else if nanos % 1000 = 0 then "." ++ padded 6 (nanos / 1000)
  else "." ++ padded 9 nanos

/-- Date and time of local seconds, with `between` in the middle; a leap second is second 60. -/
def clockText (between : String) (localSeconds : Int) (nanos : Nat) : String :=
  let date := Date.ofDayNumber (localSeconds / Instant.secondsPerDay)
  let time := (localSeconds % Instant.secondsPerDay).toNat
  let (leap, nanos) := if 1000000000 ≤ nanos then (1, nanos - 1000000000) else (0, nanos)
  yearText date.year ++ "-" ++ padded 2 date.month ++ "-" ++ padded 2 date.day ++ between ++
    padded 2 (time / 3600) ++ ":" ++ padded 2 (time / 60 % 60) ++ ":" ++
    padded 2 (time % 60 + leap) ++ fractionText nanos

def offsetText (offset : Int) : String :=
  let minutes := (offset.natAbs + 30) / 60
  (if offset < 0 then "-" else "+") ++ padded 2 (minutes / 60) ++ ":" ++ padded 2 (minutes % 60)

/-- The same to the second, which is left out when it is zero. -/
def fullOffsetText (offset : Int) : String :=
  let n := offset.natAbs
  let seconds := if n % 60 = 0 then "" else ":" ++ padded 2 (n % 60)
  (if offset < 0 then "-" else "+") ++ padded 2 (n / 3600) ++ ":" ++ padded 2 (n / 60 % 60) ++
    seconds

namespace LocalTime

def stamp (t : LocalTime) : String :=
  clockText "T" (t.instant.seconds + t.offset) t.instant.nanos ++ offsetText t.offset

def stampZ (t : LocalTime) : String :=
  clockText "T" (t.instant.seconds + t.offset) t.instant.nanos ++
    (if t.offset = 0 then "Z" else offsetText t.offset)

def prose (t : LocalTime) : String :=
  clockText " " (t.instant.seconds + t.offset) t.instant.nanos ++ " " ++ fullOffsetText t.offset

end LocalTime

namespace Instant

def prose (t : Instant) : String := clockText " " t.seconds t.nanos ++ " UTC"

def stamp (t : Instant) : String := (LocalTime.mk t 0).stamp

end Instant

/-! ## Reading a full stamp -/

def takeDigits? (n : Nat) (cs : List Char) : Option (Nat × List Char) :=
  let ds := cs.take n
  if ds.length = n ∧ ds.all Decimal.isDigit then some (Decimal.ofDigits 0 ds, cs.drop n) else none

def takeChar? (allowed : List Char) : List Char → Option (Char × List Char)
  | c :: rest => if allowed.contains c then some (c, rest) else none
  | [] => none

/-- The nanoseconds that fraction digits write; those beyond the ninth are cut off. -/
def nanosOfFraction (ds : List Char) : Nat :=
  let ds := ds.take 9
  Decimal.ofDigits 0 ds * Nat.pow 10 (9 - ds.length)

/-- An offset that fills the text: `Z`, or a sign with hours and minutes. -/
def readOffset? (cs : List Char) : Option Int :=
  match cs with
  | ['Z'] | ['z'] => some 0
  | sign :: rest => do
    let negative ←
      if sign = '+' then some false
      else if sign = '-' ∨ sign = '\u2212' then some true
      else none
    let (hours, rest) ← takeDigits? 2 rest
    let (_, rest) ← takeChar? [':'] rest
    let (minutes, rest) ← takeDigits? 2 rest
    if rest.isEmpty ∧ hours ≤ 23 ∧ minutes ≤ 59 then
      let n : Int := (hours * 3600 + minutes * 60 : Nat)
      some (if negative then -n else n)
    else none
  | [] => none

/-- Local seconds and nanoseconds of a date and a time of day; second 60 is a leap second. -/
def clockSeconds (date : Date) (hour minute second nanos : Nat) : Int × Nat :=
  let leap := second = 60
  let s := if leap then 59 else second
  (date.dayNumber * Instant.secondsPerDay + (hour * 3600 + minute * 60 + s : Nat),
    if leap then nanos + 1000000000 else nanos)

namespace LocalTime

def ofStamp? (cs : List Char) : Option LocalTime := do
  let (year, rest) ← takeDigits? 4 cs
  let (_, rest) ← takeChar? ['-'] rest
  let (month, rest) ← takeDigits? 2 rest
  let (_, rest) ← takeChar? ['-'] rest
  let (day, rest) ← takeDigits? 2 rest
  let (_, rest) ← takeChar? ['T', 't', ' '] rest
  let (hour, rest) ← takeDigits? 2 rest
  let (_, rest) ← takeChar? [':'] rest
  let (minute, rest) ← takeDigits? 2 rest
  let (_, rest) ← takeChar? [':'] rest
  let (second, rest) ← takeDigits? 2 rest
  let (fraction, rest) ← match rest with
    | '.' :: rest =>
      let (ds, rest) := Numeral.spanDigits rest
      if ds.isEmpty then none else some (ds, rest)
    | rest => some ([], rest)
  let offset ← readOffset? rest
  let date : Date := ⟨year, month, day⟩
  if date.valid ∧ hour ≤ 23 ∧ minute ≤ 59 ∧ second ≤ 60 then
    let (seconds, nanos) := clockSeconds date hour minute second (nanosOfFraction fraction)
    let instant ← Instant.ofSeconds? (seconds - offset) nanos
    return ⟨instant, offset⟩
  else none

end LocalTime

/-! ## Reading a local time -/

inductive ClockFault where
  | invalidCharacter
  | tooShort
  | outOfRange
  | tooLong
deriving DecidableEq, Repr

namespace ClockFault

def message : ClockFault → String
  | invalidCharacter => "input contains invalid characters"
  | tooShort => "premature end of input"
  | outOfRange => "input is out of range"
  | tooLong => "trailing input"

end ClockFault

namespace Clock

def digits (most : Nat) (cs : List Char) : Except ClockFault (Nat × List Char) :=
  let ds := (cs.take most).takeWhile Decimal.isDigit
  if cs.isEmpty then .error .tooShort
  else if ds.isEmpty then .error .invalidCharacter
  else .ok (Decimal.ofDigits 0 ds, cs.drop ds.length)

def field (least most : Nat) (cs : List Char) : Except ClockFault (Nat × List Char) := do
  let (n, rest) ← digits 2 (Text.trimStart cs)
  if least ≤ n ∧ n ≤ most then return (n, rest) else .error .outOfRange

/-- Up to four digits, or a sign and any number of digits. -/
def year (cs : List Char) : Except ClockFault (Int × List Char) := do
  let cs := Text.trimStart cs
  let (y, rest) ← match cs with
    | '-' :: rest => do
      let (n, rest) ← digits rest.length rest
      pure (-(n : Int), rest)
    | '+' :: rest => do
      let (n, rest) ← digits rest.length rest
      pure ((n : Int), rest)
    | cs => do
      let (n, rest) ← digits 4 cs
      pure ((n : Int), rest)
  if -2147483648 ≤ y ∧ y ≤ 2147483647 then return (y, rest) else .error .outOfRange

def char (c : Char) : List Char → Except ClockFault (List Char)
  | [] => .error .tooShort
  | d :: rest => if c = d then .ok rest else .error .invalidCharacter

/-- Local seconds and nanoseconds of a text that is a date, `T` and a time of day. -/
def read (withSeconds : Bool) (cs : List Char) : Except ClockFault (Int × Nat) := do
  let (y, rest) ← year cs
  let rest ← char '-' rest
  let (month, rest) ← field 1 12 rest
  let rest ← char '-' rest
  let (day, rest) ← field 1 31 rest
  let rest ← char 'T' rest
  let (hour, rest) ← field 0 23 rest
  let rest ← char ':' rest
  let (minute, rest) ← field 0 59 rest
  let (second, rest) ← if withSeconds then do
      let rest ← char ':' rest
      field 0 60 rest
    else pure (0, rest)
  if !rest.isEmpty then .error .tooLong
  else
    let date : Date := ⟨y, month, day⟩
    if date.valid then return clockSeconds date hour minute second 0 else .error .outOfRange

end Clock

/-! ## Reading a stamp written by hand -/

namespace LocalTime

def looseFraction? : List Char → Option (Nat × List Char)
  | '.' :: rest =>
    let (ds, rest) := Numeral.spanDigits rest
    if ds.isEmpty then none else some (nanosOfFraction ds, rest)
  | rest => some (0, rest)

/-- `UTC` or `Z`, or a sign with hours and minutes, colons and blanks between them allowed. -/
def looseOffset? (cs : List Char) : Option (Int × List Char) :=
  match cs with
  | 'Z' :: rest | 'z' :: rest => some (0, rest)
  | _ =>
    if Text.sameWord (String.ofList (cs.take 3)) "UTC" then some (0, cs.drop 3)
    else do
      let (sign, rest) ← takeChar? ['+', '-', '\u2212'] cs
      let (hours, rest) ← takeDigits? 2 rest
      let (minutes, rest) ← takeDigits? 2 (rest.dropWhile fun c => c == ':' || Text.isBlank c)
      let n : Int := (hours * 3600 + minutes * 60 : Nat)
      if minutes ≤ 59 ∧ n < Instant.secondsPerDay then
        some (if sign = '+' then n else -n, rest)
      else none

def loose? {β : Type} (read : List Char → Except ClockFault β) (cs : List Char) : Option β :=
  (read (Text.trimStart cs)).toOption

def ofText? (cs : List Char) : Option LocalTime := do
  let (year, rest) ← loose? Clock.year cs
  let rest ← loose? (Clock.char '-') rest
  let (month, rest) ← loose? (Clock.field 1 12) rest
  let rest ← loose? (Clock.char '-') rest
  let (day, rest) ← loose? (Clock.field 1 31) rest
  let (_, rest) ← takeChar? ['T', 't', ' '] rest
  let (hour, rest) ← loose? (Clock.field 0 23) rest
  let rest ← loose? (Clock.char ':') rest
  let (minute, rest) ← loose? (Clock.field 0 59) rest
  let rest ← loose? (Clock.char ':') rest
  let (second, rest) ← loose? (Clock.field 0 60) rest
  let (fraction, rest) ← looseFraction? rest
  let (offset, rest) ← looseOffset? (Text.trimStart rest)
  let date : Date := ⟨year, month, day⟩
  if date.valid ∧ (Text.trimStart rest).isEmpty then
    let (seconds, nanos) := clockSeconds date hour minute second fraction
    let instant ← Instant.ofSeconds? (seconds - offset) nanos
    return ⟨instant, offset⟩
  else none

end LocalTime

/-! ## Reading an instant -/

inductive InstantFault where
  | notADatetime (cause : ClockFault)
  /-- With the name of the zone. -/
  | skipped (zone : String)
deriving DecidableEq, Repr

namespace InstantFault

def message : InstantFault → String
  | notADatetime cause => "not a datetime: " ++ cause.message
  | skipped zone => "does not exist in " ++ zone

end InstantFault

namespace Instant

/-- A text without an offset is read in `zone`, first to the second and then to the minute; a fault
is that of the second reading. -/
def ofText (zone : Zone) (text : String) : Except InstantFault Instant :=
  let cs := text.toList
  match LocalTime.ofStamp? cs with
  | some t => .ok t.instant
  | none =>
    let clock := match Clock.read true cs with
      | Except.ok c => Except.ok c
      | .error _ => Clock.read false cs
    match clock with
    | .error cause => .error (.notADatetime cause)
    | .ok (seconds, nanos) =>
      match zone.earliest? seconds nanos with
      | some t => .ok t
      | none => .error (.skipped zone.name)

end Instant

end Dispatch
