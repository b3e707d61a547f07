import Dispatch.Quantity.Basic
import Dispatch.Time.InstantText
import Dispatch.Text.Quoted

/-! # What can be wrong with an input

* `Fault`: every reason for which a planning problem is refused before any program is built.
* `Fault.kind`: the class a fault belongs to.
* `Fault.message`: its sentence.

A fault holds the values its sentence mentions. The constructors named `stated` hold a reason that a
caller gives in words of its own.
-/

namespace Dispatch
set_option autoImplicit false

/-! ## Causes -/

inductive GridFault where
  | noSlots
  | resolutionNotPositive (resolution : Span)
  | endNotAfterStart (start stop : Instant)
  /-- The span is no whole number of steps, both in seconds. -/
  | ragged (span step : Int)
  | stated (reason : String)
deriving DecidableEq, Repr

inductive DurationFault where
  | noLeadingP
  | empty
  | missingNumber
  | calendarUnit
  | unknownDesignator
  | trailingNumber
  | noComponents
deriving DecidableEq, Repr

inductive TextFault where
  | noNumber
  | missingCurrency
  | unknownDenominator (per : String)
  | unknownUnit (unit : String)
  | duration (cause : DurationFault)
  | instant (cause : InstantFault)
  | stated (reason : String)
deriving DecidableEq, Repr

inductive ConversionFault where
  | needsReference (expected : Dimension)
  | mismatch (expected : Dimension)
deriving DecidableEq, Repr

inductive FieldFault (α : Type) where
  | segmentWithoutStart
  | segmentWithoutEnd
  | segmentReversed
  | resolutionNotPositive
  | uncovered (slotStart : LocalTime)
  | windowWithoutEnd
  | horizonWithoutEnd
  | priceRequired
  | currencyDiffers (production consumption : String)
  | nothingToSchedule
  | lengths (slots : Nat)
  | emptyRange (low high : α) (slot : Nat)
  | badMargin (margin : α)
  | stated (reason : String)
deriving DecidableEq, Repr

inductive DeviceFault (α : Type) where
  | powerLengths (slots : Nat)
  | powerNotFinite (slot : Nat)
  | emptyPowerBand (low high : α) (slot : Nat)
  | stockLengths (slots : Nat)
  | initialNotFinite
  | emptyStockRange (low high : α) (slot : Nat)
  | efficiency (charging : Bool) (value : α) (slot : Nat)
  | retention (value : α) (slot : Nat)
  | stockNotFinite (slot : Nat)
  | noPower
  | duplicateName
  | stated (reason : String)
deriving DecidableEq, Repr

inductive CommitmentFault where
  | lengths (slots : Nat)
  | needsDevice
  | notFinite (slot : Nat)
  | negativeGroupPrice
  | unknownDevice (device : String)
  | noStock (device : String)
  | stated (reason : String)
deriving DecidableEq, Repr

inductive UnsupportedFault where
  | solver (name : String)
  | stated (reason : String)
deriving DecidableEq, Repr

inductive Fault (α : Type) where
  | grid (cause : GridFault)
  | text (text : String) (cause : TextFault)
  | conversion (quantity : Quantity α) (cause : ConversionFault)
  | field (name : String) (cause : FieldFault α)
  | within (name : String) (inner : Fault α)
  | device (device : String) (cause : DeviceFault α)
  | commitment (commitment : String) (cause : CommitmentFault)
  | unsupported (cause : UnsupportedFault)
  /-- An instant outside the calendar or a span without a representation was asked for. The planner
  ends without any answer. -/
  | unrepresentable
deriving DecidableEq, Repr

/-! ## Kinds -/

inductive FaultKind where
  | timeGrid
  | quantity
  | field
  | device
  | commitment
  | unsupported
  | crash
deriving DecidableEq, Repr

namespace FaultKind

def name : FaultKind → String
  | timeGrid => "TimeGrid"
  | quantity => "Quantity"
  | field => "Field"
  | device => "Device"
  | commitment => "Commitment"
  | unsupported => "Unsupported"
  | crash => "Panic"

end FaultKind

namespace Fault
variable {α : Type}

def kind : Fault α → FaultKind
  | grid _ => .timeGrid
  | text _ _ | conversion _ _ => .quantity
  | field _ _ | within _ _ => .field
  | device _ _ => .device
  | commitment _ _ => .commitment
  | unsupported _ => .unsupported
  | unrepresentable => .crash

/-- Attach the name of a field. A time that cannot be represented is no fault of a field. -/
def inField (name : String) : Fault α → Fault α
  | unrepresentable => unrepresentable
  | f => within name f

end Fault

abbrev Checked (α : Type) (β : Type) := Except (Fault α) β

def Checked.inField {α β : Type} (name : String) (r : Checked α β) : Checked α β :=
  r.mapError (Fault.inField name)

/-! ## Sentences -/

namespace GridFault

def message : GridFault → String
  | noSlots => "grid has no slots"
  | resolutionNotPositive r => "resolution must be positive, got " ++ r.iso
  | endNotAfterStart start stop =>
    "end " ++ stop.prose ++ " is not after start " ++ start.prose
  | ragged span step =>
    "horizon of " ++ toString span ++ "s is not a multiple of the " ++ toString step ++
      "s resolution"
  | stated reason => reason

end GridFault

namespace DurationFault

def message : DurationFault → String
  | noLeadingP => "ISO 8601 duration must start with `P`"
  | empty => "empty duration"
  | missingNumber => "missing number before designator"
  | calendarUnit => "calendar units are not supported"
  | unknownDesignator => "unknown designator"
  | trailingNumber => "trailing number without designator"
  | noComponents => "duration has no components"

end DurationFault

namespace TextFault

def message : TextFault → String
  | noNumber => "no leading number"
  | missingCurrency => "missing currency"
  | unknownDenominator per => "cannot price per `" ++ per ++ "`"
  | unknownUnit unit => "unknown unit `" ++ unit ++ "`"
  | duration cause => cause.message
  | instant cause => cause.message
  | stated reason => reason

end TextFault

/-- The tail of a sentence about series whose lengths are not the grid's. -/
def mismatchText (subject : String) (slots : Nat) : String :=
  subject ++ " do not match the " ++ toString slots ++ "-slot grid"

section Sentences
variable {α : Type} [Scalar α] [NumText α]
open NumText

namespace ConversionFault

def message (q : Quantity α) : ConversionFault → String
  | needsReference expected =>
    "a percentage needs a reference " ++ expected.name ++ " to resolve against"
  | mismatch expected =>
    "expected a " ++ expected.name ++ " quantity, got " ++ q.dimension.name

end ConversionFault

namespace FieldFault

def message : FieldFault α → String
  | segmentWithoutStart => "segment needs `datetime` or `start`"
  | segmentWithoutEnd => "segment needs `end` or `duration`"
  | segmentReversed => "segment ends before it starts"
  | resolutionNotPositive => "series resolution must be positive"
  | uncovered slotStart => "no value for the slot starting " ++ slotStart.prose
  | windowWithoutEnd => "a window needs `end` or `duration`"
  | horizonWithoutEnd => "give `end` or `duration`"
  | priceRequired => "a consumption price is required"
  | currencyDiffers p c =>
    "currency " ++ p ++ " differs from the consumption price currency " ++ c
  | nothingToSchedule => "nothing to schedule"
  | lengths slots => mismatchText "series" slots
  | emptyRange low high slot =>
    "empty range [" ++ numText low ++ ", " ++ numText high ++ "] in slot " ++ toString slot
  | badMargin margin => "must be a non-negative number, got " ++ numText margin
  | stated reason => reason

end FieldFault

namespace DeviceFault

def message : DeviceFault α → String
  | powerLengths slots => mismatchText "power bounds" slots
  | powerNotFinite slot => "power bounds must be finite (slot " ++ toString slot ++ ")"
  | emptyPowerBand low high slot =>
    "minimum power " ++ numText low ++ " exceeds maximum power " ++ numText high ++ " in slot " ++
      toString slot
  | stockLengths slots => mismatchText "stock series" slots
  | initialNotFinite => "initial stock must be finite"
  | emptyStockRange low high slot =>
    "stock minimum " ++ numText low ++ " exceeds maximum " ++ numText high ++ " in slot " ++
      toString slot
  | efficiency charging value slot =>
    (if charging then "charging" else "discharging") ++ " efficiency " ++ numText value ++
      " outside (0, 1] in slot " ++ toString slot
  | retention value slot =>
    "storage efficiency " ++ numText value ++ " outside (0, 1] in slot " ++ toString slot
  | stockNotFinite slot => "non-finite stock input in slot " ++ toString slot
  | noPower => "give power-capacity, consumption-capacity or production-capacity"
  | duplicateName => "duplicate device name"
  | stated reason => reason

end DeviceFault

namespace CommitmentFault

def message : CommitmentFault → String
  | lengths slots => mismatchText "series" slots
  | needsDevice => "stock commitments need a device"
  | notFinite slot => "non-finite baseline or price in slot " ++ toString slot
  | negativeGroupPrice => "grouped deviation prices must be non-negative"
  | unknownDevice device => "unknown device `" ++ device ++ "`"
  | noStock device => "device `" ++ device ++ "` has no stock to commit"
  | stated reason => reason

end CommitmentFault

namespace UnsupportedFault

def message : UnsupportedFault → String
  | solver name => "solver `" ++ name ++ "` is not compiled in; enable the `" ++ name ++ "` feature"
  | stated reason => reason

end UnsupportedFault

namespace Fault

def message : Fault α → String
  | grid cause => "invalid time grid: " ++ cause.message
  | text t cause => "invalid quantity " ++ Text.quoted t ++ ": " ++ cause.message
  | conversion q cause => "invalid quantity " ++ Text.quoted q.text ++ ": " ++ cause.message q
  | field name cause => "field `" ++ name ++ "`: " ++ cause.message
  | within name inner => "field `" ++ name ++ "`: " ++ inner.message
  | device name cause => "device `" ++ name ++ "`: " ++ cause.message
  | commitment name cause => "commitment `" ++ name ++ "`: " ++ cause.message
  | unsupported cause => "unsupported: " ++ cause.message
  | unrepresentable => "time out of range"

end Fault

end Sentences

end Dispatch
