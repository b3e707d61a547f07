import Dispatch.Fault

/-! # The time grid

* `Grid`: slots of equal length from a start on. Every series of a problem is indexed by its slots; a
  stock level belongs to the end of its slot.
* `Grid.make`: the grid over a horizon that is a whole number of slots.
* `Grid.ofCount`: the grid of a number of slots in universal time.
* `Grid.slotStart`, `Grid.slotEnd`: the ends of a slot.
* `Grid.overlapping`: the slots that share time with an interval.

Slot numbers are counted in signed 32-bit words, so `wordIndex` stands where a slot number becomes a
factor.
-/

namespace Dispatch
set_option autoImplicit false

structure Grid where
  start : Instant
  resolution : Span
  len : Nat
  zone : Zone
deriving Repr

/-- An instant that the calendar may not have. -/
def orBeyond {α β : Type} : Option β → Checked α β
  | some b => .ok b
  | none => .error .unrepresentable

/-- A count cut to a signed 32-bit word. -/
def wordIndex (n : Nat) : Int := Int.bmod n 4294967296

theorem wordIndex_of_lt {n : Nat} (h : n < 2147483648) : wordIndex n = n := by
  unfold wordIndex
  rw [Int.bmod_def]
  omega

namespace Grid
variable {α : Type}

def offsetStart? (start : Instant) (resolution : Span) (n : Nat) : Option Instant :=
  start.add? (resolution.times (wordIndex n))

def make (start stop : Instant) (resolution : Span) (zone : Zone) : Checked α Grid :=
  let span := (stop.since start).wholeSeconds
  let step := resolution.wholeSeconds
  if resolution ≤ Span.zero then .error (.grid (.resolutionNotPositive resolution))
  else if stop ≤ start then .error (.grid (.endNotAfterStart start stop))
  else if step = 0 ∨ span % step ≠ 0 then .error (.grid (.ragged span step))
  else .ok ⟨start, resolution, (span / step).toNat, zone⟩

def ofCount (start : Instant) (resolution : Span) (len : Nat) : Checked α Grid :=
  if len = 0 then .error (.grid .noSlots)
  else do
    let stop ← orBeyond (offsetStart? start resolution len)
    make start stop resolution .utc

def slotStart (g : Grid) (j : Nat) : Checked α Instant :=
  orBeyond (offsetStart? g.start g.resolution j)

def slotEnd (g : Grid) (j : Nat) : Checked α Instant := g.slotStart (j + 1)

def stop (g : Grid) : Checked α Instant := g.slotStart g.len

def slots (g : Grid) : List Nat := List.range g.len

def hours [Scalar α] (g : Grid) : α :=
  Scalar.ofInt g.resolution.wholeSeconds / Scalar.ofNat 3600

def overlaps (g : Grid) (from_ until_ : Instant) (j : Nat) : Checked α Bool := do
  let first ← g.slotStart j
  if first < until_ then
    let last ← g.slotEnd j
    return decide (from_ < last)
  else return false

def overlapping (g : Grid) (from_ until_ : Instant) : Checked α (List Nat) :=
  g.slots.filterM (g.overlaps from_ until_)

def localTime (g : Grid) (t : Instant) : LocalTime := g.zone.localTime t

@[simp] theorem slots_length (g : Grid) : g.slots.length = g.len := by simp [slots]

end Grid

end Dispatch
