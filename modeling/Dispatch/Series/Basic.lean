import Dispatch.Grid
import Dispatch.Time.Duration
import Dispatch.Quantity.Reader
import Dispatch.Series.Values

/-! # Series

* `Series`: values over time as a request states them: one amount, amounts over intervals, or
  samples at a fixed pace.
* `Series.flowValues`: the value of each slot, taken at the start of the slot.
* `Series.stateValues`: the value at the end of each slot, for levels of a stock.
* `Series.required`, `Series.valuesOr`: the same with no gap allowed, or with gaps filled.
* `Series.dimension`, `Series.currency`: the unit that a series states.
-/

namespace Dispatch
set_option autoImplicit false

structure Segment (α : Type) where
  datetime : Option String
  start : Option String
  stop : Option String
  duration : Option String
  value : Amount α
deriving DecidableEq, Repr

structure AlignedSeries (α : Type) where
  start : String
  resolution : String
  values : List α
  unit : Option String
  zone : Option Zone
deriving Repr

inductive Series (α : Type) where
  | constant (value : Amount α)
  | segments (items : List (Segment α))
  | aligned (series : AlignedSeries α)
deriving Repr

variable {α : Type}

def readInstant (zone : Zone) (text : String) : Checked α Instant :=
  (Instant.ofText zone text).mapError fun e => .text text (.instant e)

/-- The end of an interval, given or computed from a duration; the end wins if both are there. -/
def intervalEnd [Scalar α] (zone : Zone) (start : Instant) (stop duration : Option String)
    (missing : Fault α) : Checked α Instant :=
  match stop, duration with
  | some stop, _ => readInstant zone stop
  | none, some d => do
    let d ← Duration.ofText d
    orBeyond (start.add? d)
  | none, none => .error missing

variable [Scalar α]

/-! ## Segments -/

namespace Segment

/-- The ends of the interval; they agree for a single instant. -/
def bounds (s : Segment α) (zone : Zone) : Checked α (Instant × Instant) :=
  match s.datetime with
  | some at_ => do
    let t ← readInstant zone at_
    return (t, t)
  | none =>
    match s.start with
    | none => .error (.field "start" .segmentWithoutStart)
    | some start => do
      let start ← readInstant zone start
      let stop ← intervalEnd zone start s.stop s.duration (.field "end" .segmentWithoutEnd)
      if stop < start then .error (.field "end" .segmentReversed) else return (start, stop)

/-- Whether a slot that starts at `t` takes its value from the interval: its end is left out, but
an instant covers itself. -/
def covers (bounds : Instant × Instant) (t : Instant) : Bool :=
  if bounds.1 = bounds.2 then t = bounds.1 else bounds.1 ≤ t && t < bounds.2

/-- Whether the end `t` of a slot lies in the interval, its end included. -/
def reaches (bounds : Instant × Instant) (t : Instant) : Bool :=
  bounds.1 ≤ t && t ≤ bounds.2

end Segment

namespace Series

/-- Give `v` to the slots whose instant, picked by `instant`, is chosen. -/
def overwrite (instant : Nat → Checked α Instant) (chosen : Instant → Bool) (v : α)
    (xs : List (Option α)) : Checked α (List (Option α)) :=
  xs.zipIdx.mapM fun (x, j) => do
    let t ← instant j
    return if chosen t then some v else x

/-- Run through segments, a later one overruling an earlier one. -/
def overlay (g : Grid) (field : String) (expected : Dimension) (reference : Option α)
    (instant : Nat → Checked α Instant) (chosen : Instant × Instant → Instant → Bool) :
    List (Option α) → List (Segment α) → Checked α (List (Option α))
  | xs, [] => .ok xs
  | xs, s :: rest => do
    let bounds ← Checked.inField field (s.bounds g.zone)
    let v ← s.value.resolve field expected reference
    let xs ← overwrite instant (chosen bounds) v xs
    overlay g field expected reference instant chosen xs rest

end Series

/-! ## Samples -/

namespace AlignedSeries

def scaled (s : AlignedSeries α) : Checked α (List α × Dimension × Option String) :=
  match s.unit with
  | none => .ok (s.values, .dimensionless, none)
  | some unit => do
    let one ← Quantity.ofText ("1 " ++ unit)
    return (s.values.map (· * one.value), one.dimension, one.currency)

/-- The sample in force at an instant, `step` seconds being the pace. -/
def sampleAt (values : List α) (start : Instant) (step : Int) (t : Instant) : Option α :=
  if t < start then none else values[((t.since start).wholeSeconds / step).toNat]?

def flowValues (s : AlignedSeries α) (g : Grid) (field : String) (expected : Dimension)
    (reference : Option α) : Checked α (List (Option α)) := do
  let start ← Checked.inField field (readInstant (s.zone.getD g.zone) s.start)
  let step ← Checked.inField field (Duration.ofText s.resolution)
  if step.wholeSeconds ≤ 0 then .error (.field field .resolutionNotPositive)
  else
    let (values, dimension, _) ← Checked.inField field s.scaled
    g.slots.mapM fun j => do
      let t ← g.slotStart j
      match sampleAt values start step.wholeSeconds t with
      | none => return none
      | some raw =>
        let q : Quantity α := ⟨raw, dimension, none⟩
        let v ← Checked.inField field (q.canonical expected reference)
        return some v

end AlignedSeries

/-! ## Values of a series -/

namespace Series

def flowValues (s : Series α) (g : Grid) (field : String) (expected : Dimension)
    (reference : Option α) : Checked α (List (Option α)) :=
  match s with
  | constant a => do
    let v ← a.resolve field expected reference
    return List.replicate g.len (some v)
  | segments items =>
    overlay g field expected reference g.slotStart Segment.covers (List.replicate g.len none) items
  | aligned s => s.flowValues g field expected reference

def shiftedGrid (g : Grid) : Checked α Grid := do
  let start ← orBeyond (g.start.add? g.resolution)
  let stop ← g.stop
  let stop ← orBeyond (stop.add? g.resolution)
  Grid.make start stop g.resolution g.zone

def stateValues (s : Series α) (g : Grid) (field : String) (expected : Dimension)
    (reference : Option α) : Checked α (List (Option α)) :=
  match s with
  | constant _ => s.flowValues g field expected reference
  | segments items =>
    overlay g field expected reference g.slotEnd Segment.reaches (List.replicate g.len none) items
  | aligned a => do
    let shifted ← shiftedGrid g
    a.flowValues shifted field expected reference

def required (s : Series α) (g : Grid) (field : String) (expected : Dimension) :
    Checked α (List α) := do
  let values ← s.flowValues g field expected none
  values.zipIdx.mapM fun (v, j) =>
    match v with
    | some v => .ok v
    | none => do
      let t ← g.slotStart j
      .error (.field field (.uncovered (g.localTime t)))

def valuesOr (s : Series α) (g : Grid) (field : String) (expected : Dimension) (default : α) :
    Checked α (List α) := do
  let values ← s.flowValues g field expected none
  return values.map fun v => v.getD default

def firstDimension : List (Segment α) → Checked α Dimension
  | [] => .ok .dimensionless
  | s :: rest => do
    let q ← s.value.quantity
    if q.dimension = .dimensionless then firstDimension rest else return q.dimension

def dimension : Series α → Checked α Dimension
  | constant a => do
    let q ← a.quantity
    return q.dimension
  | segments items => firstDimension items
  | aligned s => do
    let (_, d, _) ← s.scaled
    return d

def currency : Series α → Option String
  | constant a => a.currency
  | segments items => items.findSome? fun s => s.value.currency
  | aligned s =>
    match s.scaled with
    | .ok (_, _, c) => c
    | .error _ => none

end Series

end Dispatch
