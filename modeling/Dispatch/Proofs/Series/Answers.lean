import Dispatch.Proofs.Plan.Telling
import Dispatch.Proofs.Request.Fields

/-! # Series that are answered

* `Checked.Answers`: a computation that ends with a result or with a fault that can be told.
* `CalendarHas`: the calendar has the sums of some instants and spans.
* `Segment.Adds`, `TimeWindow.Adds`, `Grid.Adds`, `Grid.ShiftAdds`: the sums that are made while intervals,
  windows and the slots of a grid are worked out.
* `Series.flowValues_answers`, `Series.stateValues_answers`, `TimeWindow.mask_answers`: series and windows
  are answered where the calendar has these sums.

Texts of any sort are answered without a condition. Only a sum of an instant and a span can lack a
representation.
-/

namespace Dispatch
set_option autoImplicit false

variable {α β γ : Type}

/-! ## Answers -/

/-- The computation ends with a result or with a fault that can be told. -/
def Checked.Answers (x : Checked α β) : Prop := Checked.FailsWith (· ≠ .unrepresentable) x

theorem Checked.Answers.inField {x : Checked α β} (h : Checked.Answers x) (name : String) :
    Checked.Answers (Checked.inField name x) := by
  refine Checked.FailsWith.mapError h fun e he => ?_
  cases e with
  | unrepresentable => exact absurd rfl he
  | _ => exact nofun

/-- A cause that is told with its place is no lack of a representation. -/
theorem Checked.answers_mapError {ε : Type} {x : Except ε β} {f : ε → Fault α}
    (hf : ∀ e, f e ≠ .unrepresentable) : Checked.Answers (x.mapError f) :=
  Checked.FailsWith.mapError (q := fun _ => True) (fun _ _ => trivial) fun e _ => hf e

theorem Grid.make_answers (start stop : Instant) (resolution : Span) (zone : Zone) :
    Checked.Answers (Grid.make start stop resolution zone : Checked α Grid) :=
  .ite (Checked.failsWith_error nofun) <| .ite (Checked.failsWith_error nofun) <|
    .ite (Checked.failsWith_error nofun) (Checked.failsWith_ok _)

/-! ## Sums of instants and spans -/

/-- The calendar has all of these sums. -/
def CalendarHas (adds : Instant → Span → Prop) : Prop := ∀ t d, adds t d → (t.add? d).isSome = true

theorem orBeyond_answers {o : Option β} (h : o.isSome = true) : Checked.Answers (orBeyond o : Checked α β) := by
  obtain ⟨b, rfl⟩ := Option.isSome_iff_exists.mp h
  exact Checked.failsWith_ok b

namespace Grid
variable {g : Grid}

/-- The boundaries of the slots. -/
def Adds (g : Grid) (t : Instant) (d : Span) : Prop :=
  t = g.start ∧ ∃ j ≤ g.len, d = g.resolution.times (wordIndex j)

theorem calendarHas_adds_iff : CalendarHas g.Adds ↔ g.Representable := by
  constructor
  · exact fun h j hj => h _ _ ⟨rfl, j, hj, rfl⟩
  · rintro h _ _ ⟨rfl, j, hj, rfl⟩
    exact h j hj

theorem slotStart_answers (hg : g.Representable) {j : ℕ} (hj : j ≤ g.len) :
    Checked.Answers (g.slotStart j : Checked α Instant) :=
  orBeyond_answers (hg j hj)

theorem slotEnd_answers (hg : g.Representable) {j : ℕ} (hj : j < g.len) :
    Checked.Answers (g.slotEnd j : Checked α Instant) :=
  slotStart_answers hg hj

theorem overlapping_answers (hg : g.Representable) (from_ until_ : Instant) :
    Checked.Answers (g.overlapping from_ until_ : Checked α (List ℕ)) := by
  refine Checked.FailsWith.filterM_of_mem fun j hj => ?_
  have hlt : j < g.len := List.mem_range.mp hj
  exact (slotStart_answers hg (Nat.le_of_lt hlt)).bind fun first =>
    .ite ((slotEnd_answers hg hlt).bind fun last => Checked.failsWith_ok _) (Checked.failsWith_ok _)

/-- The sums that move the grid by one slot, and the boundaries of the slots it then has. -/
inductive ShiftAdds (α : Type) (g : Grid) : Instant → Span → Prop where
  | start : ShiftAdds α g g.start g.resolution
  | stop {t : Instant} (h : (g.stop : Checked α Instant) = .ok t) : ShiftAdds α g t g.resolution
  | slot {g' : Grid} {t : Instant} {d : Span} (h : (Series.shiftedGrid g : Checked α Grid) = .ok g')
      (hadds : g'.Adds t d) : ShiftAdds α g t d

end Grid

theorem Series.shiftedGrid_answers {g : Grid} (hg : g.Representable) (h : CalendarHas (g.ShiftAdds α)) :
    Checked.Answers (Series.shiftedGrid g : Checked α Grid) :=
  (orBeyond_answers (h _ _ .start)).bind fun start =>
    (Grid.slotStart_answers hg (Nat.le_refl _)).bind_of_ok fun _ hstop =>
      (orBeyond_answers (h _ _ (.stop hstop))).bind fun stop' => Grid.make_answers start stop' _ _

/-! ## Texts -/

theorem readInstant_answers (zone : Zone) (text : String) :
    Checked.Answers (readInstant zone text : Checked α Instant) :=
  Checked.answers_mapError nofun

section Texts
variable [Scalar α]

theorem Duration.ofText_answers (s : String) : Checked.Answers (Duration.ofText s : Checked α Span) := by
  rw [Duration.ofText]
  cases (Duration.seconds (Text.trim s.toList) : Except DurationFault α) with
  | error e => exact Checked.failsWith_error nofun
  | ok total => exact Checked.failsWith_ok _

theorem Quantity.ofText_answers (s : String) :
    Checked.Answers (Quantity.ofText s : Checked α (Quantity α)) :=
  Checked.answers_mapError nofun

theorem Quantity.canonical_answers (q : Quantity α) (expected : Dimension) (reference : Option α) :
    Checked.Answers (q.canonical expected reference) := by
  unfold Quantity.canonical
  refine .ite (Checked.failsWith_ok _) (.ite ?_ (Checked.failsWith_error nofun))
  cases reference with
  | none => exact Checked.failsWith_error nofun
  | some r => exact Checked.failsWith_ok _

namespace Amount

theorem quantity_answers (a : Amount α) : Checked.Answers a.quantity := by
  cases a with
  | number v => exact Checked.failsWith_ok _
  | text s => exact Quantity.ofText_answers s

theorem resolve_answers (a : Amount α) (field : String) (expected : Dimension) (reference : Option α) :
    Checked.Answers (a.resolve field expected reference) :=
  Checked.Answers.inField (a.quantity_answers.bind fun q => q.canonical_answers expected reference) field

end Amount

/-! ## Intervals -/

/-- What is added to the start of an interval: its duration, if its end is not stated. -/
def Lasts (α : Type) [Scalar α] (zone : Zone) (start : String) (stop duration : Option String)
    (t : Instant) (d : Span) : Prop :=
  (readInstant zone start : Checked α Instant) = .ok t ∧ stop = none ∧
    ∃ text, duration = some text ∧ (Duration.ofText text : Checked α Span) = .ok d

theorem intervalEnd_answers {zone : Zone} {start : String} {stop duration : Option String} {t : Instant}
    (ht : (readInstant zone start : Checked α Instant) = .ok t) {missing : Fault α}
    (hmissing : missing ≠ .unrepresentable) (h : CalendarHas (Lasts α zone start stop duration)) :
    Checked.Answers (intervalEnd zone t stop duration missing) := by
  cases stop with
  | some stop => exact readInstant_answers zone stop
  | none =>
    cases duration with
    | none => exact Checked.failsWith_error hmissing
    | some text =>
      exact (Duration.ofText_answers text).bind_of_ok fun d hd =>
        orBeyond_answers (h t d ⟨ht, rfl, text, rfl, hd⟩)

/-- Without an end that is stated, the interval ends beyond the calendar. -/
theorem intervalEnd_of_lasts {zone : Zone} {start : String} {stop duration : Option String} {t : Instant}
    {d : Span} (h : Lasts α zone start stop duration t d) (hbeyond : t.add? d = none)
    (missing : Fault α) : intervalEnd zone t stop duration missing = .error .unrepresentable := by
  obtain ⟨-, rfl, text, rfl, hd⟩ := h
  simp only [intervalEnd, hd, bind, Except.bind, hbeyond, orBeyond]

/-- The sums of a segment. -/
def Segment.Adds (s : Segment α) (zone : Zone) (t : Instant) (d : Span) : Prop :=
  s.datetime = none ∧ ∃ start, s.start = some start ∧ Lasts α zone start s.stop s.duration t d

theorem Segment.bounds_answers {s : Segment α} {zone : Zone} (h : CalendarHas (s.Adds zone)) :
    Checked.Answers (s.bounds zone) := by
  obtain ⟨datetime, start, stop, duration, value⟩ := s
  cases datetime with
  | some at_ => exact (readInstant_answers zone at_).bind fun t => Checked.failsWith_ok _
  | none =>
    cases start with
    | none => exact Checked.failsWith_error nofun
    | some start =>
      refine (readInstant_answers zone start).bind_of_ok fun t ht => ?_
      refine Checked.FailsWith.bind (intervalEnd_answers ht nofun fun u d hd => ?_) fun u =>
        .ite (Checked.failsWith_error nofun) (Checked.failsWith_ok _)
      exact h u d ⟨rfl, start, rfl, hd⟩

namespace TimeWindow
variable {g : Grid} {windows : List TimeWindow}

/-- The sums of a window. -/
def Adds (α : Type) [Scalar α] (w : TimeWindow) (zone : Zone) : Instant → Span → Prop :=
  Lasts α zone w.start w.stop w.duration

theorem bounds_answers {w : TimeWindow} (h : CalendarHas (w.Adds α g.zone)) :
    Checked.Answers (w.bounds g : Checked α (Instant × Instant)) := by
  refine (readInstant_answers g.zone w.start).bind_of_ok fun t ht => ?_
  have hmissing : (.field "time-restrictions" .windowWithoutEnd : Fault α) ≠ .unrepresentable := nofun
  exact (intervalEnd_answers ht hmissing h).bind fun _ => Checked.failsWith_ok _

/-- The induction follows the windows, whatever has been marked before. -/
theorem mask_answers (hg : g.Representable) (h : ∀ w ∈ windows, CalendarHas (w.Adds α g.zone)) :
    Checked.Answers (mask g windows : Checked α (List Bool)) := by
  have hmark : ∀ marked, Checked.Answers (markFrom g marked windows : Checked α (List Bool)) := by
    induction windows with
    | nil => exact Checked.failsWith_ok
    | cons w rest ih =>
      obtain ⟨hw, hrest⟩ := List.forall_mem_cons.mp h
      exact fun marked => (bounds_answers hw).bind fun b =>
        (Grid.overlapping_answers hg b.1 b.2).bind fun hit => ih hrest _
  exact hmark _

end TimeWindow

/-! ## Series -/

namespace Series
variable {g : Grid} {field : String} {expected : Dimension} {reference : Option α}

/-- The segments of a series. -/
def pieces : Series α → List (Segment α)
  | constant _ | aligned _ => []
  | segments items => items

omit [Scalar α] in
theorem overwrite_answers {instant : ℕ → Checked α Instant} {xs : List (Option α)}
    (h : ∀ j < xs.length, Checked.Answers (instant j)) (chosen : Instant → Bool) (v : α) :
    Checked.Answers (overwrite instant chosen v xs) := by
  refine Checked.FailsWith.mapM_of_mem fun x hx => ?_
  exact (h x.2 (List.snd_lt_of_mem_zipIdx hx)).bind fun t => Checked.failsWith_ok _

/-- The induction follows the segments; every slot keeps its place. -/
theorem overlay_answers {instant : ℕ → Checked α Instant} {items : List (Segment α)}
    (hitems : ∀ s ∈ items, CalendarHas (s.Adds g.zone)) (chosen : Instant × Instant → Instant → Bool)
    {xs : List (Option α)} (h : ∀ j < xs.length, Checked.Answers (instant j)) :
    Checked.Answers (overlay g field expected reference instant chosen xs items) := by
  induction items generalizing xs with
  | nil => exact Checked.failsWith_ok xs
  | cons s rest ih =>
    obtain ⟨hs, hrest⟩ := List.forall_mem_cons.mp hitems
    refine (Checked.Answers.inField (Segment.bounds_answers hs) field).bind fun b => ?_
    refine (s.value.resolve_answers field expected reference).bind fun v => ?_
    refine (overwrite_answers h (chosen b) v).bind_of_ok fun ys hys => ih hrest ?_
    rw [(overwrite_eq_ok hys).1]
    exact h

end Series

theorem AlignedSeries.scaled_answers (s : AlignedSeries α) : Checked.Answers s.scaled := by
  rw [AlignedSeries.scaled]
  cases s.unit with
  | none => exact Checked.failsWith_ok _
  | some unit => exact (Quantity.ofText_answers _).bind fun _ => Checked.failsWith_ok _

theorem AlignedSeries.flowValues_answers {g : Grid} (hg : g.Representable) (s : AlignedSeries α)
    (field : String) (expected : Dimension) (reference : Option α) :
    Checked.Answers (s.flowValues g field expected reference) := by
  refine (Checked.Answers.inField (readInstant_answers _ s.start) field).bind fun start => ?_
  refine (Checked.Answers.inField (Duration.ofText_answers s.resolution) field).bind fun step => ?_
  refine .ite (Checked.failsWith_error nofun) ?_
  refine (Checked.Answers.inField s.scaled_answers field).bind fun scaled => ?_
  refine Checked.FailsWith.mapM_of_mem fun j hj => ?_
  refine (Grid.slotStart_answers hg (Nat.le_of_lt (List.mem_range.mp hj))).bind fun t => ?_
  cases sampleAt scaled.1 start step.wholeSeconds t with
  | none => exact Checked.failsWith_ok _
  | some raw =>
    exact (Checked.Answers.inField (Quantity.canonical_answers _ expected reference) field).bind
      fun _ => Checked.failsWith_ok _

namespace Series
variable {s : Series α} {g : Grid} {field : String} {expected : Dimension} {reference : Option α}

theorem flowValues_answers (hg : g.Representable) (h : ∀ x ∈ s.pieces, CalendarHas (x.Adds g.zone)) :
    Checked.Answers (s.flowValues g field expected reference) := by
  cases s with
  | constant a =>
    exact (a.resolve_answers field expected reference).bind fun _ => Checked.failsWith_ok _
  | segments items =>
    refine overlay_answers h _ fun j hj => Grid.slotStart_answers hg ?_
    rw [List.length_replicate] at hj
    exact Nat.le_of_lt hj
  | aligned a => exact a.flowValues_answers hg field expected reference

theorem stateValues_answers (hg : g.Representable) (h : ∀ x ∈ s.pieces, CalendarHas (x.Adds g.zone))
    (hshift : (∃ a, s = .aligned a) → CalendarHas (g.ShiftAdds α)) :
    Checked.Answers (s.stateValues g field expected reference) := by
  cases s with
  | constant a => exact flowValues_answers hg h
  | segments items =>
    refine overlay_answers h _ fun j hj => Grid.slotEnd_answers hg ?_
    rwa [List.length_replicate] at hj
  | aligned a =>
    have hadds := hshift ⟨a, rfl⟩
    refine (shiftedGrid_answers hg hadds).bind_of_ok fun g' hg' => ?_
    exact a.flowValues_answers (Grid.calendarHas_adds_iff.mp fun t d ht => hadds t d (.slot hg' ht)) field
      expected reference

theorem required_answers (hg : g.Representable) (h : ∀ x ∈ s.pieces, CalendarHas (x.Adds g.zone)) :
    Checked.Answers (s.required g field expected) := by
  refine (flowValues_answers hg h).bind_of_ok fun values hvalues => ?_
  refine Checked.FailsWith.mapM_of_mem fun x hx => ?_
  have hslot : x.2 ≤ g.len := by
    have hlt := List.snd_lt_of_mem_zipIdx hx
    rw [flowValues_length hvalues] at hlt
    exact Nat.le_of_lt hlt
  obtain ⟨_ | v, j⟩ := x
  · exact (Grid.slotStart_answers hg hslot).bind fun t => Checked.failsWith_error nofun
  · exact Checked.failsWith_ok v

theorem valuesOr_answers (hg : g.Representable) (h : ∀ x ∈ s.pieces, CalendarHas (x.Adds g.zone))
    (default : α) : Checked.Answers (s.valuesOr g field expected default) :=
  (flowValues_answers hg h).bind fun _ => Checked.failsWith_ok _

theorem firstDimension_answers (items : List (Segment α)) : Checked.Answers (firstDimension items) := by
  induction items with
  | nil => exact Checked.failsWith_ok _
  | cons s rest ih => exact s.value.quantity_answers.bind fun q => .ite ih (Checked.failsWith_ok _)

theorem dimension_answers (s : Series α) : Checked.Answers s.dimension := by
  cases s with
  | constant a => exact a.quantity_answers.bind fun _ => Checked.failsWith_ok _
  | segments items => exact firstDimension_answers items
  | aligned a => exact a.scaled_answers.bind fun _ => Checked.failsWith_ok _

end Series

end Texts

end Dispatch
