import Mathlib.Tactic.SplitIfs
import Dispatch.Schedule.Basic
import Dispatch.Proofs.Checked

/-! # From plans to schedules

* `Grid.Representable`: every boundary of a slot is in the calendar.
* `Grid.HasStarts`, `Grid.HasEnds`: every slot starts there, or ends there.
* `Schedule.toldDevice`, `Schedule.told`: the schedules that devices and plans become.
* `Schedule.device_eq_ok`: a device is told just when the grid is representable.
* `Grid.Spans`, `Grid.representable_of_span`: a grid over a span that is a whole number of slots is
  representable.
-/

namespace Dispatch
set_option autoImplicit false

/-! ## Boundaries -/

namespace Grid
variable {α : Type} {g : Grid} {j : ℕ}

/-- The start of a slot is in the calendar. -/
def Has (g : Grid) (j : ℕ) : Prop := (offsetStart? g.start g.resolution j).isSome = true

instance (g : Grid) (j : ℕ) : Decidable (g.Has j) :=
  inferInstanceAs (Decidable ((offsetStart? g.start g.resolution j).isSome = true))

/-- The start of a slot, where the calendar has it. -/
def boundary (g : Grid) (j : ℕ) : Instant := (offsetStart? g.start g.resolution j).getD g.start

/-- Every boundary of a slot is in the calendar. -/
def Representable (g : Grid) : Prop := ∀ j ≤ g.len, g.Has j

instance (g : Grid) : Decidable g.Representable :=
  inferInstanceAs (Decidable (∀ j ≤ g.len, g.Has j))

def HasStarts (g : Grid) : Prop := ∀ j < g.len, g.Has j

def HasEnds (g : Grid) : Prop := ∀ j < g.len, g.Has (j + 1)

instance (g : Grid) : Decidable g.HasStarts := inferInstanceAs (Decidable (∀ j < g.len, g.Has j))

instance (g : Grid) : Decidable g.HasEnds :=
  inferInstanceAs (Decidable (∀ j < g.len, g.Has (j + 1)))

theorem Representable.hasStarts (h : g.Representable) : g.HasStarts :=
  fun j hj => h j (Nat.le_of_lt hj)

theorem Representable.hasEnds (h : g.Representable) : g.HasEnds := fun j hj => h (j + 1) hj

theorem slotStart_eq (g : Grid) (j : ℕ) : (g.slotStart j : Checked α Instant) =
    if g.Has j then .ok (g.boundary j) else .error .unrepresentable := by
  rw [slotStart, boundary]
  split
  case isTrue h =>
    obtain ⟨t, ht⟩ := Option.isSome_iff_exists.mp h
    rw [ht]
    rfl
  case isFalse h =>
    rw [Option.not_isSome_iff_eq_none.mp h]
    rfl

theorem slotStart_eq_ok {t : Instant} :
    (g.slotStart j : Checked α Instant) = .ok t ↔ g.Has j ∧ t = g.boundary j := by
  rw [slotStart, Has, boundary]
  cases offsetStart? g.start g.resolution j with
  | none => simp [orBeyond]
  | some t' => simp [orBeyond, eq_comm]

theorem slotStart_fails (g : Grid) (j : ℕ) :
    Checked.FailsWith (· = .unrepresentable) (g.slotStart j : Checked α Instant) := by
  rw [slotStart]
  cases offsetStart? g.start g.resolution j with
  | none => exact Checked.failsWith_error rfl
  | some t => exact Checked.failsWith_ok t

theorem representable_iff (hlen : 0 < g.len) :
    g.Representable ↔ ∀ j ∈ g.slots, g.Has j ∧ g.Has (j + 1) := by
  constructor
  · intro h j hj
    have hlt : j < g.len := List.mem_range.mp hj
    exact ⟨h j (Nat.le_of_lt hlt), h (j + 1) hlt⟩
  · intro h j hj
    rcases Nat.lt_or_eq_of_le hj with hlt | rfl
    · exact (h j (List.mem_range.mpr hlt)).1
    · have hlast := (h (g.len - 1) (List.mem_range.mpr (Nat.sub_one_lt_of_lt hlen))).2
      rwa [Nat.sub_one_add_one_eq_of_pos hlen] at hlast

/-! ## Spans of whole slots -/

/-- Outside leap seconds, a span moves an instant as numbers of nanoseconds add up. -/
theorem add?_of_nonneg {t : Instant} (ht : t.nanos < 1000000000) {d : Span} (hd : 0 ≤ d.nanos) :
    t.add? d = Instant.ofSeconds? (t.seconds + (t.nanos + d.nanos) / 1000000000)
      ((t.nanos + d.nanos) % 1000000000).toNat := by
  have hsecs : d.wholeSeconds = d.nanos / 1000000000 := Int.tdiv_eq_ediv_of_nonneg hd
  have hquot : t.seconds + d.wholeSeconds +
      (t.nanos + (d.nanos - d.wholeSeconds * 1000000000)) / 1000000000 =
        t.seconds + (t.nanos + d.nanos) / 1000000000 := by omega
  have hrem : (t.nanos + (d.nanos - d.wholeSeconds * 1000000000)) % 1000000000 =
      (t.nanos + d.nanos) % 1000000000 := by omega
  simp only [Instant.add?, if_pos ht, hquot, hrem]

theorem since_nanos {t u : Instant} (ht : t.nanos < 1000000000) (hu : u.nanos < 1000000000) :
    (u.since t).nanos = (u.seconds - t.seconds) * 1000000000 + (u.nanos - t.nanos) := by
  simp only [Instant.since, Instant.secondsPerDay]
  split_ifs <;> omega

/-- The time from the start to `stop` is that of the slots. Both are in the calendar, and neither is in a
leap second. -/
structure Spans (g : Grid) (stop : Instant) : Prop where
  span : stop.since g.start = g.resolution.times g.len
  forward : 0 ≤ g.resolution.nanos
  len_lt : g.len < 2147483648
  start_inRange : Instant.inRange g.start.seconds = true
  stop_inRange : Instant.inRange stop.seconds = true
  start_nanos : g.start.nanos < 1000000000
  stop_nanos : stop.nanos < 1000000000

/-- A grid over a span that is a whole number of slots is representable. -/
theorem representable_of_span {stop : Instant} (h : g.Spans stop) : g.Representable := by
  obtain ⟨hspan, hpos, hlen, hstart, hstop, hnanos, hnanos'⟩ := h
  intro j hj
  have hword : wordIndex j = j := wordIndex_of_lt (Nat.lt_of_le_of_lt hj hlen)
  have hshift : (0 : Int) ≤ j * g.resolution.nanos := Int.mul_nonneg (Int.natCast_nonneg j) hpos
  have hwithin : (j : Int) * g.resolution.nanos ≤ g.len * g.resolution.nanos :=
    Int.mul_le_mul_of_nonneg_right (Int.ofNat_le.mpr hj) hpos
  have htotal : (stop.seconds - g.start.seconds) * 1000000000 + (stop.nanos - g.start.nanos) =
      g.len * g.resolution.nanos := by
    rw [← since_nanos hnanos hnanos', hspan, Span.nanos_times]
  rw [Has, offsetStart?, hword, add?_of_nonneg (d := g.resolution.times j) hnanos hshift,
    Span.nanos_times, Instant.ofSeconds?]
  -- The boundary lies between the ends of the grid, which the calendar has.
  simp only [Instant.inRange, Bool.and_eq_true, decide_eq_true_eq] at hstart hstop ⊢
  rw [if_pos (by omega), Option.isSome_some]

end Grid

/-! ## What is told -/

namespace Schedule
variable {α : Type}

def told (p : Problem α) (plan : Plan α) (devices : List (DeviceSchedule α)) (costs : Costs α)
    (version : String) : Schedule α where
  status := .optimal
  validFrom := p.grid.localTime p.grid.start
  validUntil := p.grid.localTime (p.grid.boundary p.grid.len)
  devices := devices
  sitePowers := plan.sitePowers
  costs := costs
  version := version

theorem ofPlan_of_representable {p : Problem α} (hgrid : p.grid.Representable) (plan : Plan α)
    (devices : List (DeviceSchedule α)) (costs : Costs α) (version : String) :
    ofPlan p plan devices costs version = .ok (told p plan devices costs version) := by
  have hstop : (p.grid.stop : Checked α Instant) = .ok (p.grid.boundary p.grid.len) :=
    Grid.slotStart_eq_ok.mpr ⟨hgrid _ (Nat.le_refl _), rfl⟩
  rw [ofPlan, hstop]
  rfl

variable [Scalar α]

def toldEntry (g : Grid) (d : Device α) (powers : List α) (j : ℕ) : ScheduleEntry α where
  start := g.localTime (g.boundary j)
  stop := g.localTime (g.boundary (j + 1))
  power := valueAt powers j
  reason := reasonFor (valueAt powers j) (Scalar.eq (valueAt d.powerMin j) (valueAt d.powerMax j))

def toldDevice (g : Grid) (d : Device α) (plan : DevicePlan α) : DeviceSchedule α where
  device := d.id
  entries := g.slots.map (toldEntry g d plan.powers)
  stock := plan.stock

theorem entry_eq_ok {g : Grid} {d : Device α} {powers : List α} {j : ℕ} {e : ScheduleEntry α} :
    entry g d powers j = .ok e ↔ (g.Has j ∧ g.Has (j + 1)) ∧ e = toldEntry g d powers j := by
  rw [entry]
  simp only [Checked.bind_eq_ok, Grid.slotEnd, Grid.slotStart_eq_ok, Checked.pure_eq_ok]
  constructor
  · rintro ⟨_, ⟨hstart, rfl⟩, _, ⟨hstop, rfl⟩, rfl⟩
    exact ⟨⟨hstart, hstop⟩, rfl⟩
  · rintro ⟨⟨hstart, hstop⟩, rfl⟩
    exact ⟨_, ⟨hstart, rfl⟩, _, ⟨hstop, rfl⟩, rfl⟩

/-- A device is told just when every boundary of a slot is in the calendar. -/
theorem device_eq_ok {g : Grid} (hlen : 0 < g.len) {d : Device α} {plan : DevicePlan α}
    {s : DeviceSchedule α} :
    device g d plan = .ok s ↔ g.Representable ∧ s = toldDevice g d plan := by
  rw [device, Checked.bind_eq_ok, Grid.representable_iff hlen]
  simp only [Checked.mapM_eq_ok_of_forall (fun j _ e => entry_eq_ok), Checked.pure_eq_ok]
  constructor
  · rintro ⟨_, ⟨hslots, rfl⟩, rfl⟩
    exact ⟨hslots, rfl⟩
  · rintro ⟨hslots, rfl⟩
    exact ⟨_, ⟨hslots, rfl⟩, rfl⟩

theorem device_fails (g : Grid) (d : Device α) (plan : DevicePlan α) :
    Checked.FailsWith (· = .unrepresentable) (device g d plan) := by
  refine (Checked.FailsWith.mapM (fun j => ?_) g.slots).bind fun _ => Checked.failsWith_ok _
  exact (g.slotStart_fails j).bind fun _ => (g.slotStart_fails (j + 1)).bind fun _ =>
    Checked.failsWith_ok _

theorem toldDevice_powers {g : Grid} (d : Device α) {plan : DevicePlan α}
    (hlen : plan.powers.length = g.len) : (toldDevice g d plan).powers = plan.powers := by
  rw [DeviceSchedule.powers, toldDevice, List.map_map]
  refine List.ext_getElem (by simp [hlen]) fun j hj hj' => ?_
  simp [Grid.slots, toldEntry, valueAt, hj']

end Schedule

end Dispatch
