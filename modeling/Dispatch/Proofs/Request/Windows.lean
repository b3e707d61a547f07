import Dispatch.Request.Basic
import Dispatch.Proofs.Series.Overlay
import Dispatch.Proofs.Time.Regular

/-! # Slots that windows restrict

* `Instant.Shared`: two intervals have an instant in common.
* `Grid.overlapping_eq`: the slots that are picked for an interval.
* `TimeWindow.mask_eq`: the mask of some windows, slot by slot.
* `TimeWindow.mask_exact`: a slot is marked just when a window shares an instant with it, or is empty and
  lies within it; the order and the repetition of windows do not matter.
* `TimeWindow.empty_window_marks`: a window without an instant marks the slot around it.
-/

namespace Dispatch
set_option autoImplicit false

/-! ## Intervals -/

namespace Instant

theorem le_total (s t : Instant) : s ≤ t ∨ t ≤ s := by
  rw [le_iff, le_iff]
  omega

/-- The intervals, the end of each left out, have an instant in common. -/
def Shared (a b : Instant × Instant) : Prop := ∃ t, (a.1 ≤ t ∧ t < a.2) ∧ b.1 ≤ t ∧ t < b.2

/-- Of two intervals that are not empty, the later start is the first instant they can share. -/
theorem shared_iff {a b : Instant × Instant} (ha : a.1 < a.2) (hb : b.1 < b.2) :
    Shared a b ↔ b.1 < a.2 ∧ a.1 < b.2 := by
  constructor
  · rintro ⟨t, ⟨hfrom, hto⟩, hfrom', hto'⟩
    exact ⟨lt_of_le_of_lt hfrom' hto, lt_of_le_of_lt hfrom hto'⟩
  · rintro ⟨hba, hab⟩
    rcases le_total a.1 b.1 with h | h
    · exact ⟨b.1, ⟨h, hba⟩, le_refl b.1, hb⟩
    · exact ⟨a.1, ⟨le_refl a.1, ha⟩, h, hab⟩

theorem not_shared_of_le {a b : Instant × Instant} (ha : a.2 ≤ a.1) : ¬Shared a b := by
  rintro ⟨t, ⟨hfrom, hto⟩, -⟩
  exact not_lt.mpr ha (lt_of_le_of_lt hfrom hto)

end Instant

/-! ## Slots picked for an interval -/

namespace Grid
variable {α : Type} {g : Grid}

/-- The comparison that picks a slot: it starts before the interval ends, and ends after it starts. -/
def meets (g : Grid) (b : Instant × Instant) (j : ℕ) : Bool :=
  decide ((g.slot j).1 < b.2) && decide (b.1 < (g.slot j).2)

theorem Regular.overlaps_eq (hg : g.Regular) (b : Instant × Instant) {j : ℕ} (hj : j < g.len) :
    (g.overlaps b.1 b.2 j : Checked α Bool) = .ok (g.meets b j) := by
  rw [overlaps, slotEnd, hg.slotStart_eq (Nat.le_of_lt hj), hg.slotStart_eq hj, meets, slot]
  by_cases h : g.boundary j < b.2
  · simp [h, bind, Except.bind, pure, Except.pure]
  · simp [h, bind, Except.bind, pure, Except.pure]

theorem overlapping_eq (hg : g.Regular) (b : Instant × Instant) :
    (g.overlapping b.1 b.2 : Checked α (List ℕ)) = .ok (g.slots.filter (g.meets b)) :=
  Checked.filterM_eq fun _ hj => hg.overlaps_eq b (List.mem_range.mp hj)

/-- The comparison is right about intervals that hold an instant. An empty one should meet nothing, but
it passes wherever a slot reaches around it. -/
theorem Regular.meets_iff (hg : g.Regular) (b : Instant × Instant) {j : ℕ} (hj : j < g.len) :
    g.meets b j = true ↔
      Instant.Shared b (g.slot j) ∨ b.2 ≤ b.1 ∧ (g.slot j).1 < b.2 ∧ b.1 < (g.slot j).2 := by
  have hslot : (g.slot j).1 < (g.slot j).2 := hg.boundary_lt (Nat.lt_succ_self j) hj
  rw [meets, Bool.and_eq_true, decide_eq_true_iff, decide_eq_true_iff]
  by_cases hb : b.1 < b.2
  · have hfull : ¬b.2 ≤ b.1 := Instant.not_le.mpr hb
    rw [Instant.shared_iff hb hslot]
    simp [hfull]
  · have hempty : b.2 ≤ b.1 := Instant.not_lt.mp hb
    simp [hempty, Instant.not_shared_of_le hempty]

end Grid

/-! ## Masks -/

namespace TimeWindow
variable {α : Type} [Scalar α] {g : Grid} {windows : List TimeWindow}

theorem bounds_of_ofText {start stop : String} {t u : Instant}
    (ht : Instant.ofText g.zone start = .ok t) (hu : Instant.ofText g.zone stop = .ok u) :
    ((⟨start, some stop, none⟩ : TimeWindow).bounds g : Checked α (Instant × Instant)) = .ok (t, u) := by
  rw [bounds, Checked.bind_eq_ok]
  refine ⟨t, readInstant_of_ofText ht, Checked.bind_eq_ok.mpr ⟨u, ?_, rfl⟩⟩
  exact readInstant_of_ofText hu

/-- Whether the window is among those that pick the slot. -/
def picks (α : Type) [Scalar α] (g : Grid) (j : ℕ) (w : TimeWindow) : Bool :=
  match (w.bounds g : Checked α (Instant × Instant)) with
  | .ok b => g.meets b j
  | .error _ => false

theorem picks_iff {w : TimeWindow} {j : ℕ} :
    picks α g j w = true ↔
      ∃ b, (w.bounds g : Checked α (Instant × Instant)) = .ok b ∧ g.meets b j = true := by
  rw [picks]
  cases (w.bounds g : Checked α (Instant × Instant)) with
  | ok b => simp
  | error e => simp

/-- One window adds its slots to those marked before. -/
theorem marked_add (m : ℕ → Bool) (p : ℕ → Bool) :
    (g.slots.map m).zipIdx.map (fun (x, j) => x || (g.slots.filter p).contains j) =
      g.slots.map fun j => m j || p j := by
  refine List.ext_getElem (by simp) fun j hj hj' => ?_
  have hlt : j < g.len := by simpa using hj'
  simp [Grid.slots, hlt]

/-- The marks of a run through the windows. The induction follows the run, a window at a time. -/
theorem markFrom_eq (hg : g.Regular)
    (hbounds : ∀ w ∈ windows, ∃ b, (w.bounds g : Checked α (Instant × Instant)) = .ok b)
    (m : ℕ → Bool) :
    (markFrom g (g.slots.map m) windows : Checked α (List Bool)) =
      .ok (g.slots.map fun j => m j || windows.any (picks α g j)) := by
  induction windows generalizing m with
  | nil => simp [markFrom]
  | cons w rest ih =>
    obtain ⟨⟨b, hb⟩, hrest⟩ := List.forall_mem_cons.mp hbounds
    have hpicks : ∀ j, picks α g j w = g.meets b j := fun j => by rw [picks, hb]
    rw [markFrom, Checked.bind_eq_ok]
    refine ⟨b, hb, Checked.bind_eq_ok.mpr ⟨_, Grid.overlapping_eq hg b, ?_⟩⟩
    rw [marked_add, ih hrest]
    simp only [List.any_cons, hpicks, Bool.or_assoc]

theorem mask_eq (hg : g.Regular)
    (hbounds : ∀ w ∈ windows, ∃ b, (w.bounds g : Checked α (Instant × Instant)) = .ok b) :
    (mask g windows : Checked α (List Bool)) =
      .ok (g.slots.map fun j => windows.any (picks α g j)) := by
  have hnone : List.replicate g.len false = g.slots.map fun _ => false := by simp
  rw [mask, hnone, markFrom_eq hg hbounds]
  simp only [Bool.false_or]

/-- The second half of the first hour. -/
def halfHour : TimeWindow := ⟨"1970-01-01T00:30:00Z", some "1970-01-01T01:00:00Z", none⟩

/-- An instant of the first hour, as an interval that ends where it starts. -/
def halfPast : TimeWindow := ⟨"1970-01-01T00:30:00Z", some "1970-01-01T00:30:00Z", none⟩

theorem halfHour_bounds :
    (halfHour.bounds Grid.twoHours : Checked Float (Instant × Instant)) = .ok (⟨1800, 0⟩, ⟨3600, 0⟩) :=
  bounds_of_ofText (by decide +kernel) (by decide +kernel)

theorem halfPast_bounds :
    (halfPast.bounds Grid.twoHours : Checked Float (Instant × Instant)) = .ok (⟨1800, 0⟩, ⟨1800, 0⟩) :=
  bounds_of_ofText (by decide +kernel) (by decide +kernel)

/-- Where the bounds of all windows can be read, there is a mark for every slot. A slot is marked just
when some window shares an instant with it, or is empty and lies inside the slot; so if no window is
empty, just when some window shares an instant with it. Only which windows there are counts, not their
order nor how often each is given. -/
theorem mask_exact (hg : g.Regular)
    (hbounds : ∀ w ∈ windows, ∃ b, (w.bounds g : Checked α (Instant × Instant)) = .ok b) :
    (∃ marks, (mask g windows : Checked α (List Bool)) = .ok marks ∧ marks.length = g.len ∧
      (∀ j < g.len, marks[j]? = some true ↔
        ∃ w ∈ windows, ∃ b, (w.bounds g : Checked α (Instant × Instant)) = .ok b ∧
          (Instant.Shared b (g.slot j) ∨
            b.2 ≤ b.1 ∧ (g.slot j).1 < b.2 ∧ b.1 < (g.slot j).2)) ∧
      ((∀ w ∈ windows, ∀ b, (w.bounds g : Checked α (Instant × Instant)) = .ok b → b.1 < b.2) →
        ∀ j < g.len, marks[j]? = some true ↔
          ∃ w ∈ windows, ∃ b, (w.bounds g : Checked α (Instant × Instant)) = .ok b ∧
            Instant.Shared b (g.slot j))) ∧
    ∀ windows', (∀ w, w ∈ windows' ↔ w ∈ windows) →
      (mask g windows' : Checked α (List Bool)) = mask g windows := by
  have hmarked : ∀ j < g.len, (g.slots.map fun j => windows.any (picks α g j))[j]? = some true ↔
      ∃ w ∈ windows, ∃ b, (w.bounds g : Checked α (Instant × Instant)) = .ok b ∧
        (Instant.Shared b (g.slot j) ∨
          b.2 ≤ b.1 ∧ (g.slot j).1 < b.2 ∧ b.1 < (g.slot j).2) := by
    intro j hj
    rw [List.getElem?_map, Grid.slots, List.getElem?_range hj, Option.map_some, Option.some.injEq,
      List.any_eq_true]
    simp only [picks_iff, hg.meets_iff _ hj]
  refine ⟨⟨_, mask_eq hg hbounds, by simp, hmarked, fun hfull j hj => ?_⟩, fun windows' hsame => ?_⟩
  · rw [hmarked j hj]
    refine exists_congr fun w => and_congr_right fun hw => exists_congr fun b =>
      and_congr_right fun hb => ?_
    have hfull := Instant.not_le.mpr (hfull w hw b hb)
    simp [hfull]
  · rw [mask_eq hg hbounds, mask_eq hg fun w hw => hbounds w ((hsame w).mp hw)]
    have hany : ∀ j, windows'.any (picks α g j) = windows.any (picks α g j) := by
      intro j
      rw [Bool.eq_iff_iff, List.any_eq_true, List.any_eq_true]
      exact exists_congr fun w => and_congr_left fun _ => hsame w
    simp only [hany]

/-- The second half of an hour marks that hour and not the next. -/
theorem halfHour_marked :
    Grid.twoHours.Regular ∧
      ∃ marks, (mask Grid.twoHours [halfHour] : Checked Float (List Bool)) = .ok marks ∧
        marks[0]? = some true ∧ marks[1]? ≠ some true := by
  have hbounds : ∀ w ∈ [halfHour], ∃ b,
      (w.bounds Grid.twoHours : Checked Float (Instant × Instant)) = .ok b := by
    simpa using ⟨_, _, halfHour_bounds⟩
  have hfull : ∀ w ∈ [halfHour], ∀ b,
      (w.bounds Grid.twoHours : Checked Float (Instant × Instant)) = .ok b → b.1 < b.2 := by
    intro w hw b hb
    obtain rfl := List.mem_singleton.mp hw
    obtain rfl := Except.ok.inj (halfHour_bounds.symm.trans hb)
    decide
  obtain ⟨⟨marks, hmask, -, -, hmarks⟩, -⟩ := mask_exact Grid.twoHours_regular hbounds
  refine ⟨Grid.twoHours_regular, marks, hmask, ?_, fun hsecond => ?_⟩
  · refine (hmarks hfull 0 (by decide)).mpr ⟨halfHour, List.mem_singleton_self _, _, halfHour_bounds, ?_⟩
    exact ⟨⟨1800, 0⟩, by decide, by decide⟩
  · obtain ⟨w, hw, b, hb, hshared⟩ := (hmarks hfull 1 (by decide)).mp hsecond
    obtain rfl := List.mem_singleton.mp hw
    obtain rfl := Except.ok.inj (halfHour_bounds.symm.trans hb)
    exact absurd ((Instant.shared_iff (by decide) (by decide)).mp hshared) (by decide)

/-- A window that ends where it starts holds no instant, and marks the hour around it all the same. -/
theorem empty_window_marks :
    (mask Grid.twoHours [halfPast] : Checked Float (List Bool)) = .ok [true, false] ∧
      ∀ b, (halfPast.bounds Grid.twoHours : Checked Float (Instant × Instant)) = .ok b →
        ∀ j, ¬Instant.Shared b (Grid.twoHours.slot j) := by
  have hbounds : ∀ w ∈ [halfPast], ∃ b,
      (w.bounds Grid.twoHours : Checked Float (Instant × Instant)) = .ok b := by
    simpa using ⟨_, _, halfPast_bounds⟩
  refine ⟨?_, fun b hb j => ?_⟩
  · rw [mask_eq Grid.twoHours_regular hbounds]
    simp only [List.any_cons, List.any_nil, Bool.or_false, picks, halfPast_bounds]
    decide
  · obtain rfl := Except.ok.inj (halfPast_bounds.symm.trans hb)
    exact Instant.not_shared_of_le (Instant.le_refl _)

end TimeWindow

end Dispatch
