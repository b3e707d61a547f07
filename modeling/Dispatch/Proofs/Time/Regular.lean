import Dispatch.Proofs.Time.Tiling

/-! # Regular grids

* `Grid.Regular`: slots of a second or more, fewer than 2 ^ 31 of them, and all within the calendar.
* `Grid.regular_of_make`: so are the grids over a horizon whose slots are whole seconds.
* `Grid.slot`: the interval of a slot. No instant lies in two of them.
* `Instant.since_eq`: outside leap seconds, the span between two instants is what their counts differ
  by.
-/

namespace Dispatch
set_option autoImplicit false

theorem orBeyond_eq_ok {α β : Type} {o : Option β} {b : β} :
    (orBeyond o : Checked α β) = .ok b ↔ o = some b := by
  cases o with
  | none => simp [orBeyond]
  | some c => simp [orBeyond]

/-- The part of a second that is cut off a span was there. -/
theorem Span.wholeSeconds_le {d : Span} (h : 0 < d.wholeSeconds) :
    d.wholeSeconds * 1000000000 ≤ d.nanos ∧ d.nanos < (d.wholeSeconds + 1) * 1000000000 := by
  rw [wholeSeconds] at h ⊢
  have hpos : 0 ≤ d.nanos := by
    by_contra hneg
    have hquot : d.nanos.tdiv 1000000000 = -(-d.nanos / 1000000000) := by
      rw [← Int.tdiv_eq_ediv_of_nonneg (by omega), Int.neg_tdiv, Int.neg_neg]
    omega
  rw [Int.tdiv_eq_ediv_of_nonneg hpos]
  omega

/-! ## Instants by their counts -/

namespace Instant
variable {s t u : Instant}

theorem le_refl (t : Instant) : t ≤ t := by
  rw [le_iff]
  omega

theorem count_of_nanos_lt (ht : t.nanos < 1000000000) : t.count = t.seconds * 1000000000 + t.nanos := by
  rw [count, if_pos ht]

theorem le_iff_count (ht : t.nanos < 1000000000) (hu : u.nanos < 1000000000) :
    t ≤ u ↔ t.count ≤ u.count := by
  rw [count_of_nanos_lt ht, count_of_nanos_lt hu, le_iff]
  omega

theorem lt_iff_count (ht : t.nanos < 1000000000) (hu : u.nanos < 1000000000) :
    t < u ↔ t.count < u.count := by
  rw [count_of_nanos_lt ht, count_of_nanos_lt hu, lt_iff]
  omega

theorem since_eq (ht : t.nanos < 1000000000) (hu : u.nanos < 1000000000) :
    (u.since t).nanos = u.count - t.count := by
  rw [Grid.since_nanos ht hu, count_of_nanos_lt ht, count_of_nanos_lt hu]
  omega

/-- A span that begins in a leap second may miss a second of the time that has passed. -/
theorem since_le (hu : u.nanos < 1000000000) : (u.since t).nanos ≤ u.count - t.count := by
  simp only [since, secondsPerDay, count]
  split_ifs <;> omega

/-- Outside leap seconds, an instant moves by as much as a span has. -/
theorem add?_eq_some_of_nonneg (ht : t.nanos < 1000000000) {d : Span} (hd : 0 ≤ d.nanos) :
    t.add? d = some u ↔
      inRange u.seconds = true ∧ u.nanos < 1000000000 ∧
        u.seconds * 1000000000 + u.nanos = t.count + d.nanos := by
  rw [Grid.add?_of_nonneg ht hd, ofSeconds?_eq_some, count_of_nanos_lt ht]
  constructor
  · rintro ⟨hrange, rfl⟩
    exact ⟨hrange, by simp only; omega, by simp only; omega⟩
  · rintro ⟨hrange, hnanos, hcount⟩
    have hseconds : u.seconds = t.seconds + (t.nanos + d.nanos) / 1000000000 := by omega
    have hrest : u.nanos = ((t.nanos + d.nanos) % 1000000000).toNat := by omega
    exact ⟨hseconds ▸ hrange, by rw [← hseconds, ← hrest]⟩

theorem count_of_add? (ht : t.nanos < 1000000000) {d : Span} (hd : 0 ≤ d.nanos)
    (h : t.add? d = some u) : u.nanos < 1000000000 ∧ u.count = t.count + d.nanos := by
  obtain ⟨-, hnanos, hcount⟩ := (add?_eq_some_of_nonneg ht hd).mp h
  exact ⟨hnanos, (count_of_nanos_lt hnanos).trans hcount⟩

end Instant

namespace Grid
variable {α : Type} {g : Grid} {start stop : Instant} {resolution : Span} {zone : Zone}

/-! ## Regular grids -/

structure Regular (g : Grid) : Prop where
  start_valid : g.start.Valid
  second_le : 1000000000 ≤ g.resolution.nanos
  len_lt : g.len < 2147483648
  representable : g.Representable

/-- The slots of a grid end no later than its horizon. -/
theorem regular_of_make (hstart : start.Valid) (hstop : stop.Valid) (hnanos : stop.nanos < 1000000000)
    (hwhole : ∃ s, resolution = Span.ofSeconds s)
    (hmake : (make start stop resolution zone : Checked α Grid) = .ok g)
    (hlen : g.len < 2147483648) : g.Regular := by
  obtain ⟨hsecond, hlt, -, rfl⟩ := make_eq_ok.mp hmake
  obtain ⟨step, rfl⟩ := hwhole
  refine ⟨hstart, hsecond, hlen, fun j hj => ?_⟩
  rcases Nat.eq_zero_or_pos j with rfl | hpos
  · exact (boundary_zero hstart rfl).1
  · have hspan := Instant.since_le (t := start) hnanos
    rw [Instant.count_of_nanos_lt hnanos] at hspan
    simp only [wholeSeconds_ofSeconds] at hj hlen
    have hstep : 0 < step := by
      rw [Span.ofSeconds] at hsecond
      simp only at hsecond
      omega
    -- So many whole steps fit into the span, of which a part of a second is left out.
    have hfit : (j : Int) * step ≤ (stop.since start).wholeSeconds := by
      have hquot : (j : Int) ≤ (stop.since start).wholeSeconds / step := by omega
      exact (Int.le_ediv_iff_mul_le (by omega)).mp hquot
    have hpositive : (0 : Int) < j * step := Int.mul_pos (by omega) (by omega)
    have hcut := Span.wholeSeconds_le (hpositive.trans_le hfit)
    have hbase : start.seconds * 1000000000 ≤ start.count := by
      rw [Instant.count]
      split_ifs <;> omega
    have hshift : (j : Int) * (step * 1000000000) = j * step * 1000000000 := by rw [Int.mul_assoc]
    have hsome : offsetStart? start (Span.ofSeconds step) j =
        some ⟨(start.count + j * (step * 1000000000)) / 1000000000,
          ((start.count + j * (step * 1000000000)) % 1000000000).toNat⟩ := by
      have hfirst := hstart.inRange
      have hlast := hstop.inRange
      simp only [Instant.inRange, Bool.and_eq_true, decide_eq_true_eq] at hfirst hlast
      rw [offsetStart?_eq_some hsecond hpos (by omega)]
      simp only [Instant.inRange, Bool.and_eq_true, decide_eq_true_eq, Span.ofSeconds]
      omega
    rw [Has, hsome]
    rfl

/-- The interval of a slot, its end left out. -/
def slot (g : Grid) (j : ℕ) : Instant × Instant := (g.boundary j, g.boundary (j + 1))

namespace Regular

theorem boundary_zero (h : g.Regular) : g.boundary 0 = g.start :=
  (Grid.boundary_zero h.start_valid rfl).2

theorem slotStart_eq (h : g.Regular) {j : ℕ} (hj : j ≤ g.len) :
    (g.slotStart j : Checked α Instant) = .ok (g.boundary j) :=
  slotStart_eq_ok.mpr ⟨h.representable j hj, rfl⟩

theorem boundary_lt (h : g.Regular) {i j : ℕ} (hij : i < j) (hj : j ≤ g.len) :
    g.boundary i < g.boundary j :=
  Grid.boundary_lt h.start_valid rfl h.second_le hij (Nat.lt_of_le_of_lt hj h.len_lt)
    (h.representable i (by omega)) (h.representable j hj)

/-- From the end of the first slot on, boundaries lie outside leap seconds. -/
theorem boundary_succ (h : g.Regular) {j : ℕ} (hj : j < g.len) :
    (g.boundary (j + 1)).nanos < 1000000000 ∧
      (g.boundary (j + 1)).count = g.start.count + (j + 1 : ℕ) * g.resolution.nanos := by
  obtain ⟨-, hnanos, hcount⟩ := boundary_of_has h.second_le (Nat.succ_pos j)
    (Nat.lt_of_le_of_lt hj h.len_lt) (h.representable (j + 1) hj)
  exact ⟨hnanos, (Instant.count_of_nanos_lt hnanos).trans hcount⟩

/-- Where the start lies outside leap seconds, so do all boundaries. -/
theorem boundary_count (h : g.Regular) (hstart : g.start.nanos < 1000000000) {j : ℕ} (hj : j ≤ g.len) :
    (g.boundary j).nanos < 1000000000 ∧
      (g.boundary j).count = g.start.count + j * g.resolution.nanos := by
  rcases Nat.eq_zero_or_pos j with rfl | hpos
  · rw [h.boundary_zero]
    exact ⟨hstart, by simp⟩
  · obtain ⟨j, rfl⟩ := Nat.exists_eq_succ_of_ne_zero hpos.ne'
    exact h.boundary_succ hj

end Regular

/-- Two hours from midnight on. -/
def twoHours : Grid := ⟨⟨0, 0⟩, Span.ofSeconds 3600, 2, .utc⟩

theorem twoHours_regular : twoHours.Regular := by
  have hmake : (make ⟨0, 0⟩ ⟨7200, 0⟩ (Span.ofSeconds 3600) .utc : Checked Float Grid) =
      .ok twoHours := rfl
  exact regular_of_make ⟨by decide, by decide⟩ ⟨by decide, by decide⟩ (by decide) ⟨3600, rfl⟩ hmake
    (by decide)

end Grid

end Dispatch
