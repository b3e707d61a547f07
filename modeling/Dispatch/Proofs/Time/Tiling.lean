import Mathlib.Tactic.Linarith
import Dispatch.Proofs.Plan.Telling

/-! # Slots that tile a horizon

* `Grid.Tiles`: the slots of a grid lie one after the other from the start of a horizon to its end.
* `Grid.make_eq_ok`: when there is a grid over a horizon, and which.
* `Grid.make_tiles`: a grid tiles its horizon just when as many slots as it counts lead from the start
  to the end, and it counts fewer than 2 ^ 31; which is so of every horizon of whole seconds.

The grid counts its slots in whole seconds and moves its start by slots to the nanosecond, so the two
agree where both the slots and the horizon are whole seconds.
-/

namespace Dispatch
set_option autoImplicit false

/-! ## The order of instants -/

namespace Instant
variable {s t u : Instant}

theorem lt_irrefl (t : Instant) : ¬t < t := by
  rw [lt_iff]
  omega

theorem le_of_lt (h : s < t) : s ≤ t := by
  rw [lt_iff] at h
  rw [le_iff]
  omega

theorem lt_of_lt_of_le (h : s < t) (h' : t ≤ u) : s < u := by
  rw [lt_iff] at h ⊢
  rw [le_iff] at h'
  omega

theorem lt_of_le_of_lt (h : s ≤ t) (h' : t < u) : s < u := by
  rw [lt_iff] at h' ⊢
  rw [le_iff] at h
  omega

theorem not_le : ¬s ≤ t ↔ t < s := by
  rw [lt_iff, le_iff]
  omega

theorem not_lt : ¬s < t ↔ t ≤ s := by
  rw [lt_iff, le_iff]
  omega

/-! ## Counting nanoseconds -/

/-- The calendar has the instant; it may lie in a leap second. -/
structure Valid (t : Instant) : Prop where
  inRange : inRange t.seconds = true
  nanos_lt : t.nanos < 2000000000

/-- Nanoseconds since the start of 1970, where a leap second counts as the second it follows. -/
def count (t : Instant) : ℤ :=
  t.seconds * 1000000000 + if t.nanos < 1000000000 then (t.nanos : ℤ) else t.nanos - 1000000000

theorem ofSeconds?_eq_some {seconds : ℤ} {nanos : ℕ} :
    ofSeconds? seconds nanos = some t ↔ Instant.inRange seconds = true ∧ t = ⟨seconds, nanos⟩ := by
  rw [ofSeconds?]
  split_ifs with h
  · simp [h, eq_comm]
  · simp [h]

/-- A span of a second or more leads out of any leap second. -/
theorem add?_eq_some {d : Span} (hd : 1000000000 ≤ d.nanos) :
    t.add? d = some u ↔
      Instant.inRange u.seconds = true ∧ u.nanos < 1000000000 ∧
        u.seconds * 1000000000 + u.nanos = t.count + d.nanos := by
  have hsecs : d.wholeSeconds = d.nanos / 1000000000 := Int.tdiv_eq_ediv_of_nonneg (by omega)
  have hadd : t.add? d = ofSeconds? ((t.count + d.nanos) / 1000000000)
      ((t.count + d.nanos) % 1000000000).toNat := by
    rw [count]
    simp only [add?, hsecs]
    split_ifs
    · congr 2 <;> omega
    · congr 2 <;> omega
    · omega
    · omega
  rw [hadd, ofSeconds?_eq_some]
  constructor
  · rintro ⟨hrange, rfl⟩
    exact ⟨hrange, by simp only; omega, by simp only; omega⟩
  · rintro ⟨hrange, hnanos, hcount⟩
    have hseconds : u.seconds = (t.count + d.nanos) / 1000000000 := by omega
    have hrest : u.nanos = ((t.count + d.nanos) % 1000000000).toNat := by omega
    exact ⟨hseconds ▸ hrange, by rw [← hseconds, ← hrest]⟩

theorem add?_zero (ht : t.Valid) {d : Span} (hd : d.nanos = 0) : t.add? d = some t := by
  have hsecs : d.wholeSeconds = 0 := by rw [Span.wholeSeconds, hd, Int.zero_tdiv]
  have hstay : ofSeconds? t.seconds t.nanos = some t := ofSeconds?_eq_some.mpr ⟨ht.inRange, rfl⟩
  rw [← hstay]
  simp only [add?, hsecs, hd]
  split_ifs
  · congr 1 <;> omega
  · omega
  · omega
  · rfl

/-- Two seconds back is before the instant, leap second or not. -/
theorem seconds_lt_of_add? (ht : t.Valid) {d : Span} (hd : d.nanos ≤ -2000000000)
    (h : t.add? d = some u) : u.seconds < t.seconds := by
  have hnanos := ht.nanos_lt
  have hsecs : d.wholeSeconds = -(-d.nanos / 1000000000) := by
    rw [← Int.tdiv_eq_ediv_of_nonneg (by omega), Int.neg_tdiv, Int.neg_neg]
    rfl
  simp only [add?, hsecs] at h
  split_ifs at h
  · obtain ⟨-, rfl⟩ := ofSeconds?_eq_some.mp h
    simp only
    omega
  · obtain ⟨-, rfl⟩ := ofSeconds?_eq_some.mp h
    simp only
    omega
  · obtain ⟨-, rfl⟩ := ofSeconds?_eq_some.mp h
    simp only
    omega
  · omega

end Instant

namespace Grid
variable {α : Type} {g : Grid} {start stop : Instant} {resolution : Span} {zone : Zone}

/-! ## Grids over a horizon -/

theorem make_eq_ok :
    (make start stop resolution zone : Checked α Grid) = .ok g ↔
      1000000000 ≤ resolution.nanos ∧ start < stop ∧
        (stop.since start).wholeSeconds % resolution.wholeSeconds = 0 ∧
        g = ⟨start, resolution,
          ((stop.since start).wholeSeconds / resolution.wholeSeconds).toNat, zone⟩ := by
  have hnonpos : resolution ≤ Span.zero ↔ resolution.nanos ≤ 0 := Iff.rfl
  have hstep : ¬resolution.nanos ≤ 0 → resolution.wholeSeconds = resolution.nanos / 1000000000 :=
    fun h => Int.tdiv_eq_ediv_of_nonneg (by omega)
  simp only [make, hnonpos]
  split_ifs with hzero horder hragged
  · simp only [false_iff, not_and]
    intro h
    omega
  · simp only [false_iff, not_and]
    exact fun _ hlt => absurd horder (Instant.not_le.mpr hlt)
  · simp only [false_iff, not_and]
    intro hsecond _ hwhole
    rw [hstep hzero] at hragged hwhole
    omega
  · push Not at hragged
    rw [hstep hzero] at hragged
    rw [Except.ok.injEq, eq_comm, hstep hzero]
    refine ⟨fun h => ⟨by omega, Instant.not_le.mp horder, hragged.2, h⟩, fun h => h.2.2.2⟩

/-! ## Tiles -/

/-- The slots of the grid lie one after the other from the start to the end: its boundaries begin with
the one, increase strictly and end with the other. So every instant between the two lies in just one
slot, and no slot reaches out of them. -/
structure Tiles (g : Grid) (start stop : Instant) : Prop where
  starts : ∀ (α : Type) (j : ℕ), j ≤ g.len → (g.slotStart j : Checked α Instant) = .ok (g.boundary j)
  ends : ∀ (α : Type) (j : ℕ), j < g.len →
    (g.slotEnd j : Checked α Instant) = .ok (g.boundary (j + 1))
  first : g.boundary 0 = start
  last : ∀ α : Type, (g.stop : Checked α Instant) = .ok stop
  increasing : ∀ i j, i < j → j ≤ g.len → g.boundary i < g.boundary j
  covers : ∀ t, start ≤ t → t < stop → ∃! j, j < g.len ∧ g.boundary j ≤ t ∧ t < g.boundary (j + 1)
  inside : ∀ j, j < g.len → start ≤ g.boundary j ∧ g.boundary (j + 1) ≤ stop

theorem exists_slot {b : ℕ → Instant} {n : ℕ} {t : Instant} (hfirst : b 0 ≤ t) (hlast : t < b n) :
    ∃ j < n, b j ≤ t ∧ t < b (j + 1) := by
  induction n with
  | zero => exact absurd (Instant.lt_of_le_of_lt hfirst hlast) (Instant.lt_irrefl _)
  | succ n ih =>
    by_cases h : t < b n
    · obtain ⟨j, hj, hslot⟩ := ih h
      exact ⟨j, Nat.lt_succ_of_lt hj, hslot⟩
    · exact ⟨n, Nat.lt_succ_self n, Instant.not_lt.mp h, hlast⟩

theorem tiles_of_increasing (hgrid : g.Representable) (hfirst : g.boundary 0 = start)
    (hlast : g.boundary g.len = stop)
    (hincreasing : ∀ i j, i < j → j ≤ g.len → g.boundary i < g.boundary j) : g.Tiles start stop := by
  have hmono : ∀ i j, i ≤ j → j ≤ g.len → g.boundary i ≤ g.boundary j := by
    intro i j hij hj
    rcases Nat.lt_or_eq_of_le hij with hlt | rfl
    · exact Instant.le_of_lt (hincreasing i j hlt hj)
    · exact Instant.not_lt.mp (Instant.lt_irrefl _)
  refine ⟨fun α j hj => slotStart_eq_ok.mpr ⟨hgrid j hj, rfl⟩,
    fun α j hj => slotStart_eq_ok.mpr ⟨hgrid (j + 1) hj, rfl⟩, hfirst,
    fun α => slotStart_eq_ok.mpr ⟨hgrid g.len (Nat.le_refl _), hlast.symm⟩, hincreasing,
    fun t ht ht' => ?_, fun j hj => ?_⟩
  · rw [← hfirst] at ht
    rw [← hlast] at ht'
    obtain ⟨j, hj, hslot⟩ := exists_slot ht ht'
    refine ⟨j, ⟨hj, hslot⟩, ?_⟩
    rintro i ⟨hi, hslot'⟩
    -- Of two slots, the earlier one has ended when the later one begins.
    rcases Nat.lt_trichotomy i j with hlt | heq | hlt
    · have hend := Instant.lt_of_lt_of_le hslot'.2 (hmono (i + 1) j hlt (Nat.le_of_lt hj))
      exact absurd hslot.1 (Instant.not_le.mpr hend)
    · exact heq
    · have hend := Instant.lt_of_lt_of_le hslot.2 (hmono (j + 1) i hlt (Nat.le_of_lt hi))
      exact absurd hslot'.1 (Instant.not_le.mpr hend)
  · rw [← hfirst, ← hlast]
    exact ⟨hmono 0 j (Nat.zero_le j) (Nat.le_of_lt hj), hmono (j + 1) g.len hj (Nat.le_refl _)⟩

/-! ## Boundaries -/

/-- From the first slot on, a boundary is so many slots after the start, if the calendar has it. -/
theorem offsetStart?_eq_some (hres : 1000000000 ≤ resolution.nanos) {j : ℕ} (hj : 0 < j)
    (hword : j < 2147483648) {u : Instant} :
    offsetStart? start resolution j = some u ↔
      Instant.inRange u.seconds = true ∧ u.nanos < 1000000000 ∧
        u.seconds * 1000000000 + u.nanos = start.count + j * resolution.nanos := by
  have hlong : 1000000000 ≤ (resolution.times j).nanos := by
    have hone : (1 : Int) ≤ j := by omega
    rw [Span.nanos_times]
    nlinarith
  rw [offsetStart?, wordIndex_of_lt hword, Instant.add?_eq_some hlong, Span.nanos_times]

/-- No boundary but the first can lie in a leap second. -/
theorem boundary_of_has (hres : 1000000000 ≤ g.resolution.nanos) {j : ℕ} (hj : 0 < j)
    (hword : j < 2147483648) (h : g.Has j) :
    Instant.inRange (g.boundary j).seconds = true ∧ (g.boundary j).nanos < 1000000000 ∧
      (g.boundary j).seconds * 1000000000 + (g.boundary j).nanos =
        g.start.count + j * g.resolution.nanos := by
  obtain ⟨u, hu⟩ := Option.isSome_iff_exists.mp h
  rw [boundary, hu, Option.getD_some]
  exact (offsetStart?_eq_some hres hj hword).mp hu

theorem leads_of_tiles (hfrom : g.start = start) (hlen : g.len < 2147483648)
    (h : g.Tiles start stop) : start.add? (g.resolution.times g.len) = some stop := by
  obtain ⟨hhas, hstop⟩ := slotStart_eq_ok.mp (h.last Unit)
  obtain ⟨u, hu⟩ := Option.isSome_iff_exists.mp hhas
  rw [boundary, hu, Option.getD_some] at hstop
  rw [offsetStart?, hfrom, wordIndex_of_lt hlen] at hu
  rw [hu, hstop]

section
variable (hstart : start.Valid) (hfrom : g.start = start) (hres : 1000000000 ≤ g.resolution.nanos)
include hstart hfrom

theorem boundary_zero : g.Has 0 ∧ g.boundary 0 = start := by
  have hzero : offsetStart? g.start g.resolution 0 = some start := by
    rw [offsetStart?, hfrom]
    exact Instant.add?_zero hstart (Int.zero_mul _)
  rw [Has, boundary, hzero]
  exact ⟨rfl, rfl⟩

include hres

/-- Where so many slots lead from the start to the end, the calendar has every boundary between. -/
theorem boundary_between (hlen : g.len < 2147483648)
    (hleads : start.add? (g.resolution.times g.len) = some stop) {j : ℕ} (hj : 0 < j)
    (hjlen : j ≤ g.len) : g.Has j := by
  have hlast : offsetStart? start g.resolution g.len = some stop := by
    rw [offsetStart?, wordIndex_of_lt hlen, hleads]
  obtain ⟨hrange, hnanos, hcount⟩ := (offsetStart?_eq_some hres (by omega) hlen).mp hlast
  have hshift : (0 : Int) ≤ j * g.resolution.nanos := Int.mul_nonneg (by omega) (by omega)
  have hwithin : (j : Int) * g.resolution.nanos ≤ g.len * g.resolution.nanos :=
    Int.mul_le_mul_of_nonneg_right (by omega) (by omega)
  have hbase : start.seconds * 1000000000 ≤ start.count := by
    rw [Instant.count]
    split_ifs <;> omega
  have hsome : offsetStart? g.start g.resolution j =
      some ⟨(start.count + j * g.resolution.nanos) / 1000000000,
        ((start.count + j * g.resolution.nanos) % 1000000000).toNat⟩ := by
    have hfirst := hstart.inRange
    simp only [Instant.inRange, Bool.and_eq_true, decide_eq_true_eq] at hfirst hrange
    rw [hfrom, offsetStart?_eq_some hres hj (by omega)]
    simp only [Instant.inRange, Bool.and_eq_true, decide_eq_true_eq]
    omega
  rw [Has, hsome]
  rfl

/-- A slot is long enough to leave a leap second that the start may lie in. -/
theorem boundary_lt {i j : ℕ} (hij : i < j) (hword : j < 2147483648) (hi : g.Has i) (hj : g.Has j) :
    g.boundary i < g.boundary j := by
  obtain ⟨-, hnanos, hcount⟩ := boundary_of_has hres (by omega) hword hj
  have hfurther : (i : Int) * g.resolution.nanos + g.resolution.nanos ≤ j * g.resolution.nanos := by
    have hstep : (i : Int) + 1 ≤ j := by omega
    have := Int.mul_le_mul_of_nonneg_right hstep (show (0 : Int) ≤ g.resolution.nanos by omega)
    rwa [Int.add_mul, Int.one_mul] at this
  rcases Nat.eq_zero_or_pos i with rfl | hipos
  · have hnanos' := hstart.nanos_lt
    rw [hfrom, Instant.count] at hcount
    rw [(boundary_zero hstart hfrom).2, Instant.lt_iff]
    simp only [Nat.cast_zero, Int.zero_mul, Int.zero_add] at hfurther
    split_ifs at hcount <;> omega
  · obtain ⟨-, hnanos', hcount'⟩ := boundary_of_has hres hipos (by omega) hi
    rw [Instant.lt_iff]
    omega

theorem tiles_of_leads (hlt : start < stop) (hlen : g.len < 2147483648)
    (hleads : start.add? (g.resolution.times g.len) = some stop) : g.Tiles start stop := by
  obtain ⟨hhas, hfirst⟩ := boundary_zero hstart hfrom
  have hpos : 0 < g.len := by
    by_contra hzero
    have hnone : (g.resolution.times g.len).nanos = 0 := by
      rw [Span.nanos_times, Nat.eq_zero_of_not_pos hzero]
      exact Int.zero_mul _
    rw [Instant.add?_zero hstart hnone, Option.some.injEq] at hleads
    exact Instant.lt_irrefl start (hleads ▸ hlt)
  have hgrid : g.Representable := by
    intro j hj
    rcases Nat.eq_zero_or_pos j with rfl | hj'
    · exact hhas
    · exact boundary_between hstart hfrom hres hlen hleads hj' hj
  refine tiles_of_increasing hgrid hfirst ?_ fun i j hij hj =>
    boundary_lt hstart hfrom hres hij (by omega) (hgrid i (by omega)) (hgrid j hj)
  rw [boundary, offsetStart?, hfrom, wordIndex_of_lt hlen, hleads, Option.getD_some]

/-- The word of slot 2 ^ 31 leads backwards, so no grid with that many slots increases. -/
theorem len_lt_of_tiles (h : g.Tiles start stop) : g.len < 2147483648 := by
  by_contra hlong
  have hword : wordIndex 2147483648 = -2147483648 := by decide
  obtain ⟨hhas, -⟩ := slotStart_eq_ok.mp (h.starts Unit 2147483648 (by omega))
  obtain ⟨u, hu⟩ := Option.isSome_iff_exists.mp hhas
  have hback : (g.resolution.times (-2147483648)).nanos ≤ -2000000000 := by
    rw [Span.nanos_times]
    omega
  have hboundary : g.boundary 2147483648 = u := by rw [boundary, hu, Option.getD_some]
  rw [offsetStart?, hword, hfrom] at hu
  have hbefore := Instant.seconds_lt_of_add? hstart hback hu
  have hafter := h.increasing 0 2147483648 (by omega) (by omega)
  rw [h.first, hboundary, Instant.lt_iff] at hafter
  omega

end

/-! ## Horizons of whole seconds -/

/-- Neither end lies in a leap second, and the resolution and the span are whole seconds. -/
structure InWholeSeconds (start stop : Instant) (resolution : Span) : Prop where
  start_nanos : start.nanos < 1000000000
  stop_nanos : stop.nanos < 1000000000
  resolution_seconds : ∃ s, resolution = Span.ofSeconds s
  span_seconds : ∃ s, stop.since start = Span.ofSeconds s

theorem wholeSeconds_ofSeconds (s : Int) : (Span.ofSeconds s).wholeSeconds = s :=
  Int.mul_tdiv_cancel s (by decide)

/-- A grid over a horizon of whole seconds counts the slots that lead from its start to its end. -/
theorem span_of_make (hwhole : InWholeSeconds start stop resolution)
    (hmake : (make start stop resolution zone : Checked α Grid) = .ok g) :
    stop.since start = resolution.times g.len := by
  obtain ⟨hsecond, horder, hdvd, rfl⟩ := make_eq_ok.mp hmake
  obtain ⟨step, rfl⟩ := hwhole.resolution_seconds
  obtain ⟨span, hspan⟩ := hwhole.span_seconds
  have hnanos := since_nanos hwhole.start_nanos hwhole.stop_nanos
  rw [Instant.lt_iff] at horder
  simp only [hspan, wholeSeconds_ofSeconds] at hdvd ⊢
  simp only [hspan, Span.ofSeconds] at hnanos hsecond
  have hstart := hwhole.start_nanos
  have hquot : (0 : Int) ≤ span / step := Int.ediv_nonneg (by omega) (by omega)
  have hexact : span / step * step = span := Int.ediv_mul_cancel (Int.dvd_of_emod_eq_zero hdvd)
  rw [Span.ofSeconds, Span.times, Int.toNat_of_nonneg hquot, Span.ofSeconds, ← Int.mul_assoc, hexact]

theorem leads_of_span (hwhole : InWholeSeconds start stop resolution) (hstop : stop.Valid)
    (hmake : (make start stop resolution zone : Checked α Grid) = .ok g)
    (hspan : stop.since start = resolution.times g.len) :
    start.add? (resolution.times g.len) = some stop := by
  obtain ⟨-, horder, -, -⟩ := make_eq_ok.mp hmake
  obtain ⟨span, hseconds⟩ := hwhole.span_seconds
  have hnanos := since_nanos hwhole.start_nanos hwhole.stop_nanos
  rw [Instant.lt_iff] at horder
  have hstart := hwhole.start_nanos
  have hlong : 1000000000 ≤ (stop.since start).nanos := by
    rw [hseconds, Span.ofSeconds] at hnanos ⊢
    simp only at hnanos ⊢
    omega
  rw [← hspan, Instant.add?_eq_some hlong, hnanos, Instant.count, if_pos hstart]
  exact ⟨hstop.inRange, hwhole.stop_nanos, by omega⟩

/-- The slots of a grid tile its horizon just when fewer than 2 ^ 31 are counted and as many lead from
the start to the end. Over whole seconds the second is so, and there is no grid at all unless the
horizon is a whole number of slots. -/
theorem make_tiles (hstart : start.Valid) (hstop : stop.Valid) :
    (∀ g, (make start stop resolution zone : Checked α Grid) = .ok g →
      (g.Tiles start stop ↔
        g.len < 2147483648 ∧ start.add? (resolution.times g.len) = some stop)) ∧
    (InWholeSeconds start stop resolution →
      (∀ g, (make start stop resolution zone : Checked α Grid) = .ok g → g.len < 2147483648 →
        g.Tiles start stop) ∧
      ((∀ n : Int, stop.since start ≠ resolution.times n) →
        ∃ fault, (make start stop resolution zone : Checked α Grid) = .error fault)) := by
  have htiles : ∀ g, (make start stop resolution zone : Checked α Grid) = .ok g →
      (g.Tiles start stop ↔
        g.len < 2147483648 ∧ start.add? (resolution.times g.len) = some stop) := by
    intro g hmake
    obtain ⟨hsecond, horder, -, rfl⟩ := make_eq_ok.mp hmake
    refine ⟨fun h => ?_, fun ⟨hlen, hleads⟩ => tiles_of_leads hstart rfl hsecond horder hlen hleads⟩
    have hlen := len_lt_of_tiles hstart rfl hsecond h
    exact ⟨hlen, leads_of_tiles rfl hlen h⟩
  refine ⟨htiles, fun hwhole => ⟨fun g hmake hlen => ?_, fun hragged => ?_⟩⟩
  · exact (htiles g hmake).mpr
      ⟨hlen, leads_of_span hwhole hstop hmake (span_of_make hwhole hmake)⟩
  · cases hmake : (make start stop resolution zone : Checked α Grid) with
    | error fault => exact ⟨fault, rfl⟩
    | ok g => exact absurd (span_of_make hwhole hmake) (hragged g.len)

/-- Four quarters tile an hour, and fifty minutes are no number of quarters. -/
theorem quarters_tile :
    Instant.Valid ⟨0, 0⟩ ∧ InWholeSeconds ⟨0, 0⟩ ⟨3600, 0⟩ (Span.ofSeconds 900) ∧
      (make ⟨0, 0⟩ ⟨3600, 0⟩ (Span.ofSeconds 900) .utc : Checked Float Grid) =
        .ok ⟨⟨0, 0⟩, Span.ofSeconds 900, 4, .utc⟩ ∧
      Tiles ⟨⟨0, 0⟩, Span.ofSeconds 900, 4, .utc⟩ ⟨0, 0⟩ ⟨3600, 0⟩ ∧
      ∃ fault, (make ⟨0, 0⟩ ⟨3000, 0⟩ (Span.ofSeconds 900) .utc : Checked Float Grid) =
        .error fault := by
  have hstart : Instant.Valid ⟨0, 0⟩ := ⟨by decide, by decide⟩
  have hhour : InWholeSeconds ⟨0, 0⟩ ⟨3600, 0⟩ (Span.ofSeconds 900) :=
    ⟨by decide, by decide, ⟨900, rfl⟩, ⟨3600, rfl⟩⟩
  have hfifty : InWholeSeconds ⟨0, 0⟩ ⟨3000, 0⟩ (Span.ofSeconds 900) :=
    ⟨by decide, by decide, ⟨900, rfl⟩, ⟨3000, rfl⟩⟩
  have hmake : (make ⟨0, 0⟩ ⟨3600, 0⟩ (Span.ofSeconds 900) .utc : Checked Float Grid) =
      .ok ⟨⟨0, 0⟩, Span.ofSeconds 900, 4, .utc⟩ := rfl
  refine ⟨hstart, hhour, hmake, ?_, ?_⟩
  · exact ((make_tiles hstart ⟨by decide, by decide⟩).2 hhour).1 _ hmake (by decide)
  · refine ((make_tiles hstart ⟨by decide, by decide⟩).2 hfifty).2 fun n h => ?_
    have hnanos := congrArg Span.nanos h
    rw [Span.nanos_times, show (Instant.since ⟨3000, 0⟩ ⟨0, 0⟩).nanos = 3000000000000 from rfl,
      show (Span.ofSeconds 900).nanos = 900000000000 from rfl] at hnanos
    omega

/-- Slots of a second and a half overrun a horizon of three seconds. A horizon of two and a half
seconds is taken for two slots of a second. The last of 2 ^ 31 slots ends before the first begins. -/
theorem fractions_overrun :
    (∃ g, (make ⟨0, 0⟩ ⟨3, 0⟩ (Span.ofMillis 1500) .utc : Checked Float Grid) = .ok g ∧
      (g.stop : Checked Float Instant) = .ok ⟨4, 500000000⟩ ∧ ¬g.Tiles ⟨0, 0⟩ ⟨3, 0⟩) ∧
    ((∃ g, (make ⟨0, 0⟩ ⟨2, 500000000⟩ (Span.ofSeconds 1) .utc : Checked Float Grid) = .ok g) ∧
      ∀ n : Int, Instant.since ⟨2, 500000000⟩ ⟨0, 0⟩ ≠ (Span.ofSeconds 1).times n) ∧
    ∃ g, (make ⟨0, 0⟩ ⟨2147483648, 0⟩ (Span.ofSeconds 1) .utc : Checked Float Grid) = .ok g ∧
      (g.stop : Checked Float Instant) = .ok ⟨-2147483648, 0⟩ ∧
        ¬g.Tiles ⟨0, 0⟩ ⟨2147483648, 0⟩ := by
  refine ⟨⟨_, rfl, rfl, fun h => ?_⟩, ⟨⟨_, rfl⟩, fun n h => ?_⟩, ⟨_, rfl, rfl, fun h => ?_⟩⟩
  · have hlast := Except.ok.inj ((h.last Float).symm.trans rfl)
    exact absurd hlast (by decide)
  · have hnanos := congrArg Span.nanos h
    rw [Span.nanos_times, show (Instant.since ⟨2, 500000000⟩ ⟨0, 0⟩).nanos = 2500000000 from rfl,
      show (Span.ofSeconds 1).nanos = 1000000000 from rfl] at hnanos
    omega
  · have hlast := Except.ok.inj ((h.last Float).symm.trans rfl)
    exact absurd hlast (by decide)

end Grid

end Dispatch
