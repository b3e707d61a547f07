import Dispatch.Proofs.Quantity.Scaled
import Dispatch.Proofs.Request.Restated
import Dispatch.Proofs.Series.Segments

/-! # Samples as intervals

* `AlignedSeries.SpelledOut`: the same values as samples at a fixed pace and as a list of segments.
* `AlignedSeries.turn_iff`: the number of the sample in force is that of the interval around an instant.
* `AlignedSeries.SpelledOut.flowValues_eq`: what samples resolve to, by the segments.
* `Series.shiftedGrid_times`: the grid by which samples are read as levels.
* `AlignedSeries.spelled_out`: samples and segments give every slot the same value.
-/

namespace Dispatch
set_option autoImplicit false

open Exact

/-! ## Spelled out -/

/-- When the turn of a sample begins. -/
def AlignedSeries.turn? (start : Instant) (pace : ℤ) (k : ℕ) : Option Instant :=
  start.add? (Span.ofSeconds (k * pace))

/-- A segment that holds the sample of this number, from its turn on until the next one's. -/
structure Segment.Holds (s : Segment Exact) (g : Grid) (start : Instant) (pace : ℤ)
    (unit : Option String) (v : Exact) (k : ℕ) : Prop where
  bounds : ∃ from_ until_, AlignedSeries.turn? start pace k = some from_ ∧
    AlignedSeries.turn? start pace (k + 1) = some until_ ∧ s.bounds g.zone = .ok (from_, until_)
  value : Amount.InUnit unit v s.value

/-- A segment for every sample, at a pace of whole seconds. -/
structure AlignedSeries.SpelledOut (a : AlignedSeries Exact) (g : Grid) (start : Instant) (pace : ℤ)
    (items : List (Segment Exact)) : Prop where
  begins : (readInstant (a.zone.getD g.zone) a.start : Checked Exact Instant) = .ok start
  resolution : (Duration.ofText a.resolution : Checked Exact Span) = .ok (Span.ofSeconds pace)
  pace_pos : 0 < pace
  length : items.length = a.values.length
  holds : ∀ (k : ℕ) (v : Exact) (s : Segment Exact), a.values[k]? = some v → items[k]? = some s →
    s.Holds g start pace a.unit v k

/-! ## The sample in force -/

namespace AlignedSeries

section
variable {start t from_ until_ : Instant} {pace : ℤ} {k : ℕ} (hstart : start.nanos < 1000000000)
  (hpace : 0 < pace)
include hstart hpace

theorem turn_count (h : turn? start pace k = some t) :
    t.nanos < 1000000000 ∧ t.count = start.count + k * pace * 1000000000 := by
  have hforward : 0 ≤ (k : ℤ) * pace := Int.mul_nonneg (Int.natCast_nonneg k) hpace.le
  exact Instant.count_of_add? hstart (Int.mul_nonneg hforward (by decide)) h

variable (hfrom : turn? start pace k = some from_) (huntil : turn? start pace (k + 1) = some until_)
include hfrom huntil

theorem turn_lt : from_ < until_ := by
  obtain ⟨hnanos, hcount⟩ := turn_count hstart hpace hfrom
  obtain ⟨hnanos', hcount'⟩ := turn_count hstart hpace huntil
  rw [Instant.lt_iff_count hnanos hnanos', hcount, hcount', Nat.cast_succ, Int.add_mul, Int.one_mul]
  omega

/-- The number of the sample in force is that of the turn which the instant lies in. -/
theorem turn_iff (ht : t.nanos < 1000000000) :
    (from_ ≤ t ∧ t < until_) ↔ ¬t < start ∧ ((t.since start).wholeSeconds / pace).toNat = k := by
  obtain ⟨hnanos, hcount⟩ := turn_count hstart hpace hfrom
  obtain ⟨hnanos', hcount'⟩ := turn_count hstart hpace huntil
  have hforward : 0 ≤ (k : ℤ) * pace := Int.mul_nonneg (Int.natCast_nonneg k) hpace.le
  rw [Nat.cast_succ] at hcount'
  rw [Instant.le_iff_count hnanos ht, Instant.lt_iff_count ht hnanos', Instant.lt_iff_count ht hstart]
  by_cases hbefore : t.count < start.count
  · simp only [hbefore, not_true, false_and, iff_false]
    omega
  · have hseconds : (t.since start).wholeSeconds = (t.count - start.count) / 1000000000 := by
      rw [Span.wholeSeconds, Instant.since_eq hstart ht, Int.tdiv_eq_ediv_of_nonneg (by omega)]
    rw [hseconds]
    -- Turns begin at whole seconds after the start, so no turn ends within the second that is cut off.
    generalize hpassed : (t.count - start.count) / 1000000000 = passed
    have hturn : (passed / pace).toNat = k ↔ k * pace ≤ passed ∧ passed < (k + 1) * pace := by
      rw [← Int.le_ediv_iff_mul_le hpace, ← Int.ediv_lt_iff_lt_mul hpace]
      have hnonneg : 0 ≤ passed / pace := Int.ediv_nonneg (by omega) hpace.le
      omega
    rw [hturn]
    omega

end

/-! ## Values -/

variable {a : AlignedSeries Exact} {g : Grid} {start : Instant} {pace : ℤ}
  {items : List (Segment Exact)} {entries : List (Entry Exact)} {field : String} {expected : Dimension}
  {reference : Option Exact} {values : List Exact} {dimension : Dimension} {currency : Option String}

/-- A sample is scaled by one of the unit to what the amount in that unit is read as. -/
theorem canonical_of_inUnit (hscaled : a.scaled = .ok (values, dimension, currency)) {k : ℕ}
    {v w : Exact} {amount : Amount Exact} (hv : a.values[k]? = some v)
    (hunit : Amount.InUnit a.unit v amount)
    (hw : amount.resolve field expected reference = .ok w) :
    ∃ raw, values[k]? = some raw ∧
      (⟨raw, dimension, none⟩ : Quantity Exact).canonical expected reference = .ok w := by
  obtain ⟨q, hq, hcanonical⟩ := Checked.bind_eq_ok.mp (Checked.mapError_eq_ok.mp hw)
  rw [scaled] at hscaled
  generalize a.unit = unit at hunit hscaled
  cases hunit with
  | bare =>
    obtain rfl : Quantity.number v = q := Except.ok.inj hq
    obtain ⟨rfl, rfl, rfl⟩ := hscaled
    exact ⟨v, hv, hcanonical⟩
  | @spaced numeral d hread unit =>
    obtain ⟨one, hone, hscaled⟩ := Checked.bind_eq_ok.mp hscaled
    obtain ⟨rfl, rfl, rfl⟩ := hscaled
    obtain ⟨text, htext⟩ := Quantity.ofText_spaced hread unit
    have hnumber : num (Exact.ofDecimal d).toReal = Exact.ofDecimal d := num_toReal rfl
    have hquantity := Checked.mapError_eq_ok.mp (htext.symm.trans hq)
    rw [Quantity.ofUnit_scaled (Text.bare_trim unit.toList) (Quantity.ofUnit_of_one hone),
      hnumber] at hquantity
    obtain rfl := Except.ok.inj hquantity
    refine ⟨Exact.ofDecimal d * one.value, by rw [List.getElem?_map, hv]; rfl, ?_⟩
    exact (Quantity.canonical_same _ _ _ _ _ _ w).mp hcanonical

theorem scaled_length (h : a.scaled = .ok (values, dimension, currency)) :
    values.length = a.values.length := by
  unfold scaled at h
  split at h
  case h_1 =>
    obtain ⟨rfl, -⟩ := Prod.mk.inj (Except.ok.inj h)
    rfl
  case h_2 unit _ =>
    obtain ⟨one, -, hvalues⟩ := Checked.bind_eq_ok.mp h
    obtain ⟨rfl, -⟩ := Prod.mk.inj (Checked.pure_eq_ok.mp hvalues)
    rw [List.length_map]

namespace SpelledOut

/-- The entry of a number is that of its turn, and its value that of its sample. -/
theorem entry (h : a.SpelledOut g start pace items)
    (hscaled : a.scaled = .ok (values, dimension, currency))
    (hread : List.Forall₂ (fun s e => s.Reads g field expected reference e) items entries) {k : ℕ}
    {e : Entry Exact} (hk : entries[k]? = some e) :
    (turn? start pace k = some e.bounds.1 ∧ turn? start pace (k + 1) = some e.bounds.2) ∧
    ∃ raw, values[k]? = some raw ∧
      (⟨raw, dimension, none⟩ : Quantity Exact).canonical expected reference = .ok e.value := by
  obtain ⟨hlen, hreads⟩ := List.forall₂_iff_get.mp hread
  obtain ⟨hke, rfl⟩ := List.getElem?_eq_some_iff.mp hk
  have hks : k < items.length := hlen ▸ hke
  have hkv : k < a.values.length := h.length ▸ hks
  have hs := hreads k hks hke
  obtain ⟨⟨from_, until_, hfrom, huntil, hbounds⟩, hvalue⟩ := h.holds k a.values[k] items[k]
    (List.getElem?_eq_getElem hkv) (List.getElem?_eq_getElem hks)
  have hends : (from_, until_) = entries[k].bounds := Except.ok.inj (hbounds.symm.trans hs.bounds)
  rw [← hends]
  exact ⟨⟨hfrom, huntil⟩, canonical_of_inUnit hscaled (List.getElem?_eq_getElem hkv) hvalue hs.value⟩

/-- The last entry that covers an instant is the one whose turn it is. -/
theorem last_eq (h : a.SpelledOut g start pace items)
    (hscaled : a.scaled = .ok (values, dimension, currency))
    (hread : List.Forall₂ (fun s e => s.Reads g field expected reference e) items entries)
    (hstart : start.nanos < 1000000000) {t : Instant} (ht : t.nanos < 1000000000) :
    Entry.last (Entry.Covers t) entries =
      if t < start then none else entries[((t.since start).wholeSeconds / pace).toNat]?.map Entry.value := by
  have hcovers : ∀ k e, entries[k]? = some e →
      (e.Covers t ↔ ¬t < start ∧ ((t.since start).wholeSeconds / pace).toNat = k) := by
    intro k e hk
    obtain ⟨⟨hfrom, huntil⟩, -⟩ := h.entry hscaled hread hk
    have hlt := turn_lt hstart h.pace_pos hfrom huntil
    rw [← turn_iff hstart h.pace_pos hfrom huntil ht, Entry.Covers, or_iff_left]
    exact fun hpoint => Instant.lt_irrefl _ (hpoint.1 ▸ hlt)
  by_cases hbefore : t < start
  · rw [if_pos hbefore, Entry.last_eq_none_iff]
    intro e he
    obtain ⟨k, hk⟩ := List.mem_iff_getElem?.mp he
    exact fun hcovered => ((hcovers k e hk).mp hcovered).1 hbefore
  · rw [if_neg hbefore]
    refine Entry.last_eq_getElem? fun k e hk => ?_
    rw [hcovers k e hk, and_iff_right hbefore, eq_comm]

/-- What samples resolve to at the instants of a grid: the last entry that covers each. -/
theorem flowValues_eq (h : a.SpelledOut g start pace items)
    (hscaled : a.scaled = .ok (values, dimension, currency))
    (hread : List.Forall₂ (fun s e => s.Reads g field expected reference e) items entries)
    (hstart : start.nanos < 1000000000) {g' : Grid} (hzone : g'.zone = g.zone) {times : ℕ → Instant}
    (htimes : ∀ j < g'.len, (g'.slotStart j : Checked Exact Instant) = .ok (times j))
    (hnanos : ∀ j < g'.len, (times j).nanos < 1000000000) :
    a.flowValues g' field expected reference =
      .ok (g'.slots.map fun j => Entry.last (Entry.Covers (times j)) entries) := by
  have hpace : (Span.ofSeconds pace).wholeSeconds = pace := Grid.wholeSeconds_ofSeconds pace
  have hlen : entries.length = values.length := by
    rw [scaled_length hscaled, ← h.length, hread.length_eq]
  rw [flowValues, hzone, h.begins, h.resolution, hscaled]
  refine Checked.bind_eq_ok.mpr ⟨start, rfl, Checked.bind_eq_ok.mpr ⟨_, rfl, ?_⟩⟩
  rw [hpace, if_neg (Int.not_le.mpr h.pace_pos)]
  refine Checked.bind_eq_ok.mpr ⟨_, rfl, Checked.mapM_eq_map fun j hj => ?_⟩
  have hj' : j < g'.len := List.mem_range.mp hj
  rw [htimes j hj', h.last_eq hscaled hread hstart (hnanos j hj')]
  refine Checked.bind_eq_ok.mpr ⟨times j, rfl, ?_⟩
  simp only [sampleAt]
  by_cases hbefore : times j < start
  · simp only [if_pos hbefore]
    rfl
  · simp only [if_neg hbefore]
    cases hk : entries[(((times j).since start).wholeSeconds / pace).toNat]? with
    | none =>
      rw [List.getElem?_eq_none (hlen ▸ List.getElem?_eq_none_iff.mp hk)]
      rfl
    | some e =>
      obtain ⟨-, raw, hraw, hvalue⟩ := h.entry hscaled hread hk
      rw [hraw]
      exact Checked.bind_eq_ok.mpr ⟨e.value, Checked.mapError_eq_ok.mpr hvalue, rfl⟩

end SpelledOut

end AlignedSeries

/-! ## Levels -/

/-- The grid by which samples are read as levels starts each slot where a slot of the other ends. -/
theorem Series.shiftedGrid_times {g g' : Grid} (hg : g.Regular) (hstart : g.start.nanos < 1000000000)
    (hwhole : ∃ s, g.resolution = Span.ofSeconds s)
    (h : (shiftedGrid g : Checked Exact Grid) = .ok g') :
    g'.len = g.len ∧ g'.zone = g.zone ∧
      ∀ j < g.len, (g'.slotStart j : Checked Exact Instant) = .ok (g.boundary (j + 1)) := by
  obtain ⟨step, hstep⟩ := hwhole
  have hsecond := hg.second_le
  have hforward : (0 : ℤ) ≤ g.len * g.resolution.nanos := Int.mul_nonneg (by omega) (by omega)
  obtain ⟨first, hfirst, h⟩ := Checked.bind_eq_ok.mp h
  obtain ⟨stop, hstop, h⟩ := Checked.bind_eq_ok.mp h
  obtain ⟨last, hlast, hmake⟩ := Checked.bind_eq_ok.mp h
  obtain ⟨-, rfl⟩ := Grid.slotStart_eq_ok.mp hstop
  obtain ⟨hend, hend'⟩ := hg.boundary_count hstart (Nat.le_refl _)
  obtain ⟨hfirst, hfirst'⟩ := Instant.count_of_add? hstart (by omega) (orBeyond_eq_ok.mp hfirst)
  obtain ⟨hlast, hlast'⟩ := Instant.count_of_add? hend (by omega) (orBeyond_eq_ok.mp hlast)
  obtain ⟨-, -, -, rfl⟩ := Grid.make_eq_ok.mp hmake
  refine ⟨?_, rfl, fun j hj => ?_⟩
  · have hnanos : (last.since first).nanos = g.len * step * 1000000000 := by
      rw [Instant.since_eq hfirst hlast, hlast', hfirst', hend', hstep, Int.mul_assoc]
      simp only [Span.ofSeconds]
      omega
    have hspan : (last.since first).wholeSeconds = g.len * step := by
      rw [Span.wholeSeconds, hnanos]
      exact Int.mul_tdiv_cancel _ (by decide)
    have hstep' : step ≠ 0 := by
      rintro rfl
      rw [hstep] at hsecond
      exact absurd hsecond (by decide)
    simp only [hspan, hstep, Grid.wholeSeconds_ofSeconds, Int.mul_ediv_cancel _ hstep', Int.toNat_natCast]
  · obtain ⟨hrange, hnanos, hcount⟩ := Grid.boundary_of_has hsecond (Nat.succ_pos j)
      (Nat.lt_of_le_of_lt hj hg.len_lt) (hg.representable (j + 1) hj)
    have hforward' : 0 ≤ (g.resolution.times j).nanos := Int.mul_nonneg (by omega) (by omega)
    rw [Grid.slotStart, orBeyond_eq_ok, Grid.offsetStart?, wordIndex_of_lt (Nat.lt_trans hj hg.len_lt)]
    refine (Instant.add?_eq_some_of_nonneg hfirst hforward').mpr ⟨hrange, hnanos, ?_⟩
    rw [hcount, hfirst', Span.nanos_times, Nat.cast_succ, Int.add_mul, Int.one_mul]
    omega

/-! ## Samples and segments -/

namespace AlignedSeries
variable {a : AlignedSeries Exact} {g : Grid} {start : Instant} {pace : ℤ}
  {items : List (Segment Exact)}

namespace SpelledOut
variable {field : String} {expected : Dimension} {reference : Option Exact} {entries : List (Entry Exact)}
  {scaled : List Exact × Dimension × Option String}

theorem flowValues_same (h : a.SpelledOut g start pace items) (hstart : start.nanos < 1000000000)
    (hgrid : g.Regular) (hfirst : g.start.nanos < 1000000000) (hscaled : a.scaled = .ok scaled)
    (hread : List.Forall₂ (fun s e => s.Reads g field expected reference e) items entries) :
    (Series.aligned a).flowValues g field expected reference =
      (Series.segments items).flowValues g field expected reference := by
  obtain ⟨values, dimension, currency⟩ := scaled
  rw [Series.flowValues_last hread, if_pos (.inr hgrid.representable.hasStarts)]
  exact h.flowValues_eq hscaled hread hstart rfl (fun j hj => hgrid.slotStart_eq (Nat.le_of_lt hj))
    fun j hj => (hgrid.boundary_count hfirst (Nat.le_of_lt hj)).1

/-- Levels are read one slot later, by the rule for flows. -/
theorem stateValues_eq (h : a.SpelledOut g start pace items) (hstart : start.nanos < 1000000000)
    (hgrid : g.Regular) (hfirst : g.start.nanos < 1000000000)
    (hwhole : ∃ s, g.resolution = Span.ofSeconds s) (hscaled : a.scaled = .ok scaled)
    (hread : List.Forall₂ (fun s e => s.Reads g field expected reference e) items entries) {g' : Grid}
    (hshift : (Series.shiftedGrid g : Checked Exact Grid) = .ok g') :
    (Series.aligned a).stateValues g field expected reference =
      .ok (g.slots.map fun j => Entry.last (Entry.Covers (g.boundary (j + 1))) entries) := by
  obtain ⟨values, dimension, currency⟩ := scaled
  obtain ⟨hlen, hzone, htimes⟩ := Series.shiftedGrid_times hgrid hfirst hwhole hshift
  have hslots : g'.slots = g.slots := congrArg List.range hlen
  refine Checked.bind_eq_ok.mpr ⟨g', hshift, ?_⟩
  rw [← hslots]
  exact h.flowValues_eq hscaled hread hstart hzone (fun j hj => htimes j (hlen ▸ hj))
    fun j hj => (hgrid.boundary_succ (hlen ▸ hj)).1

end SpelledOut

/-- Samples mean what the segments mean that spell them out, as long as neither the samples nor the grid
start within a leap second.

Wherever both can be read they give every slot the same value, and the samples can be read if the
segments and the unit can. A level takes the value of the segment that the end of its slot lies in, the
end of the segment left out. -/
theorem spelled_out (hgrid : g.Regular) (hwhole : ∃ s, g.resolution = Span.ofSeconds s)
    (hfirst : g.start.nanos < 1000000000) (h : a.SpelledOut g start pace items)
    (hstart : start.nanos < 1000000000) (field : String) (expected : Dimension)
    (reference : Option Exact) :
    (∀ xs ys, (Series.aligned a).flowValues g field expected reference = .ok xs →
      (Series.segments items).flowValues g field expected reference = .ok ys → xs = ys) ∧
    ∀ entries, List.Forall₂ (fun s e => s.Reads g field expected reference e) items entries →
      (∀ zs, (Series.aligned a).stateValues g field expected reference = .ok zs →
        zs = g.slots.map fun j => Entry.last (Entry.Covers (g.boundary (j + 1))) entries) ∧
      ((∃ scaled, a.scaled = .ok scaled) →
        (Series.aligned a).flowValues g field expected reference =
          (Series.segments items).flowValues g field expected reference ∧
        ((∃ g', (Series.shiftedGrid g : Checked Exact Grid) = .ok g') →
          ∃ zs, (Series.aligned a).stateValues g field expected reference = .ok zs)) := by
  refine ⟨fun xs ys hxs hys => ?_, fun entries hread => ⟨fun zs hzs => ?_, ?_⟩⟩
  · obtain ⟨-, -, values, dimension, currency, -, -, hscaled, -⟩ := flowValues_reads hxs
    obtain ⟨entries, hread, -⟩ := Series.overlay_eq_ok hys
    have hsame := h.flowValues_same hstart hgrid hfirst hscaled hread
    exact Except.ok.inj (hxs.symm.trans (hsame.trans hys))
  · obtain ⟨g', hshift, hvalues⟩ := Checked.bind_eq_ok.mp hzs
    obtain ⟨-, -, values, dimension, currency, -, -, hscaled, -⟩ := flowValues_reads hvalues
    have hlevels := h.stateValues_eq hstart hgrid hfirst hwhole hscaled hread hshift
    exact Except.ok.inj (hzs.symm.trans hlevels)
  · rintro ⟨scaled, hscaled⟩
    exact ⟨h.flowValues_same hstart hgrid hfirst hscaled hread,
      fun ⟨g', hshift⟩ => ⟨_, h.stateValues_eq hstart hgrid hfirst hwhole hscaled hread hshift⟩⟩

/-- One megawatt from half past midnight on, and two an hour later. -/
noncomputable def halfHourly : AlignedSeries Exact :=
  ⟨"1970-01-01T00:30:00Z", "PT1H", [Exact.ofDecimal ⟨false, 1, 0⟩, Exact.ofDecimal ⟨false, 2, 0⟩],
    some "MW", none⟩

noncomputable def halfHours : List (Segment Exact) :=
  [⟨none, some "1970-01-01T00:30:00Z", some "1970-01-01T01:30:00Z", none, .text "1 MW"⟩,
    ⟨none, some "1970-01-01T01:30:00Z", some "1970-01-01T02:30:00Z", none, .text "2 MW"⟩]

theorem megawatts_read (numeral : List Char) (d : Decimal) {text : String}
    (hread : Numeral.read? numeral = some (.finite d))
    (htext : String.ofList numeral ++ " " ++ "MW" = text) :
    Amount.InUnit (some "MW") (Exact.ofDecimal d) (.text text) ∧
      (Amount.text text : Amount Exact).quantity =
        .ok ⟨num ((Exact.ofDecimal d).toReal * 1000), .power, none⟩ := by
  subst htext
  refine ⟨.spaced hread "MW", ?_⟩
  obtain ⟨text, htext⟩ := Quantity.ofText_spaced hread "MW"
  have hname : Text.trim "MW".toList = (⟨.power, .mega⟩ : BaseUnit).name.toList := by decide +kernel
  rw [Amount.quantity, htext, hname, ofUnit_baseUnit]
  rfl

theorem halfHourly_spelledOut : halfHourly.SpelledOut Grid.twoHours ⟨1800, 0⟩ 3600 halfHours where
  begins := readInstant_of_ofText (by decide +kernel)
  resolution := ofText_oneHour
  pace_pos := by decide
  length := rfl
  holds k v s hv hs := by
    match k with
    | 0 =>
      obtain rfl := Option.some.inj hv
      obtain rfl := Option.some.inj hs
      exact ⟨⟨⟨1800, 0⟩, ⟨5400, 0⟩, rfl, rfl,
        Segment.bounds_between (by decide +kernel) (by decide +kernel) (by decide) _⟩, (megawatts_read ['1'] ⟨false, 1, 0⟩ (by decide +kernel) (by decide +kernel)).1⟩
    | 1 =>
      obtain rfl := Option.some.inj hv
      obtain rfl := Option.some.inj hs
      exact ⟨⟨⟨5400, 0⟩, ⟨9000, 0⟩, rfl, rfl,
        Segment.bounds_between (by decide +kernel) (by decide +kernel) (by decide) _⟩, (megawatts_read ['2'] ⟨false, 2, 0⟩ (by decide +kernel) (by decide +kernel)).1⟩
    | k + 2 => cases hv

noncomputable def halfHourEntries : List (Entry Exact) :=
  [⟨(⟨1800, 0⟩, ⟨5400, 0⟩), num (1000 : ℕ)⟩, ⟨(⟨5400, 0⟩, ⟨9000, 0⟩), num (2000 : ℕ)⟩]

theorem halfHours_read (field : String) :
    List.Forall₂ (fun s e => s.Reads Grid.twoHours field .power none e) halfHours halfHourEntries := by
  have hone : (Exact.ofDecimal ⟨false, 1, 0⟩).toReal * 1000 = 1000 := by simp [Exact.ofDecimal]
  have htwo : (Exact.ofDecimal ⟨false, 2, 0⟩).toReal * 1000 = 2000 := by
    simp [Exact.ofDecimal]
    norm_num
  refine .cons ⟨?_, ?_⟩ (.cons ⟨?_, ?_⟩ .nil)
  · exact Segment.bounds_between (by decide +kernel) (by decide +kernel) (by decide) _
  · rw [Amount.resolve, (megawatts_read ['1'] ⟨false, 1, 0⟩ (by decide +kernel) (by decide +kernel)).2, hone]
    rfl
  · exact Segment.bounds_between (by decide +kernel) (by decide +kernel) (by decide) _
  · rw [Amount.resolve, (megawatts_read ['2'] ⟨false, 2, 0⟩ (by decide +kernel) (by decide +kernel)).2, htwo]
    rfl

/-- The first hour starts before the first megawatt, and the second starts in the middle of its turn. -/
theorem halfHourly_flows :
    Grid.twoHours.Regular ∧ (∃ s, Grid.twoHours.resolution = Span.ofSeconds s) ∧
      Grid.twoHours.start.nanos < 1000000000 ∧
      halfHourly.SpelledOut Grid.twoHours ⟨1800, 0⟩ 3600 halfHours ∧
      (Series.aligned halfHourly).flowValues Grid.twoHours "power" .power none =
        .ok [none, some (num 1000)] := by
  have hscaled : ∃ scaled, halfHourly.scaled = .ok scaled := by
    have hone : (Amount.text "1 MW" : Amount Exact).quantity = _ :=
      (megawatts_read ['1'] ⟨false, 1, 0⟩ (by decide +kernel) (by decide +kernel)).2
    have htext : "1 " ++ "MW" = "1 MW" := by decide +kernel
    exact ⟨_, Checked.bind_eq_ok.mpr ⟨_, htext ▸ hone, rfl⟩⟩
  have hread := halfHours_read "power"
  obtain ⟨-, hentries⟩ := spelled_out Grid.twoHours_regular ⟨3600, rfl⟩ (by decide)
    halfHourly_spelledOut (by decide) "power" .power none
  refine ⟨Grid.twoHours_regular, ⟨3600, rfl⟩, by decide, halfHourly_spelledOut, ?_⟩
  rw [((hentries _ hread).2 hscaled).1,
    Series.flowValues_segments hread, if_pos (.inr Grid.twoHours_regular.representable.hasStarts)]
  rfl

/-- Samples whose first turn begins within a leap second. -/
noncomputable def leapHours : AlignedSeries Exact :=
  ⟨"2016-12-31T23:59:60Z", "PT1H", [num 1, num (2 : ℕ)], none, none⟩

noncomputable def leapTurns : List (Segment Exact) :=
  [⟨none, some "2016-12-31T23:59:60Z", some "2017-01-01T00:59:59Z", none, .number (num 1)⟩,
    ⟨none, some "2017-01-01T00:59:59Z", some "2017-01-01T01:59:59Z", none,
      .number (num (2 : ℕ))⟩]

/-- One hour that starts with the second turn. -/
def leapGrid : Grid := ⟨⟨1483232399, 0⟩, Span.ofSeconds 3600, 1, .utc⟩

theorem leapHours_spelledOut :
    leapHours.SpelledOut leapGrid ⟨1483228799, 1000000000⟩ 3600 leapTurns where
  begins := readInstant_of_ofText (by decide +kernel)
  resolution := ofText_oneHour
  pace_pos := by decide
  length := rfl
  holds k v s hv hs := by
    match k with
    | 0 =>
      obtain rfl := Option.some.inj hv
      obtain rfl := Option.some.inj hs
      exact ⟨⟨⟨1483228799, 1000000000⟩, ⟨1483232399, 0⟩, rfl, rfl,
        Segment.bounds_between (by decide +kernel) (by decide +kernel) (by decide) _⟩, .bare _⟩
    | 1 =>
      obtain rfl := Option.some.inj hv
      obtain rfl := Option.some.inj hs
      exact ⟨⟨⟨1483232399, 0⟩, ⟨1483235999, 0⟩, rfl, rfl,
        Segment.bounds_between (by decide +kernel) (by decide +kernel) (by decide) _⟩, .bare _⟩
    | k + 2 => cases hv

/-- The time that has passed since a leap second lacks it over midnight, so the first sample lasts a
second longer than its turn. -/
theorem leap_second_differs :
    leapGrid.Regular ∧ (∃ s, leapGrid.resolution = Span.ofSeconds s) ∧
      leapHours.SpelledOut leapGrid ⟨1483228799, 1000000000⟩ 3600 leapTurns ∧
      (Series.aligned leapHours).flowValues leapGrid "power" .power none = .ok [some (num 1)] ∧
      (Series.segments leapTurns).flowValues leapGrid "power" .power none = .ok [some (num 2)] ∧
      num 1 ≠ num 2 := by
  have hmake : (Grid.make ⟨1483232399, 0⟩ ⟨1483235999, 0⟩ (Span.ofSeconds 3600) .utc :
      Checked Exact Grid) = .ok leapGrid := rfl
  have hgrid : leapGrid.Regular :=
    Grid.regular_of_make ⟨by decide, by decide⟩ ⟨by decide, by decide⟩ (by decide) ⟨3600, rfl⟩ hmake
      (by decide)
  have hread : List.Forall₂ (fun s e => s.Reads leapGrid "power" .power none e) leapTurns
      [⟨(⟨1483228799, 1000000000⟩, ⟨1483232399, 0⟩), num 1⟩,
        ⟨(⟨1483232399, 0⟩, ⟨1483235999, 0⟩), num (2 : ℕ)⟩] :=
    .cons (Segment.reads_between (by decide +kernel) (by decide +kernel) (by decide) _ _ _ _)
      (.cons (Segment.reads_between (by decide +kernel) (by decide +kernel) (by decide) _ _ _ _) .nil)
  refine ⟨hgrid, ⟨3600, rfl⟩, leapHours_spelledOut, ?_, ?_, ?_⟩
  · have hbegins : Checked.inField "power" (readInstant .utc "2016-12-31T23:59:60Z" :
        Checked Exact Instant) = .ok ⟨1483228799, 1000000000⟩ :=
      Checked.mapError_eq_ok.mpr leapHours_spelledOut.begins
    have hpace : Checked.inField "power" (Duration.ofText "PT1H" : Checked Exact Span) =
      .ok (Span.ofSeconds 3600) := Checked.mapError_eq_ok.mpr ofText_oneHour
    refine Checked.bind_eq_ok.mpr ⟨_, hbegins, Checked.bind_eq_ok.mpr ⟨_, hpace, ?_⟩⟩
    rfl
  · rw [Series.flowValues_segments hread, if_pos (.inr hgrid.representable.hasStarts)]
    rfl
  · rw [ne_eq, num_inj]
    norm_num

end AlignedSeries

end Dispatch
