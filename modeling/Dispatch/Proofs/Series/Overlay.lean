import Mathlib.Data.List.GetD
import Mathlib.Data.List.Induction
import Dispatch.Series.Basic
import Dispatch.Proofs.Checked

/-! # Values of a series of intervals

* `Entry`, `Segment.Reads`: an interval with its value, as a segment states it.
* `Entry.inForce`: the value that entries leave at an instant. Whichever comes last in the list wins.
* `Series.overlay_eq_ok`: the values that a run through segments ends with.
* `Series.flowValues_length`, `Series.required_length`: there is one value for every slot, whatever the
  form of the series.
-/

namespace Dispatch
set_option autoImplicit false

variable {α : Type}

theorem readInstant_of_ofText {zone : Zone} {text : String} {t : Instant}
    (h : Instant.ofText zone text = .ok t) : (readInstant zone text : Checked α Instant) = .ok t := by
  rw [readInstant, h]
  rfl

/-! ## Entries -/

/-- An interval, both ends included where it concerns levels, and its value. -/
structure Entry (α : Type) where
  bounds : Instant × Instant
  value : α

namespace Entry

/-- The value at an instant after all entries have been written, `x` being there before. -/
def inForce (chosen : Instant × Instant → Bool) (x : Option α) (entries : List (Entry α)) : Option α :=
  entries.foldl (fun x e => if chosen e.bounds then some e.value else x) x

variable {q : Instant × Instant → Bool}

/-- An entry that is chosen leaves its value, or a later one leaves another. -/
theorem inForce_of_chosen {e : Entry α} (h : q e.bounds = true) (x : Option α)
    (before after : List (Entry α)) :
    ∃ v, inForce q x (before ++ e :: after) = some v ∧
      (v = e.value ∨ ∃ e' ∈ after, q e'.bounds = true ∧ e'.value = v) := by
  unfold inForce
  rw [List.foldl_append, List.foldl_cons, if_pos h]
  induction after using List.reverseRecOn with
  | nil => exact ⟨e.value, rfl, .inl rfl⟩
  | append_singleton after last ih =>
    rw [List.foldl_append, List.foldl_cons, List.foldl_nil]
    by_cases hlast : q last.bounds = true
    · rw [if_pos hlast]
      exact ⟨last.value, rfl, .inr ⟨last, List.mem_append_right _ List.mem_cons_self, hlast, rfl⟩⟩
    · rw [if_neg hlast]
      obtain ⟨v, hv, hsource⟩ := ih
      refine ⟨v, hv, hsource.imp_right ?_⟩
      rintro ⟨e', he', hchosen, hvalue⟩
      exact ⟨e', List.mem_append_left _ he', hchosen, hvalue⟩

end Entry

variable [Scalar α]

/-- The entry that a segment states. -/
structure Segment.Reads (s : Segment α) (g : Grid) (field : String) (expected : Dimension)
    (reference : Option α) (e : Entry α) : Prop where
  bounds : s.bounds g.zone = .ok e.bounds
  value : s.value.resolve field expected reference = .ok e.value

theorem Segment.Reads.unique {s : Segment α} {g : Grid} {field : String} {expected : Dimension}
    {reference : Option α} {e e' : Entry α} (h : s.Reads g field expected reference e)
    (h' : s.Reads g field expected reference e') : e = e' := by
  have hbounds := Except.ok.inj (h.bounds.symm.trans h'.bounds)
  have hvalue := Except.ok.inj (h.value.symm.trans h'.value)
  cases e
  cases e'
  subst hbounds hvalue
  rfl

theorem resolve_number (v : α) (field : String) (expected : Dimension) (reference : Option α) :
    (Amount.number v).resolve field expected reference = .ok v := by
  simp [Amount.resolve, Amount.quantity, Quantity.number, Quantity.canonical, Checked.inField,
    Except.mapError, Except.bind]

theorem Segment.bounds_between {zone : Zone} {start stop : String} {t u : Instant}
    (ht : Instant.ofText zone start = .ok t) (hu : Instant.ofText zone stop = .ok u) (hle : ¬u < t)
    (value : Amount α) :
    (⟨none, some start, some stop, none, value⟩ : Segment α).bounds zone = .ok (t, u) := by
  refine Checked.bind_eq_ok.mpr ⟨t, readInstant_of_ofText ht, ?_⟩
  refine Checked.bind_eq_ok.mpr ⟨u, readInstant_of_ofText hu, ?_⟩
  rw [if_neg hle]
  rfl

/-- A segment between two instants, its value in canonical units. -/
theorem Segment.reads_between {g : Grid} {start stop : String} {t u : Instant}
    (ht : Instant.ofText g.zone start = .ok t) (hu : Instant.ofText g.zone stop = .ok u)
    (hle : ¬u < t) (v : α) (field : String) (expected : Dimension) (reference : Option α) :
    (⟨none, some start, some stop, none, .number v⟩ : Segment α).Reads g field expected reference
      ⟨(t, u), v⟩ :=
  ⟨bounds_between ht hu hle _, resolve_number v field expected reference⟩

/-- A segment of a single instant. -/
theorem Segment.reads_at {g : Grid} {at_ : String} {t : Instant}
    (ht : Instant.ofText g.zone at_ = .ok t) (v : α) (field : String) (expected : Dimension)
    (reference : Option α) :
    (⟨some at_, none, none, none, .number v⟩ : Segment α).Reads g field expected reference
      ⟨(t, t), v⟩ :=
  ⟨Checked.bind_eq_ok.mpr ⟨t, readInstant_of_ofText ht, rfl⟩, resolve_number v field expected reference⟩

/-! ## One value for every slot -/

namespace Series

omit [Scalar α] in
theorem overwrite_eq_ok {instant : ℕ → Checked α Instant} {chosen : Instant → Bool} {v : α}
    {xs ys : List (Option α)} (h : overwrite instant chosen v xs = .ok ys) :
    ys.length = xs.length ∧ ∀ j < xs.length, ∃ t, instant j = .ok t ∧
      givenAt ys j = if chosen t then some v else givenAt xs j := by
  have hall := Checked.mapM_eq_ok.mp h
  have hlen : ys.length = xs.length := by rw [← hall.length_eq, List.length_zipIdx]
  refine ⟨hlen, fun j hj => ?_⟩
  have hslot := List.forall₂_iff_get.mp hall |>.2 j (by simpa using hj) (hlen.symm ▸ hj)
  simp only [List.get_eq_getElem, List.getElem_zipIdx, Nat.zero_add] at hslot
  obtain ⟨t, ht, hvalue⟩ := Checked.bind_eq_ok.mp hslot
  refine ⟨t, ht, ?_⟩
  rw [givenAt, givenAt, List.getD_eq_getElem _ _ (hlen.symm ▸ hj), List.getD_eq_getElem _ _ hj]
  exact (Checked.pure_eq_ok.mp hvalue).symm

/-- What a run through segments ends with. The induction follows the run, a segment at a time. -/
theorem overlay_eq_ok {g : Grid} {field : String} {expected : Dimension} {reference : Option α}
    {instant : ℕ → Checked α Instant} {chosen : Instant × Instant → Instant → Bool}
    {items : List (Segment α)} {xs ys : List (Option α)}
    (h : overlay g field expected reference instant chosen xs items = .ok ys) :
    ∃ entries, List.Forall₂ (fun s e => s.Reads g field expected reference e) items entries ∧
      ys.length = xs.length ∧ ∀ j < xs.length, ∀ t, instant j = .ok t →
        givenAt ys j = Entry.inForce (fun b => chosen b t) (givenAt xs j) entries := by
  induction items generalizing xs with
  | nil =>
    obtain rfl : xs = ys := Except.ok.inj h
    exact ⟨[], .nil, rfl, fun _ _ _ _ => rfl⟩
  | cons s rest ih =>
    rw [overlay] at h
    obtain ⟨b, hb, h⟩ := Checked.bind_eq_ok.mp h
    obtain ⟨v, hv, h⟩ := Checked.bind_eq_ok.mp h
    obtain ⟨xs', hxs', h⟩ := Checked.bind_eq_ok.mp h
    obtain ⟨hlen', hwritten⟩ := overwrite_eq_ok hxs'
    obtain ⟨entries, hentries, hlen, hvalues⟩ := ih h
    refine ⟨⟨b, v⟩ :: entries, .cons ⟨Checked.mapError_eq_ok.mp hb, hv⟩ hentries,
      hlen.trans hlen', fun j hj t ht => ?_⟩
    obtain ⟨t', ht', hslot⟩ := hwritten j hj
    obtain rfl : t' = t := Except.ok.inj (ht'.symm.trans ht)
    rw [hvalues j (hlen'.symm ▸ hj) t' ht, hslot]
    rfl

variable {s : Series α} {g : Grid} {field : String} {expected : Dimension}

theorem flowValues_length {reference : Option α} {xs : List (Option α)}
    (h : s.flowValues g field expected reference = .ok xs) : xs.length = g.len := by
  cases s with
  | constant a =>
    obtain ⟨v, -, h⟩ := Checked.bind_eq_ok.mp h
    rw [← Checked.pure_eq_ok.mp h, List.length_replicate]
  | segments items =>
    obtain ⟨_, -, hlen, -⟩ := overlay_eq_ok h
    rw [hlen, List.length_replicate]
  | aligned a =>
    rw [flowValues, AlignedSeries.flowValues] at h
    obtain ⟨start, -, h⟩ := Checked.bind_eq_ok.mp h
    obtain ⟨step, -, h⟩ := Checked.bind_eq_ok.mp h
    split_ifs at h
    obtain ⟨_, -, h⟩ := Checked.bind_eq_ok.mp h
    rw [← (Checked.mapM_eq_ok.mp h).length_eq, g.slots_length]

theorem required_length {xs : List α} (h : s.required g field expected = .ok xs) :
    xs.length = g.len := by
  obtain ⟨values, hvalues, h⟩ := Checked.bind_eq_ok.mp h
  rw [← (Checked.mapM_eq_ok.mp h).length_eq, List.length_zipIdx, flowValues_length hvalues]

end Series

end Dispatch
