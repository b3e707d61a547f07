import Mathlib.Data.List.Perm.Basic
import Mathlib.Data.List.Pairwise
import Dispatch.Proofs.Series.Overlay
import Dispatch.Proofs.Time.Regular
import Dispatch.Proofs.Problem.Sound

/-! # What segments resolve to

* `Entry.Covers`, `Entry.Includes`: the two rules for the ends of an interval.
* `Entry.last`: the value of the last entry in a list that meets a condition.
* `Entry.inForce_perm`, `Entry.inForce_split`: the order of entries that do not compete, and the parts
  that an interval is given in, do not matter.
* `Series.overlay_crashes`: a slot that has no instant spoils the whole run, unless there is no segment.
* `Series.flowValues_segments`, `Series.stateValues_segments`: the values of a list of segments.
* `Series.segments_resolve`: both, with what follows for the order of segments, for segments in parts
  and for gaps.
-/

namespace Dispatch
set_option autoImplicit false

variable {α : Type}

/-! ## Entries -/

namespace Entry

/-- Whether a slot that starts at `t` takes its value from the entry. -/
def Covers (t : Instant) (e : Entry α) : Prop :=
  (e.bounds.1 ≤ t ∧ t < e.bounds.2) ∨ (e.bounds.1 = e.bounds.2 ∧ t = e.bounds.1)

/-- Whether a level at `t` takes its value from the entry. -/
def Includes (t : Instant) (e : Entry α) : Prop := e.bounds.1 ≤ t ∧ t ≤ e.bounds.2

instance (t : Instant) (e : Entry α) : Decidable (e.Covers t) :=
  inferInstanceAs (Decidable (_ ∨ _))

instance (t : Instant) (e : Entry α) : Decidable (e.Includes t) :=
  inferInstanceAs (Decidable (_ ∧ _))

theorem covers_iff {t : Instant} {e : Entry α} : Segment.covers e.bounds t = true ↔ e.Covers t := by
  rw [Segment.covers, Covers]
  by_cases h : e.bounds.1 = e.bounds.2
  · have hempty : ¬(e.bounds.1 ≤ t ∧ t < e.bounds.2) := by
      rintro ⟨hfrom, hto⟩
      exact Instant.lt_irrefl t (Instant.lt_of_lt_of_le hto (h ▸ hfrom))
    simp [h, h ▸ hempty]
  · simp [h]

theorem includes_iff {t : Instant} {e : Entry α} :
    Segment.reaches e.bounds t = true ↔ e.Includes t := by
  simp [Segment.reaches, Includes]

/-- The value of the last entry that meets the condition. -/
def last (p : Entry α → Prop) [DecidablePred p] (entries : List (Entry α)) : Option α :=
  (entries.filter fun e => decide (p e)).getLast?.map Entry.value

variable {q : Instant × Instant → Bool} {p : Entry α → Prop} [DecidablePred p]

theorem last_append_singleton (entries : List (Entry α)) (e : Entry α) :
    last p (entries ++ [e]) = if p e then some e.value else last p entries := by
  by_cases h : p e
  · simp [last, h]
  · simp [last, h]

/-- What is in force after all entries is what the last one that was chosen has left. -/
theorem inForce_eq_last (h : ∀ e, q e.bounds = true ↔ p e) (x : Option α) (entries : List (Entry α)) :
    inForce q x entries = (last p entries).or x := by
  unfold inForce
  induction entries using List.reverseRecOn with
  | nil => rfl
  | append_singleton entries e ih =>
    rw [List.foldl_append, List.foldl_cons, List.foldl_nil, ih, last_append_singleton]
    by_cases he : p e
    · simp [he, (h e).mpr he]
    · simp [he, mt (h e).mp he]

theorem inForce_covers (t : Instant) (entries : List (Entry α)) :
    inForce (fun b => Segment.covers b t) none entries = last (Covers t) entries :=
  (inForce_eq_last (fun _ => covers_iff) none entries).trans Option.or_none

theorem inForce_includes (t : Instant) (entries : List (Entry α)) :
    inForce (fun b => Segment.reaches b t) none entries = last (Includes t) entries :=
  (inForce_eq_last (fun _ => includes_iff) none entries).trans Option.or_none

theorem last_eq_none_iff {entries : List (Entry α)} : last p entries = none ↔ ∀ e ∈ entries, ¬p e := by
  simp [last]

/-- Where just one place of a list can be chosen, the last that is chosen stands there. -/
theorem last_eq_getElem? {i : ℕ} {entries : List (Entry α)}
    (h : ∀ k e, entries[k]? = some e → (p e ↔ k = i)) : last p entries = entries[i]?.map value := by
  induction entries using List.reverseRecOn with
  | nil => rfl
  | append_singleton entries e ih =>
    have hlast : p e ↔ entries.length = i := h entries.length e (by simp)
    have hfront : ∀ k e', entries[k]? = some e' → (p e' ↔ k = i) := by
      intro k e' hk
      have hlt : k < entries.length := (List.getElem?_eq_some_iff.mp hk).1
      exact h k e' (by rw [List.getElem?_append_left hlt, hk])
    rw [last_append_singleton, ih hfront]
    by_cases hi : entries.length = i
    · rw [if_pos (hlast.mpr hi), ← hi]
      simp
    · rw [if_neg (mt hlast.mp hi)]
      rcases Nat.lt_or_gt_of_ne hi with hlt | hlt
      · have hbeyond : (entries ++ [e]).length ≤ i := by
          rw [List.length_append, List.length_singleton]
          exact hlt
        rw [List.getElem?_eq_none hbeyond, List.getElem?_eq_none (Nat.le_of_lt hlt)]
      · rw [List.getElem?_append_left hlt]

/-- Entries of which no two are chosen may be given in any order. -/
theorem inForce_perm {entries entries' : List (Entry α)} (hperm : entries'.Perm entries)
    (hapart : entries.Pairwise fun e e' => ¬(q e.bounds = true ∧ q e'.bounds = true)) (x : Option α) :
    inForce q x entries' = inForce q x entries := by
  have : Std.Symm fun e e' : Entry α => ¬(q e.bounds = true ∧ q e'.bounds = true) :=
    ⟨fun _ _ h h' => h h'.symm⟩
  refine (hperm.symm.foldl_eq' ?_ x).symm
  intro e he e' he' x
  by_cases hsame : e = e'
  · rw [hsame]
  · have hnot := hapart.forall he he' hsame
    by_cases hchosen : q e.bounds = true
    · have hother : ¬q e'.bounds = true := fun h => hnot ⟨hchosen, h⟩
      simp [hchosen, hother]
    · simp [hchosen]

/-- An entry may be given as two with its value, as long as one of the two is chosen when it is. -/
theorem inForce_split {e first second : Entry α} (hfirst : first.value = e.value)
    (hsecond : second.value = e.value)
    (hparts : q e.bounds = true ↔ q first.bounds = true ∨ q second.bounds = true)
    (x : Option α) (before after : List (Entry α)) :
    inForce q x (before ++ first :: second :: after) = inForce q x (before ++ e :: after) := by
  unfold inForce
  simp only [List.foldl_append, List.foldl_cons, hfirst, hsecond]
  by_cases h₁ : q first.bounds = true
  · simp [hparts.mpr (.inl h₁), h₁]
  · by_cases h₂ : q second.bounds = true
    · simp [hparts.mpr (.inr h₂), h₂]
    · have hnot : ¬q e.bounds = true := fun h => (hparts.mp h).elim h₁ h₂
      simp [hnot, h₁, h₂]

end Entry

theorem eq_nil_iff_of_perm {β : Type} {xs ys : List β} (h : xs.Perm ys) : xs = [] ↔ ys = [] := by
  rw [← List.length_eq_zero_iff, h.length_eq, List.length_eq_zero_iff]

/-- Lists that match, parted where one of them is. -/
theorem forall₂_parted {β γ : Type} {R : β → γ → Prop} {before after : List β} {x : β} {ys : List γ}
    (h : List.Forall₂ R (before ++ x :: after) ys) :
    ∃ bs y cs, ys = bs ++ y :: cs ∧ List.Forall₂ R before bs ∧ R x y ∧ List.Forall₂ R after cs := by
  induction before generalizing ys with
  | nil =>
    obtain ⟨y, cs, hx, hafter, rfl⟩ := List.forall₂_cons_left_iff.mp h
    exact ⟨[], y, cs, rfl, .nil, hx, hafter⟩
  | cons b before ih =>
    obtain ⟨b', ys, hb, hrest, rfl⟩ := List.forall₂_cons_left_iff.mp h
    obtain ⟨bs, y, cs, rfl, hbefore, hx, hafter⟩ := ih hrest
    exact ⟨b' :: bs, y, cs, rfl, .cons hb hbefore, hx, hafter⟩

/-- An instant between the ends of an interval parts it. -/
theorem Segment.covers_parts {b : Instant × Instant} {m : Instant} (hfrom : b.1 < m) (hto : m < b.2)
    (t : Instant) :
    covers b t = true ↔ covers (b.1, m) t = true ∨ covers (m, b.2) t = true := by
  have hwhole : ¬b.1 = b.2 := fun h =>
    Instant.lt_irrefl m (Instant.lt_of_lt_of_le hto (h ▸ Instant.le_of_lt hfrom))
  have hfirst : ¬b.1 = m := fun h => Instant.lt_irrefl m (h ▸ hfrom)
  have hsecond : ¬m = b.2 := fun h => Instant.lt_irrefl m (h ▸ hto)
  simp only [covers, if_neg hwhole, if_neg hfirst, if_neg hsecond, Bool.and_eq_true,
    decide_eq_true_iff]
  constructor
  · rintro ⟨h, h'⟩
    by_cases hm : t < m
    · exact .inl ⟨h, hm⟩
    · exact .inr ⟨Instant.not_lt.mp hm, h'⟩
  · rintro (⟨h, h'⟩ | ⟨h, h'⟩)
    · exact ⟨h, Instant.lt_of_lt_of_le h' (Instant.le_of_lt hto)⟩
    · exact ⟨Instant.le_of_lt (Instant.lt_of_lt_of_le hfrom h), h'⟩

/-! ## Runs through segments -/

namespace Series

variable {instant : ℕ → Checked α Instant} {times : ℕ → Instant} {n : ℕ}

theorem overwrite_eq (htimes : ∀ j < n, instant j = .ok (times j)) (chosen : Instant → Bool) (v : α)
    (xs : ℕ → Option α) :
    overwrite instant chosen v ((List.range n).map xs) =
      .ok ((List.range n).map fun j => if chosen (times j) then some v else xs j) := by
  have hslot : ∀ p ∈ ((List.range n).map xs).zipIdx,
      (do let t ← instant p.2
          return if chosen t then some v else p.1 : Checked α (Option α)) =
        .ok (if chosen (times p.2) then some v else p.1) := by
    rintro ⟨x, j⟩ hmem
    have hj : j < n := by simpa using List.snd_lt_of_mem_zipIdx hmem
    rw [htimes j hj]
    rfl
  rw [overwrite, Checked.mapM_eq_map hslot]
  refine congrArg Except.ok (List.ext_getElem (by simp) fun j hj hj' => ?_)
  simp

/-- What cannot be picked in one slot crashes the whole. -/
theorem overwrite_crashes
    (hfails : ∀ j, Checked.FailsWith (· = .unrepresentable) (instant j)) {j : ℕ} (hj : j < n)
    (hbeyond : ∀ t, instant j ≠ .ok t) (chosen : Instant → Bool) (v : α) (xs : ℕ → Option α) :
    overwrite instant chosen v ((List.range n).map xs) = .error .unrepresentable := by
  have hcrash : Checked.FailsWith (· = .unrepresentable)
      (overwrite instant chosen v ((List.range n).map xs)) := by
    refine Checked.FailsWith.mapM (fun p => ?_) _
    exact (hfails p.2).bind fun t => Checked.failsWith_ok _
  cases hwritten : overwrite instant chosen v ((List.range n).map xs) with
  | error fault => rw [hcrash fault hwritten]
  | ok ys =>
    obtain ⟨t, ht, -⟩ := (overwrite_eq_ok hwritten).2 j (by simpa using hj)
    exact absurd ht (hbeyond t)

variable [Scalar α] {g : Grid} {field : String} {expected : Dimension} {reference : Option α}
  {items : List (Segment α)} {entries : List (Entry α)}

/-- A run through segments that can be read. The induction follows the run, a segment at a time. -/
theorem overlay_eq (htimes : ∀ j < n, instant j = .ok (times j))
    (hread : List.Forall₂ (fun s e => s.Reads g field expected reference e) items entries)
    (chosen : Instant × Instant → Instant → Bool) (xs : ℕ → Option α) :
    overlay g field expected reference instant chosen ((List.range n).map xs) items =
      .ok ((List.range n).map fun j =>
        Entry.inForce (fun b => chosen b (times j)) (xs j) entries) := by
  induction hread generalizing xs with
  | nil => rfl
  | @cons s e items entries hs hrest ih =>
    rw [overlay, Checked.bind_eq_ok]
    refine ⟨e.bounds, Checked.mapError_eq_ok.mpr hs.bounds, Checked.bind_eq_ok.mpr ⟨e.value, hs.value, ?_⟩⟩
    exact Checked.bind_eq_ok.mpr ⟨_, overwrite_eq htimes _ _ xs, ih _⟩

/-- The first segment is written over all slots, so it meets the one that has no instant. -/
theorem overlay_crashes
    (hfails : ∀ j, Checked.FailsWith (· = .unrepresentable) (instant j)) {j : ℕ} (hj : j < n)
    (hbeyond : ∀ t, instant j ≠ .ok t)
    (hread : List.Forall₂ (fun s e => s.Reads g field expected reference e) items entries)
    (hitems : items ≠ []) (chosen : Instant × Instant → Instant → Bool) (xs : ℕ → Option α) :
    overlay g field expected reference instant chosen ((List.range n).map xs) items =
      .error .unrepresentable := by
  cases hread with
  | nil => exact absurd rfl hitems
  | @cons s e rest entries hs _ =>
    have hbounds : Checked.inField field (s.bounds g.zone) = .ok e.bounds :=
      Checked.mapError_eq_ok.mpr hs.bounds
    simp only [overlay, hbounds, hs.value, overwrite_crashes hfails hj hbeyond, bind, Except.bind]

/-- The values of slots that start out with none, if every slot has an instant. -/
theorem overlay_none {has : ℕ → Prop} [DecidablePred has]
    (hinstant : ∀ j, instant j = if has j then .ok (times j) else .error .unrepresentable)
    (hread : List.Forall₂ (fun s e => s.Reads g field expected reference e) items entries)
    (chosen : Instant × Instant → Instant → Bool) :
    overlay g field expected reference instant chosen (List.replicate g.len none) items =
      if items = [] ∨ ∀ j < g.len, has j then
        .ok (g.slots.map fun j => Entry.inForce (fun b => chosen b (times j)) none entries)
      else .error .unrepresentable := by
  have hnone : List.replicate g.len none = (List.range g.len).map fun _ => (none : Option α) := by simp
  rw [hnone]
  split
  case isTrue h =>
    rcases h with rfl | h
    · cases hread
      rfl
    · exact overlay_eq (fun j hj => (hinstant j).trans (if_pos (h j hj))) hread chosen _
  case isFalse h =>
    push Not at h
    obtain ⟨hitems, j, hj, hbeyond⟩ := h
    refine overlay_crashes (fun j => ?_) hj (fun t ht => ?_) hread hitems chosen _
    · rw [hinstant]
      exact .ite (Checked.failsWith_ok _) (Checked.failsWith_error rfl)
    · rw [hinstant, if_neg hbeyond] at ht
      cases ht

theorem flowValues_segments
    (hread : List.Forall₂ (fun s e => s.Reads g field expected reference e) items entries) :
    (Series.segments items).flowValues g field expected reference =
      if items = [] ∨ g.HasStarts then
        .ok (g.slots.map fun j =>
          Entry.inForce (fun b => Segment.covers b (g.boundary j)) none entries)
      else .error .unrepresentable :=
  overlay_none g.slotStart_eq hread _

theorem stateValues_segments
    (hread : List.Forall₂ (fun s e => s.Reads g field expected reference e) items entries) :
    (Series.segments items).stateValues g field expected reference =
      if items = [] ∨ g.HasEnds then
        .ok (g.slots.map fun j =>
          Entry.inForce (fun b => Segment.reaches b (g.boundary (j + 1))) none entries)
      else .error .unrepresentable :=
  overlay_none (fun j => g.slotStart_eq (j + 1)) hread _

/-- A slot takes the value of the last segment that covers its start. -/
theorem flowValues_last
    (hread : List.Forall₂ (fun s e => s.Reads g field expected reference e) items entries) :
    (Series.segments items).flowValues g field expected reference =
      if items = [] ∨ g.HasStarts then
        .ok (g.slots.map fun j => Entry.last (Entry.Covers (g.boundary j)) entries)
      else .error .unrepresentable := by
  rw [flowValues_segments hread]
  simp only [Entry.inForce_covers]

theorem stateValues_last
    (hread : List.Forall₂ (fun s e => s.Reads g field expected reference e) items entries) :
    (Series.segments items).stateValues g field expected reference =
      if items = [] ∨ g.HasEnds then
        .ok (g.slots.map fun j => Entry.last (Entry.Includes (g.boundary (j + 1))) entries)
      else .error .unrepresentable := by
  rw [stateValues_segments hread]
  simp only [Entry.inForce_includes]

/-! ## Other lists with the same values -/

omit [Scalar α] in
/-- Entries of which no two are chosen for a slot leave it with the same value in any order. -/
theorem inForce_slots_perm {entries' : List (Entry α)} (hperm : entries'.Perm entries)
    (chosen : Instant × Instant → Instant → Bool) (hapart : ∀ j < g.len, entries.Pairwise fun e e' =>
      ¬(chosen e.bounds (times j) = true ∧ chosen e'.bounds (times j) = true)) :
    g.slots.map (fun j => Entry.inForce (fun b => chosen b (times j)) none entries') =
      g.slots.map fun j => Entry.inForce (fun b => chosen b (times j)) none entries :=
  List.map_congr_left fun j hj => Entry.inForce_perm hperm (hapart j (List.mem_range.mp hj)) none

theorem flowValues_perm
    (hread : List.Forall₂ (fun s e => s.Reads g field expected reference e) items entries)
    {items' : List (Segment α)} (hperm : items'.Perm items)
    (hapart : ∀ j < g.len, entries.Pairwise fun e e' =>
      ¬(e.Covers (g.boundary j) ∧ e'.Covers (g.boundary j))) :
    (Series.segments items').flowValues g field expected reference =
      (Series.segments items).flowValues g field expected reference := by
  obtain ⟨entries', hread', hperm'⟩ := List.perm_comp_forall₂ hperm hread
  simp only [← Entry.covers_iff] at hapart
  rw [flowValues_segments hread, flowValues_segments hread', inForce_slots_perm hperm' _ hapart]
  simp only [eq_nil_iff_of_perm hperm]

theorem stateValues_perm
    (hread : List.Forall₂ (fun s e => s.Reads g field expected reference e) items entries)
    {items' : List (Segment α)} (hperm : items'.Perm items)
    (hapart : ∀ j < g.len, entries.Pairwise fun e e' =>
      ¬(e.Includes (g.boundary (j + 1)) ∧ e'.Includes (g.boundary (j + 1)))) :
    (Series.segments items').stateValues g field expected reference =
      (Series.segments items).stateValues g field expected reference := by
  obtain ⟨entries', hread', hperm'⟩ := List.perm_comp_forall₂ hperm hread
  simp only [← Entry.includes_iff] at hapart
  rw [stateValues_segments hread, stateValues_segments hread', inForce_slots_perm hperm' _ hapart]
  simp only [eq_nil_iff_of_perm hperm]

/-- A segment in two parts leaves every slot with its value. -/
theorem flowValues_parts {before after : List (Segment α)} {s : Segment α}
    (hread : List.Forall₂ (fun s e => s.Reads g field expected reference e) (before ++ s :: after)
      entries)
    {e : Entry α} (hs : s.Reads g field expected reference e) {m : Instant} (hfrom : e.bounds.1 < m)
    (hto : m < e.bounds.2) {first second : Segment α}
    (hfirst : first.Reads g field expected reference ⟨(e.bounds.1, m), e.value⟩)
    (hsecond : second.Reads g field expected reference ⟨(m, e.bounds.2), e.value⟩) :
    (Series.segments (before ++ first :: second :: after)).flowValues g field expected reference =
      (Series.segments (before ++ s :: after)).flowValues g field expected reference := by
  obtain ⟨es, e', es', rfl, hes, he', hes'⟩ := forall₂_parted hread
  obtain rfl : e' = e := he'.unique hs
  have hparts : List.Forall₂ (fun s e => s.Reads g field expected reference e)
      (before ++ first :: second :: after)
      (es ++ ⟨(e'.bounds.1, m), e'.value⟩ :: ⟨(m, e'.bounds.2), e'.value⟩ :: es') :=
    List.rel_append hes (.cons hfirst (.cons hsecond hes'))
  have hsame : ∀ j, Entry.inForce (fun b => Segment.covers b (g.boundary j)) none
      (es ++ ⟨(e'.bounds.1, m), e'.value⟩ :: ⟨(m, e'.bounds.2), e'.value⟩ :: es') =
        Entry.inForce (fun b => Segment.covers b (g.boundary j)) none (es ++ e' :: es') := by
    intro j
    refine Entry.inForce_split ?_ ?_ (Segment.covers_parts hfrom hto (g.boundary j)) none es es'
    · rfl
    · rfl
  simp only [flowValues_segments hread, flowValues_segments hparts, hsame, List.append_eq_nil_iff,
    reduceCtorEq, and_false]

/-! ## Gaps -/

/-- A series with a gap is refused at the first slot that has no value. -/
theorem required_eq_error {s : Series α} {values : ℕ → Option α}
    (hvalues : s.flowValues g field expected none = .ok (g.slots.map values)) {fault : Fault α} :
    s.required g field expected = .error fault ↔
      ∃ j < g.len, values j = none ∧ (∀ i < j, values i ≠ none) ∧
        fault = if g.Has j then .field field (.uncovered (g.localTime (g.boundary j)))
          else .unrepresentable := by
  -- A slot without a value fails, whether its start is there to be named or not.
  have hgap : ∀ j, (g.slotStart j >>= fun t =>
      .error (.field field (.uncovered (g.localTime t))) : Checked α α) =
        .error (if g.Has j then .field field (.uncovered (g.localTime (g.boundary j)))
          else .unrepresentable) := by
    intro j
    rw [Grid.slotStart_eq]
    split <;> rfl
  rw [required, hvalues]
  refine Iff.trans (Checked.mapM_eq_error) ?_
  simp only [List.length_zipIdx, List.length_map, List.length_range, List.getElem_zipIdx,
    List.getElem_map, Grid.slots, List.getElem_range, Nat.zero_add, exists_prop]
  constructor
  · rintro ⟨j, hj, hfault, hbefore⟩
    refine ⟨j, hj, ?_⟩
    cases hv : values j with
    | some v => simp [hv] at hfault
    | none =>
      simp only [hv, hgap] at hfault
      refine ⟨rfl, fun i hi hnone => ?_, (Except.error.inj hfault).symm⟩
      obtain ⟨b, hb⟩ := hbefore i hi
      simp only [hnone, hgap] at hb
      cases hb
  · rintro ⟨j, hj, hv, hbefore, rfl⟩
    refine ⟨j, hj, by simp only [hv, hgap], fun i hi => ?_⟩
    obtain ⟨v, hi⟩ := Option.ne_none_iff_exists'.mp (hbefore i hi)
    exact ⟨v, by simp only [hi]⟩

theorem required_segments_eq_error
    (hread : List.Forall₂ (fun s e => s.Reads g field expected none e) items entries)
    (hstarts : items = [] ∨ g.HasStarts) {fault : Fault α} :
    (Series.segments items).required g field expected = .error fault ↔
      ∃ j < g.len, (∀ e ∈ entries, ¬e.Covers (g.boundary j)) ∧
        (∀ i < j, ∃ e ∈ entries, e.Covers (g.boundary i)) ∧
        fault = if g.Has j then .field field (.uncovered (g.localTime (g.boundary j)))
          else .unrepresentable := by
  rw [required_eq_error ((flowValues_last hread).trans (if_pos hstarts))]
  simp only [Entry.last_eq_none_iff, ne_eq, not_forall, not_not, exists_prop]

/-- If some slot is uncovered, one is the first. -/
theorem exists_required_error
    (hread : List.Forall₂ (fun s e => s.Reads g field expected none e) items entries) :
    (∃ fault, (Series.segments items).required g field expected = .error fault) ↔
      ¬(items = [] ∨ g.HasStarts) ∨ ∃ j < g.len, ∀ e ∈ entries, ¬e.Covers (g.boundary j) := by
  by_cases hstarts : items = [] ∨ g.HasStarts
  · simp only [hstarts, not_true_eq_false, false_or]
    constructor
    · rintro ⟨fault, hfault⟩
      obtain ⟨j, hj, hgap, -⟩ := (required_segments_eq_error hread hstarts).mp hfault
      exact ⟨j, hj, hgap⟩
    · classical
      intro hgap
      obtain ⟨hj, hnone⟩ := Nat.find_spec hgap
      refine ⟨_, (required_segments_eq_error hread hstarts).mpr
        ⟨Nat.find hgap, hj, hnone, fun i hi => ?_, rfl⟩⟩
      by_contra hearlier
      push Not at hearlier
      exact Nat.find_min hgap hi ⟨hi.trans hj, hearlier⟩
  · refine iff_of_true ⟨.unrepresentable, ?_⟩ (.inl hstarts)
    rw [required, flowValues_segments hread, if_neg hstarts]
    rfl

/-- One for two hours, and two at the full hour between. -/
def hourMark : List (Segment Float) :=
  [⟨none, some "1970-01-01T00:00:00Z", some "1970-01-01T02:00:00Z", none, .number 1⟩,
    ⟨some "1970-01-01T01:00:00Z", none, none, none, .number 2⟩]

def hourMarkEntries : List (Entry Float) :=
  [⟨(⟨0, 0⟩, ⟨7200, 0⟩), 1⟩, ⟨(⟨3600, 0⟩, ⟨3600, 0⟩), 2⟩]

theorem hourMark_reads (field : String) (expected : Dimension) :
    List.Forall₂ (fun s e => s.Reads Grid.twoHours field expected none e) hourMark hourMarkEntries :=
  .cons (Segment.reads_between (by decide +kernel) (by decide +kernel) (by decide) _ _ _ _)
    (.cons (Segment.reads_at (by decide +kernel) _ _ _ _) .nil)

/-- What a list of segments resolves to, on any grid.

A slot takes the value of the last segment that covers its start, and a level that of the last segment
that includes the end of its slot; but if there are segments at all, one start or one end that lies
beyond the calendar crashes the whole. So segments of which no two compete for a slot may be listed in
any order, and a segment may be given in two parts. A value for every slot is there unless some start is
uncovered or beyond; the error names the first. Where the time from the start to the end is that of the
slots, as `Grid.make` means it to be, the calendar has all of them. -/
theorem segments_resolve
    (hread : List.Forall₂ (fun s e => s.Reads g field expected reference e) items entries) :
    (Series.segments items).flowValues g field expected reference =
        (if items = [] ∨ g.HasStarts then
          .ok (g.slots.map fun j => Entry.last (Entry.Covers (g.boundary j)) entries)
        else .error .unrepresentable) ∧
      (Series.segments items).stateValues g field expected reference =
        (if items = [] ∨ g.HasEnds then
          .ok (g.slots.map fun j => Entry.last (Entry.Includes (g.boundary (j + 1))) entries)
        else .error .unrepresentable) ∧
      (∀ items' : List (Segment α), items'.Perm items →
        ((∀ j < g.len, entries.Pairwise fun e e' =>
            ¬(e.Covers (g.boundary j) ∧ e'.Covers (g.boundary j))) →
          (Series.segments items').flowValues g field expected reference =
            (Series.segments items).flowValues g field expected reference) ∧
        ((∀ j < g.len, entries.Pairwise fun e e' =>
            ¬(e.Includes (g.boundary (j + 1)) ∧ e'.Includes (g.boundary (j + 1)))) →
          (Series.segments items').stateValues g field expected reference =
            (Series.segments items).stateValues g field expected reference)) ∧
      (∀ (before : List (Segment α)) (s : Segment α) (after : List (Segment α)) (e : Entry α)
          (m : Instant) (first second : Segment α),
        items = before ++ s :: after → s.Reads g field expected reference e →
          e.bounds.1 < m → m < e.bounds.2 →
          first.Reads g field expected reference ⟨(e.bounds.1, m), e.value⟩ →
          second.Reads g field expected reference ⟨(m, e.bounds.2), e.value⟩ →
            (Series.segments (before ++ first :: second :: after)).flowValues g field expected
                reference =
              (Series.segments items).flowValues g field expected reference) ∧
      (reference = none →
        ((∃ fault, (Series.segments items).required g field expected = .error fault) ↔
          ¬(items = [] ∨ g.HasStarts) ∨ ∃ j < g.len, ∀ e ∈ entries, ¬e.Covers (g.boundary j)) ∧
        (items = [] ∨ g.HasStarts →
          ∀ fault, (Series.segments items).required g field expected = .error fault ↔
            ∃ j < g.len, (∀ e ∈ entries, ¬e.Covers (g.boundary j)) ∧
              (∀ i < j, ∃ e ∈ entries, e.Covers (g.boundary i)) ∧
              fault = if g.Has j then .field field (.uncovered (g.localTime (g.boundary j)))
                else .unrepresentable)) ∧
      ∀ stop, g.Spans stop → g.HasStarts ∧ g.HasEnds := by
  refine ⟨flowValues_last hread, stateValues_last hread, fun items' hperm => ?_, ?_, ?_,
    fun stop hspans => ?_⟩
  · exact ⟨flowValues_perm hread hperm, stateValues_perm hread hperm⟩
  · rintro before s after e m first second rfl hs hfrom hto hfirst hsecond
    exact flowValues_parts hread hs hfrom hto hfirst hsecond
  · rintro rfl
    exact ⟨exists_required_error hread, fun hstarts fault => required_segments_eq_error hread hstarts⟩
  · have hgrid := Grid.representable_of_span hspans
    exact ⟨hgrid.hasStarts, hgrid.hasEnds⟩

/-- The second hour starts at the instant that has a value of its own, and so does the level after the
first; the level after two hours lies at the end of the longer segment. Given in halves, that segment
leaves every slot with its value, and no slot is without. -/
theorem hourMark_resolves :
    Grid.twoHours.Spans ⟨7200, 0⟩ ∧
      (Series.segments hourMark).flowValues Grid.twoHours "power" .power none = .ok [some 1, some 2] ∧
      (Series.segments hourMark).stateValues Grid.twoHours "power" .power none =
        .ok [some 2, some 1] ∧
      (Series.segments
          (⟨none, some "1970-01-01T00:00:00Z", some "1970-01-01T00:30:00Z", none, .number 1⟩ ::
            ⟨none, some "1970-01-01T00:30:00Z", some "1970-01-01T02:00:00Z", none, .number 1⟩ ::
              hourMark.tail)).flowValues Grid.twoHours "power" .power none = .ok [some 1, some 2] ∧
      ¬∃ fault, (Series.segments hourMark).required Grid.twoHours "power" .power = .error fault := by
  have hspans : Grid.twoHours.Spans ⟨7200, 0⟩ :=
    ⟨rfl, by decide, by decide, by decide, by decide, by decide, by decide⟩
  obtain ⟨hflow, hstate, -, hparts, hgaps, hwhole⟩ := segments_resolve (hourMark_reads "power" .power)
  obtain ⟨hstarts, hends⟩ := hwhole _ hspans
  have hvalues : (Series.segments hourMark).flowValues Grid.twoHours "power" .power none =
      .ok [some 1, some 2] := (hflow.trans (if_pos (.inr hstarts))).trans rfl
  refine ⟨hspans, hvalues, (hstate.trans (if_pos (.inr hends))).trans rfl, ?_, fun hfault => ?_⟩
  · obtain _ | ⟨hlong, -⟩ := hourMark_reads "power" .power
    rw [← hvalues]
    exact hparts [] _ _ _ ⟨1800, 0⟩ _ _ rfl hlong (by decide) (by decide)
      (Segment.reads_between (by decide +kernel) (by decide +kernel) (by decide) _ _ _ _)
      (Segment.reads_between (by decide +kernel) (by decide +kernel) (by decide) _ _ _ _)
  · obtain ⟨j, hj, hnone⟩ := ((hgaps rfl).1.mp hfault).resolve_left fun h => h (.inr hstarts)
    have hcovered : ∀ j < Grid.twoHours.len,
        (⟨(⟨0, 0⟩, ⟨7200, 0⟩), 1⟩ : Entry Float).Covers (Grid.twoHours.boundary j) := by
      decide
    exact hnone _ List.mem_cons_self (hcovered j hj)

/-- Two in the last second of the calendar. -/
def lastSecondMark : List (Segment Float) :=
  [⟨none, some "+262142-12-31T23:59:58", some "+262142-12-31T23:59:59", none, .number 2⟩]

/-- The first slot of the late grid ends within that second and the other beyond the calendar, so
there are no levels. -/
theorem lastSecondMark_crashes : lateGrid.Made ∧
    List.Forall₂ (fun s e => s.Reads lateGrid "soc-minima" .energy none e) lastSecondMark
      [⟨(⟨Instant.lastSecond - 1, 0⟩, ⟨Instant.lastSecond, 0⟩), 2⟩] ∧
    (Series.segments lastSecondMark).flowValues lateGrid "soc-minima" .energy none =
      .ok [none, some 2] ∧
    lateGrid.Has 1 ∧ ¬lateGrid.Has 2 ∧
    (Series.segments lastSecondMark).stateValues lateGrid "soc-minima" .energy none =
      .error .unrepresentable := by
  have hread : List.Forall₂ (fun s e => s.Reads lateGrid "soc-minima" .energy none e) lastSecondMark
      [⟨(⟨Instant.lastSecond - 1, 0⟩, ⟨Instant.lastSecond, 0⟩), 2⟩] :=
    .cons (Segment.reads_between (by decide +kernel) (by decide +kernel) (by decide) _ _ _ _) .nil
  refine ⟨lateGrid_made, hread, ?_, by decide, by decide, ?_⟩
  · exact ((flowValues_last hread).trans (if_pos (by decide))).trans rfl
  · rw [stateValues_last hread, if_neg (by decide)]

end Series

end Dispatch
