import Dispatch.Proofs.Program.CostSplit

/-! # Which columns a program has

* `Handles.columns`, `Handles.selectors`: all columns that the handles hold, and the selectors among
  them.
* `Handles.Index`: these are the columns of a program, each held once, the selectors are its binary
  columns, and nothing in the program mentions another column.
* `CommitmentColumns.Shares`: the groups of a commitment share out the slots that it commits.
* `Problem.handles_index`: the handles of every model are such an index of its program, whatever the
  preference.

Each action of the build owns the columns that it adds (`Build.Adds`), so the columns owned altogether
are the numbers of the columns from 0 on, in another order.
-/

namespace Dispatch
set_option autoImplicit false

variable {α : Type}

/-! ## The columns of the handles -/

namespace DeviceColumns

/-- Both halves of the flow, the selectors and the levels. -/
def columns (c : DeviceColumns) : List ℕ :=
  c.up ++ c.down ++ c.selector.reduceOption ++ c.stock.getD []

theorem owned_fst (c : DeviceColumns) : c.owned.map Prod.fst = c.columns := by
  simp [owned, columns, Function.comp_def]

theorem owned_selectors (c : DeviceColumns) :
    (c.owned.filter Prod.snd).map Prod.fst = c.selector.reduceOption := by
  simp [owned, List.filter_map, Function.comp_def]

end DeviceColumns

namespace GroupColumns

/-- Both deviations, and the selector if there is one. -/
def columns (g : GroupColumns α) : List ℕ := g.up :: g.down :: g.selector.toList

theorem owned_fst (g : GroupColumns α) : g.owned.map Prod.fst = g.columns := by
  simp [owned, columns, Function.comp_def]

theorem owned_selectors (g : GroupColumns α) :
    (g.owned.filter Prod.snd).map Prod.fst = g.selector.toList := by
  simp [owned, List.filter_map, Function.comp_def]

end GroupColumns

namespace Handles

def columns (h : Handles α) : List ℕ :=
  h.devices.flatMap DeviceColumns.columns ++
    h.commitments.flatMap fun c => c.groups.flatMap GroupColumns.columns

def selectors (h : Handles α) : List ℕ :=
  (h.devices.flatMap fun c => c.selector.reduceOption) ++
    h.commitments.flatMap fun c => c.groups.flatMap fun g => g.selector.toList

/-- The columns of all parts, each with whether it is binary. -/
def owned (h : Handles α) : List (ℕ × Bool) := h.deviceColumns ++ h.commitmentColumns

theorem owned_fst (h : Handles α) : h.owned.map Prod.fst = h.columns := by
  simp only [owned, deviceColumns, commitmentColumns, CommitmentColumns.owned, List.map_append,
    List.map_flatMap, DeviceColumns.owned_fst, GroupColumns.owned_fst, columns]

theorem owned_selectors (h : Handles α) : (h.owned.filter Prod.snd).map Prod.fst = h.selectors := by
  simp only [owned, deviceColumns, commitmentColumns, CommitmentColumns.owned, List.filter_append,
    List.filter_flatMap, List.map_append, List.map_flatMap, DeviceColumns.owned_selectors,
    GroupColumns.owned_selectors, selectors]

theorem mem_selectors {h : Handles α} {i : ℕ} : i ∈ h.selectors ↔ (i, true) ∈ h.owned := by
  rw [← owned_selectors, List.mem_map]
  constructor
  · rintro ⟨⟨_, b⟩, hmem, rfl⟩
    obtain ⟨hmem, hb⟩ := List.mem_filter.mp hmem
    obtain rfl : b = true := hb
    exact hmem
  · exact fun hmem => ⟨(i, true), List.mem_filter.mpr ⟨hmem, rfl⟩, rfl⟩

theorem mem_columns_of_deviation {h : Handles α} {i : ℕ} (hi : i ∈ h.deviations) : i ∈ h.columns := by
  rw [← owned_fst, owned, List.map_append]
  exact List.mem_append_right _ (h.subperm_deviations.subset hi)

theorem length_selectors (h : Handles α) : h.selectors.length = h.owned.countP Prod.snd := by
  rw [← owned_selectors, List.length_map, List.countP_eq_length_filter]

end Handles

theorem mem_numbered {cs : List (Column α)} {i : ℕ} {b : Bool} :
    (i, b) ∈ numbered 0 cs ↔ ∃ c, cs[i]? = some c ∧ c.integer = b := by
  rw [numbered, List.mem_map]
  constructor
  · rintro ⟨⟨c, k⟩, hmem, heq⟩
    obtain ⟨rfl, rfl⟩ := Prod.mk.inj heq
    exact ⟨c, List.mem_zipIdx_iff_getElem?.mp hmem, rfl⟩
  · rintro ⟨c, hc, rfl⟩
    exact ⟨(c, i), List.mem_zipIdx_iff_getElem?.mpr hc, rfl⟩

theorem countP_numbered (cs : List (Column α)) :
    (numbered 0 cs).countP Prod.snd = cs.countP Column.integer := by
  rw [numbered, List.countP_map]
  conv_rhs => rw [← List.zipIdx_map_fst 0 cs, List.countP_map]
  rfl

/-! ## An index of a program -/

section
variable [Scalar α]

/-- Every column of the program is held once, the binary ones as selectors. -/
structure Handles.Index (h : Handles α) (q : Program α) : Prop where
  nodup : h.columns.Nodup
  mem_columns : ∀ i, i ∈ h.columns ↔ i < q.columns.size
  mem_selectors : ∀ i, i ∈ h.selectors ↔ ∃ c, q.columns[i]? = some c ∧ c.integer = true
  binary : ∀ i ∈ h.selectors, q.columns[i]? = some .binary
  integerCount : q.integerCount = h.selectors.length
  rows : ∀ r ∈ q.rows, ∀ t ∈ r.terms, t.1 ∈ h.columns
  objective : ∀ t ∈ q.objective.terms, t.1 ∈ h.columns

/-- The groups hold the committed slots in order, each slot once: a group of its own for every slot, or
one group for all of them. -/
structure CommitmentColumns.Shares (cols : CommitmentColumns α) (c : Commitment α) : Prop where
  name : cols.name = c.name
  slots : cols.groups.flatMap GroupColumns.slots = c.activeSlots
  nodup : (cols.groups.flatMap GroupColumns.slots).Nodup
  mem_slots : ∀ j, j ∈ cols.groups.flatMap GroupColumns.slots ↔
    ∃ quantity, c.quantity[j]? = some (some quantity)
  each : c.grouping = .each → cols.groups.map GroupColumns.slots = c.activeSlots.map fun j => [j]
  any : c.grouping = .any → cols.groups.length ≤ 1

omit [Scalar α] in
theorem Commitment.nodup_activeSlots (c : Commitment α) : c.activeSlots.Nodup := by
  have hindices : (c.quantity.zipIdx.map Prod.snd).Nodup := by
    rw [List.zipIdx_map_snd]
    exact List.nodup_range'
  exact hindices.sublist (List.filter_sublist.map Prod.snd)

theorem Commitment.flatMap_slots (c : Commitment α) :
    c.groups.flatMap DeviationGroup.slots = c.activeSlots := by
  rw [groups]
  cases c.grouping with
  | each => simp only [List.flatMap_map, List.flatMap_singleton']
  | any =>
    by_cases hempty : c.activeSlots = []
    · simp [hempty]
    · simp [hempty]

theorem CommitmentShape.map_slots {c : Commitment α} {cols : CommitmentColumns α}
    (h : CommitmentShape c cols) :
    cols.groups.map GroupColumns.slots = c.groups.map DeviationGroup.slots := by
  have hpairs : List.Forall₂ (· = ·) (cols.groups.map GroupColumns.slots)
      (c.groups.map DeviationGroup.slots) :=
    List.forall₂_map_left_iff.mpr (List.forall₂_map_right_iff.mpr
      (h.groups.flip.imp fun _ _ hg => hg.slots))
  rwa [List.forall₂_eq_eq_eq] at hpairs

theorem CommitmentShape.shares {c : Commitment α} {cols : CommitmentColumns α}
    (h : CommitmentShape c cols) : cols.Shares c := by
  have hslots : cols.groups.flatMap GroupColumns.slots = c.activeSlots := by
    rw [List.flatMap_def, h.map_slots, ← List.flatMap_def, c.flatMap_slots]
  refine ⟨h.name, hslots, hslots ▸ c.nodup_activeSlots, fun j => ?_, fun hgrouping => ?_,
    fun hgrouping => ?_⟩
  · rw [hslots, Commitment.mem_activeSlots]
  · rw [h.map_slots, Commitment.groups]
    simp only [hgrouping, List.map_map]
    rfl
  · rw [← h.groups.length_eq, Commitment.groups]
    simp only [hgrouping]
    split_ifs
    · exact Nat.zero_le 1
    · exact le_rfl

/-! ## The handles of a model -/

namespace Model.Built
variable {p : Problem α} {margin : α} {m : Model α}

theorem perm_columns (hb : m.Built p margin) :
    m.handles.columns.Perm (List.range m.draft.columns.size) := by
  have hperm := hb.perm.map Prod.fst
  rw [numbered_fst, ← List.range_eq_range', Array.length_toList] at hperm
  exact m.handles.owned_fst ▸ hperm

theorem mem_selectors (hb : m.Built p margin) (i : ℕ) :
    i ∈ m.handles.selectors ↔ ∃ c, m.draft.columns[i]? = some c ∧ c.integer = true := by
  rw [Handles.mem_selectors, Handles.owned, hb.perm.mem_iff, mem_numbered]
  simp only [Array.getElem?_toList]

theorem binary_of_selector (hb : m.Built p margin) {i : ℕ} (hi : i ∈ m.handles.selectors) :
    m.draft.columns[i]? = some .binary := by
  obtain ⟨c, hc, hinteger⟩ := (hb.mem_selectors i).mp hi
  rw [← Array.getElem?_toList] at hc
  rw [← Array.getElem?_toList, hc, hb.binary c (List.mem_of_getElem? hc) hinteger]

theorem integerCount_eq (hb : m.Built p margin) :
    m.draft.binaries = m.handles.selectors.length := by
  rw [hb.binaries, Handles.length_selectors, Handles.owned, hb.perm.countP_eq, countP_numbered]

/-- Both halves of a preferred flow are columns of their device. -/
theorem mem_of_preferredHalf (hb : m.Built p margin) {column : ℕ}
    (h : p.PreferredHalf m.handles column) : column ∈ m.handles.columns := by
  obtain ⟨i, d, c, hd, hc, -, -, j, hj, hcolumn⟩ := h
  have hshape : DeviceShape p d c := (List.forall₂_iff_zip.mp hb.devices).2
    (List.mem_of_getElem? (List.getElem?_zip_eq_some.mpr ⟨hd, hc⟩))
  have howned : column ∈ c.owned.map Prod.fst := by
    rcases hcolumn with rfl | rfl
    · exact hshape.up_mem hj
    · exact hshape.down_mem hj
  rw [DeviceColumns.owned_fst] at howned
  exact List.mem_append_left _ (List.mem_flatMap.mpr ⟨c, List.mem_of_getElem? hc, howned⟩)

theorem mem_of_biasTerm (hb : m.Built p margin) {t : TieBreak α} {beta : α} {x : ℕ × α}
    (hx : x ∈ p.biasTerms t beta m.handles.devices) : x.1 ∈ m.handles.columns :=
  hb.mem_of_preferredHalf (Problem.preferredHalf_of_mem hx)

theorem index (hb : m.Built p margin) (t : TieBreak α) :
    m.handles.Index (m.program (Objective.compose p m.handles t)) where
  nodup := hb.perm_columns.nodup_iff.mpr List.nodup_range
  mem_columns i := by
    rw [hb.perm_columns.mem_iff, List.mem_range]
    rfl
  mem_selectors := hb.mem_selectors
  binary i hi := hb.binary_of_selector hi
  integerCount := hb.integerCount_eq
  rows r hr x hx := by
    rw [hb.perm_columns.mem_iff, List.mem_range]
    exact hb.mention r (Array.mem_toList_iff.mpr hr) x hx
  objective x hx := by
    obtain ⟨y, hy, heq⟩ := mem_foldl_addTerm (k := id) hx
    rw [List.nil_append] at hy
    rw [← heq]
    rcases List.mem_append.mp hy with hy | hy
    · exact Handles.mem_columns_of_deviation (List.mem_map.mpr ⟨y, hy, rfl⟩)
    · exact hb.mem_of_biasTerm hy

end Model.Built

namespace Problem

/-- The handles of a model are an index of its program, whatever the preference. They go through the
devices and the commitments in order: every device has both halves of its flow in every slot, a selector
just where both may flow, and a level in every slot if it has a stock; and the groups of a commitment
share out its slots. -/
theorem handles_index {p : Problem α} {margin : α} {m : Model α} (hm : p.model margin = .ok m)
    (t : TieBreak α) :
    m.handles.Index (m.program (Objective.compose p m.handles t)) ∧
      (∀ x ∈ (Objective.compose p m.handles t).biasTerms, x.1 ∈ m.handles.columns) ∧
      List.Forall₂ (DeviceShape p) p.devices m.handles.devices ∧
      List.Forall₂ (fun c cols => cols.Shares c) p.commitments m.handles.commitments := by
  obtain ⟨-, hb⟩ := built_of_model_eq_ok hm
  exact ⟨hb.index t, fun _ => hb.mem_of_biasTerm, hb.devices,
    hb.commitments.imp fun _ _ h => h.shares⟩

end Problem

end

namespace Problem
open Exact

/-- The battery has a selector for its flow, and another for the site whose import and export would earn
money together. -/
theorem oneBattery_index : ∃ m, oneBattery.model (num 1) = .ok m ∧
    m.handles.Index (m.program (Objective.compose oneBattery m.handles .standard)) := by
  obtain ⟨m, hm, -⟩ := exists_built oneBattery_check zero_le_one
  exact ⟨m, hm, (handles_index hm .standard).1⟩

end Problem

end Dispatch
