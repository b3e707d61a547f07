import Dispatch.Proofs.Checked
import Dispatch.Proofs.Problem.Sound
import Dispatch.Proofs.Program.Parts
import Dispatch.Program.Objective

/-! # How the program of a problem is laid out

* `Handles.deviceColumns`, `Handles.commitmentColumns`: the two ranges of columns.
* `Program.FitsOn`: values that respect the bounds of some columns and the rows about them alone.
* `Model.Built`: the columns come in these two ranges, and values are feasible just when they fit the
  devices, the site and the commitments.
* `Problem.model_eq_ok`: which problems have a model; `Problem.built_of_model_eq_ok`: every model is
  built so.
-/

namespace Dispatch
set_option autoImplicit false

variable {α : Type}

namespace Handles

/-- The columns of the devices, each with whether it is binary. -/
def deviceColumns (h : Handles α) : List (ℕ × Bool) := h.devices.flatMap DeviceColumns.owned

/-- The deviations of the commitments and their selectors. -/
def commitmentColumns (h : Handles α) : List (ℕ × Bool) :=
  h.commitments.flatMap CommitmentColumns.owned

end Handles

variable [Scalar α]
open Scalar Build

/-! ## Feasible values -/

namespace Program

/-- The values respect the bounds of some columns and every row that mentions no others. -/
def FitsOn (q : Program α) (columns : List ℕ) (values : ℕ → α) : Prop :=
  (∀ i c, q.columns.toList[i]? = some c → i ∈ columns → c.holds (values i) = true) ∧
    ∀ r ∈ q.rows.toList, (∀ t ∈ r.terms, t.1 ∈ columns) → r.holds values = true

theorem feasible_iff (q : Program α) (values : ℕ → α) :
    q.feasible values = true ↔
      HoldFrom 0 q.columns.toList values ∧ RowsHold q.rows.toList values := by
  rw [feasible, Bool.and_eq_true, List.all_eq_true, List.all_eq_true]
  refine and_congr ⟨fun h i c hi => ?_, fun h x hx => ?_⟩ Iff.rfl
  · rw [Nat.zero_add]
    exact h (c, i) (List.mem_zipIdx_iff_getElem?.mpr hi)
  · have := h x.2 x.1 (List.mem_zipIdx_iff_getElem?.mp hx)
    rwa [Nat.zero_add] at this

theorem fitsOn_of_feasible {q : Program α} {values : ℕ → α} (h : q.feasible values = true)
    (columns : List ℕ) : q.FitsOn columns values := by
  obtain ⟨hcolumns, hrows⟩ := (feasible_iff q values).mp h
  refine ⟨fun i c hi _ => ?_, fun r hr _ => hrows r hr⟩
  rw [← Nat.zero_add i]
  exact hcolumns i c hi

end Program

/-! ## The whole model -/

def DevicesHeld (p : Problem α) (margin : α) (h : Handles α) (values : ℕ → α) : Prop :=
  List.Forall₂ (fun d c => DeviceHeld p margin d c values) p.devices h.devices

def SitesHeld (p : Problem α) (h : Handles α) (values : ℕ → α) : Prop :=
  p.siteMembers ≠ [] → ∀ j < p.len, SiteHeld p h.devices j values

def CommitmentsHeld (p : Problem α) (margin : α) (h : Handles α) (values : ℕ → α) : Prop :=
  List.Forall₂ (fun c cols => CommitmentHeld p margin h.devices c cols values) p.commitments
    h.commitments

/-- What is known of the columns and rows of a model of `p`. -/
structure Model.Built (p : Problem α) (margin : α) (m : Model α) : Prop where
  members : m.handles.members = p.siteMembers
  devices : List.Forall₂ (DeviceShape p) p.devices m.handles.devices
  commitments : List.Forall₂ CommitmentShape p.commitments m.handles.commitments
  perm : (m.handles.deviceColumns ++ m.handles.commitmentColumns).Perm
    (numbered 0 m.draft.columns.toList)
  binary : OnlyBinary m.draft.columns.toList
  binaries : m.draft.binaries = m.draft.columns.toList.countP Column.integer
  mention : MentionBelow m.draft.columns.size m.draft.rows.toList
  feasible_iff : ∀ o values, (m.program o).feasible values = true ↔
    DevicesHeld p margin m.handles values ∧ SitesHeld p m.handles values ∧
      CommitmentsHeld p margin m.handles values
  fitsOn : ∀ o values, (m.program o).FitsOn (m.handles.deviceColumns.map Prod.fst) values →
    DevicesHeld p margin m.handles values ∧ SitesHeld p m.handles values
  congr : ∀ values values' : ℕ → α,
    (∀ i ∈ m.handles.deviceColumns.map Prod.fst, values i = values' i) →
    DevicesHeld p margin m.handles values ∧ SitesHeld p m.handles values →
    DevicesHeld p margin m.handles values' ∧ SitesHeld p m.handles values'

/-- No column is a device's and a commitment's, or has two places with either. -/
theorem Model.Built.nodup {p : Problem α} {margin : α} {m : Model α} (hb : m.Built p margin) :
    ((m.handles.deviceColumns ++ m.handles.commitmentColumns).map Prod.fst).Nodup := by
  rw [(hb.perm.map Prod.fst).nodup_iff, numbered_fst]
  exact List.nodup_range'

/-! ## Every model is built so -/

namespace Build

/-- Values that agree on the columns up to `k` fit the same. -/
theorem holds_congr {n k : ℕ} {columns : List (Column α)} {rows : List (Row α)}
    (hk : k = n + columns.length) (hrows : MentionBelow k rows) {values values' : ℕ → α}
    (h : ∀ i < k, values i = values' i) (hold : HoldFrom n columns values ∧ RowsHold rows values) :
    HoldFrom n columns values' ∧ RowsHold rows values' := by
  refine ⟨fun i c hi => ?_, fun r hr => ?_⟩
  · have hlt : i < columns.length := (List.getElem?_eq_some_iff.mp hi).1
    rw [← h (n + i) (by omega)]
    exact hold.1 i c hi
  · have hvalue : LinExpr.valueOf values' r.terms = LinExpr.valueOf values r.terms := by
      rw [LinExpr.valueOf, LinExpr.valueOf]
      congr 1
      refine List.map_congr_left fun t ht => ?_
      show t.2 * values' t.1 = t.2 * values t.1
      rw [h t.1 (hrows r hr t ht)]
    have := hold.2 r hr
    rw [Row.holds, ← hvalue] at this
    exact this

end Build

theorem devicesBelow_of_owned {n : ℕ} {devices : List DeviceColumns}
    (h : ∀ i ∈ (devices.flatMap DeviceColumns.owned).map Prod.fst, i < n) :
    DevicesBelow n devices := by
  intro c hc i hi
  obtain ⟨x, hx, rfl⟩ := List.mem_map.mp hi
  exact h _ (List.mem_map.mpr ⟨x, List.mem_flatMap.mpr ⟨c, hc, hx⟩, rfl⟩)

/-- The first device has a column for its first slot. -/
theorem pos_of_shapes {p : Problem α} {n : ℕ} {devices : List DeviceColumns}
    (hshapes : List.Forall₂ (DeviceShape p) p.devices devices) (hdevices : p.devices ≠ [])
    (hlen : 0 < p.len) (hbelow : DevicesBelow n devices) : 0 < n := by
  obtain ⟨d, ds, hd⟩ := List.exists_cons_of_ne_nil hdevices
  obtain ⟨c, cs, hc, -, rfl⟩ := List.forall₂_cons_left_iff.mp (hd ▸ hshapes)
  obtain ⟨i, is, hi⟩ : ∃ i is, c.up = i :: is :=
    List.exists_cons_of_length_pos (hc.up_length.symm ▸ hlen)
  refine Nat.lt_of_le_of_lt (Nat.zero_le i) (hbelow c List.mem_cons_self i ?_)
  simp [DeviceColumns.owned, hi]

theorem buildHandles_built (p : Problem α) (margin : α) (hlen : 0 < p.len)
    (hdevices : p.devices ≠ []) :
    Model.Built p margin ⟨((buildHandles p margin).run .empty).2,
      ((buildHandles p margin).run .empty).1⟩ := by
  obtain ⟨k, devices, hshapes, hadds⟩ := Adds.mapM (s := 0) p.devices
    (fun d _ n _ => adds_buildDevice p margin d n) 0 le_rfl
  have howned : ∀ i, i ∈ (devices.flatMap DeviceColumns.owned).map Prod.fst ↔ i < k := fun i => by
    rw [hadds.mem_owned]
    omega
  have hbelow : DevicesBelow k devices := devicesBelow_of_owned fun i hi => (howned i).mp hi
  have hk : 0 < k := pos_of_shapes hshapes hdevices hlen hbelow
  obtain ⟨n, commitments, hcshapes, hcadds⟩ := Adds.mapM (s := k) p.commitments
    (fun c _ n hn => adds_buildCommitment p margin c hbelow hn) k le_rfl
  -- The draft, in the order of its parts: devices, site, commitments. The site adds no columns.
  obtain ⟨columns, rows, he, hcount, hperm, hbinary, hmention, hfits⟩ := hadds.added
  obtain ⟨columns', rows', he', hcount', -, -, hmention', hfits'⟩ :=
    (adds_buildSite p hk hbelow).added
  obtain ⟨links, linkRows, hlink, hcount'', hperm', hbinary', hmention'', hlinkFits⟩ := hcadds.added
  obtain rfl : columns' = [] := List.eq_nil_of_length_eq_zero (by omega)
  have hrun : (buildHandles p margin).run .empty =
      (⟨devices, commitments, p.siteMembers⟩,
        ⟨(columns ++ links).toArray, (rows ++ (rows' ++ linkRows)).toArray,
          (columns ++ links).countP Column.integer⟩) := by
    subst hcount
    have hall : Emits (buildHandles p margin) 0 (⟨devices, commitments, p.siteMembers⟩ : Handles α)
        (columns ++ ([] ++ (links ++ []))) (rows ++ (rows' ++ (linkRows ++ []))) :=
      Emits.bind he (Emits.bind he' (Emits.bind hlink (emits_pure _ _)))
    have := hall .empty rfl
    simpa [Draft.empty] using this
  have hnumbered : (devices.flatMap DeviceColumns.owned ++
      commitments.flatMap CommitmentColumns.owned).Perm (numbered 0 (columns ++ links)) := by
    rw [numbered_append, ← hcount]
    exact hperm.append hperm'
  have hsize : n = (columns ++ links).length := by
    rw [List.length_append, hcount'', hcount, Nat.zero_add]
  have hrows : MentionBelow (columns ++ links).length (rows ++ (rows' ++ linkRows)) := by
    rw [← hsize, mentionBelow_append, mentionBelow_append]
    exact ⟨hmention.mono hcadds.le, hmention'.mono hcadds.le, hmention''⟩
  rw [hrun]
  refine ⟨rfl, hshapes, hcshapes, hnumbered, onlyBinary_append.mpr ⟨hbinary, hbinary'⟩, rfl,
    hrows, fun o values => ?_, fun o values h => ?_, fun values values' hagree h => ?_⟩
  · rw [Program.feasible_iff]
    simp only [Model.program, holdFrom_append, rowsHold_append]
    rw [Nat.zero_add, ← (by omega : k = columns.length)]
    constructor
    · rintro ⟨⟨h1, h2⟩, h3, h4, h5⟩
      exact ⟨(hfits values).mp ⟨h1, h3⟩, (hfits' values).mp ⟨holdFrom_nil _ _, h4⟩,
        (hlinkFits values).mp ⟨h2, h5⟩⟩
    · rintro ⟨h1, h2, h3⟩
      obtain ⟨h1, h1'⟩ := (hfits values).mpr h1
      obtain ⟨-, h2'⟩ := (hfits' values).mpr h2
      obtain ⟨h3, h3'⟩ := (hlinkFits values).mpr h3
      exact ⟨⟨h1, h3⟩, h1', h2', h3'⟩
  · obtain ⟨hcolumns, hfit⟩ := h
    have hrow {r : Row α} (hr : r ∈ rows ++ (rows' ++ linkRows)) (ht : ∀ t ∈ r.terms, t.1 < k) :
        r.holds values = true := hfit r hr fun t h => (howned t.1).mpr (ht t h)
    refine ⟨(hfits values).mp ⟨fun i c hi => ?_, fun r hr => ?_⟩,
      (hfits' values).mp ⟨holdFrom_nil _ _, fun r hr => ?_⟩⟩
    · have hlt : i < columns.length := (List.getElem?_eq_some_iff.mp hi).1
      rw [Nat.zero_add]
      refine hcolumns i c ?_ ((howned i).mpr (by omega))
      simpa [Model.program, List.getElem?_append_left hlt] using hi
    · exact hrow (List.mem_append_left _ hr) (hmention r hr)
    · exact hrow (List.mem_append_right _ (List.mem_append_left _ hr)) (hmention' r hr)
  · have hagree' : ∀ i < k, values i = values' i := fun i hi => hagree i ((howned i).mpr hi)
    exact ⟨(hfits values').mp (holds_congr (by omega) hmention hagree' ((hfits values).mpr h.1)),
      (hfits' values').mp (holds_congr (by simp) hmention' hagree' ((hfits' values).mpr h.2))⟩

namespace Problem

theorem model_eq_ok {p : Problem α} {margin : α} {m : Model α} :
    p.model margin = .ok m ↔ p.check = .ok () ∧ (ge margin 0 && isFinite margin) = true ∧
      m = ⟨((buildHandles p margin).run .empty).2, ((buildHandles p margin).run .empty).1⟩ := by
  rw [model, Checked.bind_eq_ok]
  obtain ⟨handles, draft⟩ := (buildHandles p margin).run .empty
  by_cases h : (ge margin 0 && isFinite margin) = true
  · simp only [h, if_true, true_and, Checked.pure_eq_ok]
    constructor
    · rintro ⟨_, hcheck, hm⟩
      exact ⟨hcheck, hm.symm⟩
    · rintro ⟨hcheck, hm⟩
      exact ⟨(), hcheck, hm.symm⟩
  · simp only [h, Bool.false_eq_true, if_false, false_and, and_false]
    simp

theorem built_of_model_eq_ok {p : Problem α} {margin : α} {m : Model α}
    (hm : p.model margin = .ok m) : p.check = .ok () ∧ m.Built p margin := by
  obtain ⟨hcheck, -, rfl⟩ := model_eq_ok.mp hm
  obtain ⟨hlen, hdevices, -⟩ := check_eq_ok.mp hcheck
  exact ⟨hcheck, buildHandles_built p margin (Nat.pos_of_ne_zero hlen) hdevices⟩

end Problem

end Dispatch
