import Mathlib.Data.List.Nodup
import Dispatch.Problem
import Dispatch.Proofs.Checked
import Dispatch.Proofs.Exact.Series

/-! # What a checked problem promises

* `Grid.Made`: a grid that `Grid.make` returns, the only source of grids.
* `Stock.Sound`, `Device.Sound`, `Commitment.Sound`, `SiteLimits.Sound`, `Problem.Sound`: what the
  checks of a problem leave to rely on, over exact numbers.
* `Problem.sound_of_check`: a problem that passes its check is sound.

Real numbers behind the series of a sound problem have names of their own (`Device.low`,
`Stock.upShare`, …), so that later modules calculate in the reals.
-/

namespace Dispatch
set_option autoImplicit false

open Exact

/-! ## Grids -/

/-- The grid comes out of `Grid.make`. -/
def Grid.Made (g : Grid) : Prop :=
  ∃ start stop resolution zone,
    (Grid.make start stop resolution zone : Checked Unit Grid) = .ok g

theorem Grid.Made.wholeSeconds_pos {g : Grid} (h : g.Made) : 0 < g.resolution.wholeSeconds := by
  obtain ⟨start, stop, resolution, zone, h⟩ := h
  simp only [Grid.make] at h
  split_ifs at h with hres hstop hragged
  obtain rfl := Except.ok.inj h
  have hpos : 0 < resolution.nanos := Int.not_le.mp hres
  have hstep : resolution.wholeSeconds ≠ 0 := fun e => hragged (.inl e)
  have hnonneg : 0 ≤ resolution.wholeSeconds := Int.tdiv_nonneg hpos.le (by decide)
  show 0 < resolution.wholeSeconds
  omega

noncomputable def Grid.realHours (g : Grid) : ℝ := g.resolution.wholeSeconds / 3600

theorem Grid.hours_eq (g : Grid) : (g.hours : Exact) = num g.realHours := by
  rw [Grid.hours, ofInt_eq, ofNat_eq, num_div _ (by norm_num)]
  norm_num [Grid.realHours]

theorem Grid.Made.realHours_pos {g : Grid} (h : g.Made) : 0 < g.realHours := by
  have hpos : (0 : ℝ) < g.resolution.wholeSeconds := by exact_mod_cast h.wholeSeconds_pos
  unfold Grid.realHours
  positivity

/-- Two slots of a second and a half where the calendar has two seconds left. -/
def lateGrid : Grid := ⟨⟨Instant.lastSecond - 2, 0⟩, ⟨1500000000⟩, 2, .utc⟩

/-- Whole seconds are all that is compared of the span and of the slots. -/
theorem lateGrid_made : lateGrid.Made :=
  ⟨⟨Instant.lastSecond - 2, 0⟩, ⟨Instant.lastSecond, 0⟩, ⟨1500000000⟩, .utc, rfl⟩

/-! ## Stocks -/

namespace Stock

noncomputable def start (s : Stock Exact) : ℝ := s.initial.toReal

noncomputable def upShare (s : Stock Exact) (j : ℕ) : ℝ := (valueAt s.etaUp j).toReal

noncomputable def downShare (s : Stock Exact) (j : ℕ) : ℝ := (valueAt s.etaDown j).toReal

noncomputable def kept (s : Stock Exact) (j : ℕ) : ℝ := (valueAt s.retention j).toReal

/-- The change from outside. -/
noncomputable def drift (s : Stock Exact) (j : ℕ) : ℝ := (valueAt s.delta j).toReal

theorem isShare_iff (x : Exact) : isShare x = true ↔ ∃ r, x = num r ∧ 0 < r ∧ r ≤ 1 := by
  cases x with
  | num r => simp [isShare, zero_eq, one_eq]
  | inf | negInf | nan => simp [isShare, Scalar.gt, Scalar.lt, Exact.lt, Scalar.le, Exact.le]

structure SoundSlot (s : Stock Exact) (j : ℕ) : Prop where
  etaUp_eq : valueAt s.etaUp j = num (s.upShare j)
  upShare_pos : 0 < s.upShare j
  upShare_le : s.upShare j ≤ 1
  etaDown_eq : valueAt s.etaDown j = num (s.downShare j)
  downShare_pos : 0 < s.downShare j
  downShare_le : s.downShare j ≤ 1
  retention_eq : valueAt s.retention j = num (s.kept j)
  kept_pos : 0 < s.kept j
  kept_le : s.kept j ≤ 1
  delta_eq : valueAt s.delta j = num (s.drift j)
  target_eq : ∀ e, givenAt s.equals j = some e → e = num e.toReal
  min_le_max : Scalar.gt (valueAt s.min j) (valueAt s.max j) = false

structure Sound (s : Stock Exact) (len : ℕ) : Prop where
  initial_eq : s.initial = num s.start
  min_length : s.min.length = len
  max_length : s.max.length = len
  equals_length : s.equals.length = len
  slot : ∀ j < len, s.SoundSlot j

theorem soundSlot_of_check {s : Stock Exact} {j : ℕ} (h : s.checkSlot j = .ok ()) :
    s.SoundSlot j := by
  simp only [checkSlot] at h
  split_ifs at h with hrange hup hdown hkept hfinite
  rw [Bool.not_eq_true, Bool.not_eq_false'] at hup hdown hkept
  obtain ⟨u, hu, hu0, hu1⟩ := (isShare_iff _).mp hup
  obtain ⟨d, hd, hd0, hd1⟩ := (isShare_iff _).mp hdown
  obtain ⟨r, hr, hr0, hr1⟩ := (isShare_iff _).mp hkept
  rw [Bool.or_eq_true, not_or, Bool.not_eq_true, Bool.not_eq_true, Bool.not_eq_false',
    Bool.not_eq_false'] at hfinite
  have hu' : s.upShare j = u := by rw [upShare, hu, toReal_num]
  have hd' : s.downShare j = d := by rw [downShare, hd, toReal_num]
  have hr' : s.kept j = r := by rw [kept, hr, toReal_num]
  refine ⟨?_, ?_, ?_, ?_, ?_, ?_, ?_, ?_, ?_, ?_, ?_, ?_⟩
  · rw [hu, hu']
  · rwa [hu']
  · rwa [hu']
  · rw [hd, hd']
  · rwa [hd']
  · rwa [hd']
  · rw [hr, hr']
  · rwa [hr']
  · rwa [hr']
  · exact (num_toReal hfinite.1).symm
  · intro e he
    have he' := hfinite.2
    rw [he] at he'
    exact (num_toReal he').symm
  · simpa using hrange

/-- A stock passes when its series fit the horizon and every slot passes. -/
theorem check_eq_ok {s : Stock Exact} {len : ℕ} : s.check len = .ok () ↔
    (∀ n ∈ s.lengths, n = len) ∧ Scalar.isFinite s.initial = true ∧
      ∀ j < len, s.checkSlot j = .ok () := by
  have hlengths : s.lengths.any (· != len) = true ↔ ¬∀ n ∈ s.lengths, n = len := by
    simp [List.any_eq_true]
  rw [check]
  split_ifs with hlen hinit
  · exact iff_of_false nofun fun h => hlengths.mp hlen h.1
  · rw [Bool.not_eq_true'] at hinit
    exact iff_of_false nofun fun h => Bool.false_ne_true (hinit.symm.trans h.2.1)
  · rw [Bool.not_eq_true, Bool.not_eq_false'] at hinit
    rw [Checked.forM_range_eq_ok]
    exact ⟨fun h => ⟨not_not.mp (mt hlengths.mpr hlen), hinit, h⟩, fun h => h.2.2⟩

theorem sound_of_check {s : Stock Exact} {len : ℕ} (h : s.check len = .ok ()) : s.Sound len := by
  obtain ⟨hlen, hinit, hslots⟩ := check_eq_ok.mp h
  simp only [lengths, List.forall_mem_cons] at hlen
  exact ⟨(num_toReal hinit).symm, hlen.1, hlen.2.1, hlen.2.2.1,
    fun j hj => soundSlot_of_check (hslots j hj)⟩

end Stock

/-! ## Devices -/

namespace Device

noncomputable def low (d : Device Exact) (j : ℕ) : ℝ := (valueAt d.powerMin j).toReal

noncomputable def high (d : Device Exact) (j : ℕ) : ℝ := (valueAt d.powerMax j).toReal

structure Sound (d : Device Exact) (len : ℕ) : Prop where
  powerMin_length : d.powerMin.length = len
  powerMax_length : d.powerMax.length = len
  powerMin_eq : ∀ j < len, valueAt d.powerMin j = num (d.low j)
  powerMax_eq : ∀ j < len, valueAt d.powerMax j = num (d.high j)
  low_le_high : ∀ j < len, d.low j ≤ d.high j
  stock : ∀ s, d.stock = some s → s.Sound len

/-- A device passes when its bounds fit the horizon and every slot passes, and so does its stock. -/
theorem check_eq_ok {d : Device Exact} {len : ℕ} : d.check len = .ok () ↔
    (d.powerMin.length = len ∧ d.powerMax.length = len) ∧ (∀ j < len, d.checkSlot j = .ok ()) ∧
      ∀ s, d.stock = some s → s.check len = .ok () := by
  rw [check, Checked.mapError_eq_ok, checkSeries, Checked.guardThen_eq_ok, Bool.or_eq_true,
    bne_iff_ne, bne_iff_ne, not_or, not_not, not_not, Checked.bind_eq_ok]
  refine and_congr_right fun _ => ⟨?_, fun ⟨hslots, hstock⟩ => ?_⟩
  · rintro ⟨⟨⟩, hslots, hstock⟩
    exact ⟨Checked.forM_range_eq_ok.mp hslots, fun s hs => by rwa [hs] at hstock⟩
  · refine ⟨(), Checked.forM_range_eq_ok.mpr hslots, ?_⟩
    cases hs : d.stock with
    | none => rfl
    | some s => exact hstock s hs

theorem sound_of_check {d : Device Exact} {len : ℕ} (h : d.check len = .ok ()) :
    d.Sound len := by
  obtain ⟨hlen, hslots, hstock⟩ := check_eq_ok.mp h
  have hslot : ∀ j < len, valueAt d.powerMin j = num (d.low j) ∧
      valueAt d.powerMax j = num (d.high j) ∧ d.low j ≤ d.high j := by
    intro j hj
    have hj' := hslots j hj
    simp only [checkSlot] at hj'
    split_ifs at hj' with hfinite hrange
    rw [Bool.or_eq_true, not_or, Bool.not_eq_true, Bool.not_eq_true, Bool.not_eq_false',
      Bool.not_eq_false'] at hfinite
    have hlow : valueAt d.powerMin j = num (d.low j) := (num_toReal hfinite.1).symm
    have hhigh : valueAt d.powerMax j = num (d.high j) := (num_toReal hfinite.2).symm
    rw [hlow, hhigh, num_gt, decide_eq_true_eq, not_lt] at hrange
    exact ⟨hlow, hhigh, hrange⟩
  refine ⟨hlen.1, hlen.2, fun j hj => (hslot j hj).1, fun j hj => (hslot j hj).2.1,
    fun j hj => (hslot j hj).2.2, fun s hs => Stock.sound_of_check (hstock s hs)⟩

end Device

/-! ## Commitments -/

namespace Commitment

theorem mem_activeSlots {α : Type} {c : Commitment α} {j : ℕ} :
    j ∈ c.activeSlots ↔ ∃ q, c.quantity[j]? = some (some q) := by
  rw [activeSlots, List.mem_map]
  constructor
  · rintro ⟨⟨q, i⟩, hmem, rfl⟩
    obtain ⟨hmem, hsome⟩ := List.mem_filter.mp hmem
    obtain ⟨q', rfl⟩ := Option.isSome_iff_exists.mp hsome
    exact ⟨q', List.mem_zipIdx_iff_getElem?.mp hmem⟩
  · rintro ⟨q, hq⟩
    exact ⟨(some q, j), List.mem_filter.mpr ⟨List.mem_zipIdx_iff_getElem?.mpr hq, rfl⟩, rfl⟩

/-- What is measured against, in a slot. -/
noncomputable def level (c : Commitment Exact) (j : ℕ) : ℝ := (c.baseline j).toReal

noncomputable def upRate (c : Commitment Exact) (j : ℕ) : ℝ := (valueAt c.upPrice j).toReal

noncomputable def downRate (c : Commitment Exact) (j : ℕ) : ℝ := (valueAt c.downPrice j).toReal

structure Sound (c : Commitment Exact) (len : ℕ) : Prop where
  quantity_length : c.quantity.length = len
  slot_lt : ∀ j ∈ c.activeSlots, j < len
  baseline_eq : ∀ j ∈ c.activeSlots, c.baseline j = num (c.level j)
  upPrice_eq : ∀ j ∈ c.activeSlots, valueAt c.upPrice j = num (c.upRate j)
  downPrice_eq : ∀ j ∈ c.activeSlots, valueAt c.downPrice j = num (c.downRate j)
  any_prices : c.grouping = .any → ∀ g ∈ c.groups,
    Scalar.lt g.upPrice 0 = false ∧ Scalar.lt g.downPrice 0 = false
  device_of_stock : c.kind = .stock → c.device ≠ none

/-- A commitment passes when its series fit the horizon, a level has its device, the numbers of every
committed slot are finite, and one pair of deviations for the horizon has no negative price. -/
theorem check_eq_ok {c : Commitment Exact} {len : ℕ} : c.check len = .ok () ↔
    (c.quantity.length = len ∧ c.upPrice.length = len ∧ c.downPrice.length = len) ∧
      ¬(c.kind = .stock ∧ c.device = none) ∧ (∀ j ∈ c.activeSlots, c.slotFinite j = true) ∧
      ¬(c.grouping = .any ∧
        c.groups.any (fun g => Scalar.lt g.upPrice 0 || Scalar.lt g.downPrice 0) = true) := by
  have hfinite {j : ℕ} {e : CommitmentFault} :
      (if c.slotFinite j = true then Except.ok () else .error e) = Except.ok () ↔
        c.slotFinite j = true := by
    split_ifs with h
    · exact iff_of_true rfl h
    · exact iff_of_false nofun h
  rw [check, Checked.mapError_eq_ok, checkSeries, Checked.guardThen_eq_ok, Checked.guardThen_eq_ok,
    Checked.bind_eq_ok]
  simp only [Bool.or_eq_true, bne_iff_ne, not_or, not_not, and_assoc]
  refine and_congr_right fun _ => and_congr_right fun _ => and_congr_right fun _ =>
    and_congr_right fun _ => ⟨?_, fun ⟨hslots, hany⟩ => ?_⟩
  · rintro ⟨⟨⟩, hslots, hany⟩
    exact ⟨fun j hj => hfinite.mp (Checked.forM_eq_ok.mp hslots j hj), Checked.guard_eq_ok.mp hany⟩
  · exact ⟨(), Checked.forM_eq_ok.mpr fun j hj => hfinite.mpr (hslots j hj),
      Checked.guard_eq_ok.mpr hany⟩

theorem sound_of_check {c : Commitment Exact} {len : ℕ} (h : c.check len = .ok ()) :
    c.Sound len := by
  obtain ⟨hlen, hdevice, hfinite, hany⟩ := check_eq_ok.mp h
  simp only [slotFinite, Bool.and_eq_true] at hfinite
  refine ⟨hlen.1, ?_, ?_, ?_, ?_, ?_, ?_⟩
  · intro j hj
    obtain ⟨q, hq⟩ := mem_activeSlots.mp hj
    exact hlen.1 ▸ (List.getElem?_eq_some_iff.mp hq).1
  · exact fun j hj => (num_toReal (hfinite j hj).1.1).symm
  · exact fun j hj => (num_toReal (hfinite j hj).1.2).symm
  · exact fun j hj => (num_toReal (hfinite j hj).2).symm
  · intro hgroup g hg
    by_contra hno
    refine hany ⟨hgroup, List.any_eq_true.mpr ⟨g, hg, ?_⟩⟩
    by_contra hboth
    exact hno (by simpa using hboth)
  · exact fun hkind hnone => hdevice ⟨hkind, hnone⟩

end Commitment

/-! ## Site limits -/

namespace SiteLimits

structure Sound (s : SiteLimits Exact) (len : ℕ) : Prop where
  min_length : s.min.length = len
  max_length : s.max.length = len
  min_not_nan : ∀ j < len, Scalar.isNaN (valueAt s.min j) = false
  max_not_nan : ∀ j < len, Scalar.isNaN (valueAt s.max j) = false
  min_le_max : ∀ j < len, Scalar.gt (valueAt s.min j) (valueAt s.max j) = false

/-- Site limits pass when they fit the horizon and every slot passes. -/
theorem check_eq_ok {s : SiteLimits Exact} {len : ℕ} : s.check len = .ok () ↔
    (s.min.length = len ∧ s.max.length = len) ∧ ∀ j < len, s.checkSlot j = .ok () := by
  have hlengths : (s.min.length != len || s.max.length != len) = true ↔
      ¬(s.min.length = len ∧ s.max.length = len) := by
    rw [Bool.or_eq_true, bne_iff_ne, bne_iff_ne, not_and_or]
  rw [check, Checked.mapError_eq_ok]
  split_ifs with hlen
  · exact iff_of_false nofun fun h => hlengths.mp hlen h.1
  · rw [Checked.forM_range_eq_ok]
    exact ⟨fun h => ⟨not_not.mp (mt hlengths.mpr hlen), h⟩, fun h => h.2⟩

theorem sound_of_check {s : SiteLimits Exact} {len : ℕ} (h : s.check len = .ok ()) :
    s.Sound len := by
  obtain ⟨hlen, hslots⟩ := check_eq_ok.mp h
  have hslot : ∀ j < len, Scalar.isNaN (valueAt s.min j) = false ∧
      Scalar.isNaN (valueAt s.max j) = false ∧
      Scalar.gt (valueAt s.min j) (valueAt s.max j) = false := by
    intro j hj
    have hj' := hslots j hj
    simp only [checkSlot] at hj'
    split_ifs at hj' with hbad
    simpa [not_or, and_assoc] using hbad
  exact ⟨hlen.1, hlen.2, fun j hj => (hslot j hj).1, fun j hj => (hslot j hj).2.1,
    fun j hj => (hslot j hj).2.2⟩

end SiteLimits

/-! ## Problems -/

namespace Problem

/-- The device of a commitment is one of the problem, with a stock where a level is committed. -/
def Refers (p : Problem Exact) (c : Commitment Exact) : Prop :=
  ∀ id, c.device = some id → ∃ i d, p.committed? c = some i ∧ p.devices[i]? = some d ∧
    d.id = id ∧ (c.kind = .stock → d.stock.isSome = true)

structure Sound (p : Problem Exact) : Prop where
  len_pos : 0 < p.len
  devices_ne : p.devices ≠ []
  ids_nodup : (p.devices.map Device.id).Nodup
  device : ∀ d ∈ p.devices, d.Sound p.len
  site : p.site.Sound p.len
  commitment : ∀ c ∈ p.commitments, c.Sound p.len
  refers : ∀ c ∈ p.commitments, p.Refers c

section
variable {α : Type} [Scalar α]

theorem checkDevices_eq_ok {len : ℕ} {ds : List (Device α)} {seen : List String} :
    checkDevices len seen ds = .ok () ↔
      (∀ d ∈ ds, d.id ∉ seen) ∧ (ds.map Device.id).Nodup ∧ ∀ d ∈ ds, d.check len = .ok () := by
  induction ds generalizing seen with
  | nil => simp [checkDevices]
  | cons d ds ih =>
    rw [checkDevices, Checked.guardThen_eq_ok, Checked.bind_eq_ok, List.map_cons, List.nodup_cons,
      List.forall_mem_cons, List.forall_mem_cons, List.contains_iff_mem]
    have hids : d.id ∉ ds.map Device.id ↔ ∀ e ∈ ds, e.id ≠ d.id := by
      simp only [List.mem_map, not_exists, not_and, ne_eq]
    simp only [ih, List.mem_cons, not_or, forall_and, hids]
    constructor
    · rintro ⟨hseen, _, hd, ⟨hfresh, hrest⟩, hnodup, hsound⟩
      exact ⟨⟨hseen, hrest⟩, ⟨hfresh, hnodup⟩, hd, hsound⟩
    · rintro ⟨⟨hseen, hrest⟩, ⟨hfresh, hnodup⟩, hd, hsound⟩
      exact ⟨hseen, (), hd, ⟨hfresh, hrest⟩, hnodup, hsound⟩

theorem check_eq_ok {p : Problem α} :
    p.check = .ok () ↔ p.len ≠ 0 ∧ p.devices ≠ [] ∧ checkDevices p.len [] p.devices = .ok () ∧
      p.site.check p.len = .ok () ∧
      ∀ c ∈ p.commitments, c.check p.len = .ok () ∧ p.checkReference c = .ok () := by
  rw [check, Checked.guardThen_eq_ok, Checked.guardThen_eq_ok, Checked.bind_eq_ok,
    List.isEmpty_iff]
  refine and_congr_right fun _ => and_congr_right fun _ => ?_
  constructor
  · rintro ⟨_, hdevices, h⟩
    obtain ⟨_, hsite, h⟩ := Checked.bind_eq_ok.mp h
    refine ⟨hdevices, hsite, fun c hc => ?_⟩
    obtain ⟨_, hcheck, href⟩ := Checked.bind_eq_ok.mp (Checked.forM_eq_ok.mp h c hc)
    exact ⟨hcheck, href⟩
  · rintro ⟨hdevices, hsite, h⟩
    refine ⟨(), hdevices, Checked.bind_eq_ok.mpr ⟨(), hsite, Checked.forM_eq_ok.mpr fun c hc => ?_⟩⟩
    exact Checked.bind_eq_ok.mpr ⟨(), h c hc⟩

end

theorem refers_of_checkReference {p : Problem Exact} {c : Commitment Exact}
    (h : p.checkReference c = .ok ()) : p.Refers c := by
  intro id hid
  rw [checkReference, hid] at h
  simp only at h
  cases hfind : p.devices.find? (fun d => d.id == id) with
  | none => simp [hfind] at h
  | some d =>
    rw [hfind] at h
    simp only at h
    split_ifs at h with hstock
    obtain ⟨hd, i, hi, hget, hbefore⟩ := List.find?_eq_some_iff_getElem.mp hfind
    refine ⟨i, d, ?_, ?_, by simpa using hd, fun hkind => ?_⟩
    · rw [committed?, hid, Option.bind_some, deviceIndex?, List.findIdx?_eq_some_iff_getElem]
      exact ⟨hi, by rw [hget]; exact hd, fun k hk => by simpa using hbefore k hk⟩
    · rw [List.getElem?_eq_some_iff]
      exact ⟨hi, hget⟩
    · by_contra hnone
      exact hstock ⟨hkind, by simpa using hnone⟩

theorem sound_of_check {p : Problem Exact} (h : p.check = .ok ()) : p.Sound := by
  obtain ⟨hlen, hdevices, hcheck, hsite, hcommitments⟩ := check_eq_ok.mp h
  obtain ⟨-, hnodup, hsound⟩ := checkDevices_eq_ok.mp hcheck
  exact ⟨Nat.pos_of_ne_zero hlen, hdevices, hnodup,
    fun d hd => Device.sound_of_check (hsound d hd), SiteLimits.sound_of_check hsite,
    fun c hc => Commitment.sound_of_check (hcommitments c hc).1,
    fun c hc => refers_of_checkReference (hcommitments c hc).2⟩

end Problem

end Dispatch
