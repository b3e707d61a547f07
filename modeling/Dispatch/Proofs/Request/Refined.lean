import Dispatch.Proofs.Request.LeastBill
import Dispatch.Proofs.Series.Segments
import Dispatch.Proofs.Stock.Decays
import Dispatch.Proofs.Stock.Splitting

/-! # Storages on finer grids

* `Grid.SplitInto`: a grid with `k` equal slots in the place of each slot.
* `StorageModel.Held`: what is stated of a storage does not change within the slots of a grid.
* `heldThrough_constant`, `heldThrough_segments`: constants do not, nor do segments that begin and end
  between slots.
* `StorageReading.Repeats.partsOf`: the stock of a storage on the finer grid is the one with the parts
  of its slots.
* `Stock.levels_refined`: continuous decay leads to the same levels on a finer grid.
-/

namespace Dispatch
set_option autoImplicit false

open Exact Scalar Warned

/-! ## Finer grids -/

/-- Every slot of the first grid is as long as `k` slots of the second one. -/
structure Grid.SplitInto (g : Grid) (k : ℕ) (g' : Grid) : Prop where
  seconds : g.resolution.wholeSeconds = k * g'.resolution.wholeSeconds
  len : g'.len = k * g.len

/-- The slots of the second grid cut those of the first one where they are. -/
structure Grid.Refines (g : Grid) (k : ℕ) (g' : Grid) : Prop extends g.SplitInto k g' where
  start : g'.start = g.start
  zone : g'.zone = g.zone
  nanos : g.resolution.nanos = k * g'.resolution.nanos

variable {k : ℕ} {g g' : Grid}

theorem Grid.SplitInto.realHours_eq (h : g.SplitInto k g') : g.realHours = k * g'.realHours := by
  rw [Grid.realHours, Grid.realHours, h.seconds]
  push_cast
  ring

theorem Grid.SplitInto.hours_eq (hk : 0 < k) (h : g.SplitInto k g') :
    (g'.hours : Exact) = g.hours / ofNat k := by
  have hcast : (k : ℝ) ≠ 0 := Nat.cast_ne_zero.mpr hk.ne'
  rw [Grid.hours_eq, Grid.hours_eq, h.realHours_eq, ofNat_eq, num_div _ hcast,
    mul_div_cancel_left₀ _ hcast]

/-! ## Series that hold through a slot -/

/-- The finer slots have the values of the slots that they are part of. -/
def HeldThrough (k : ℕ) (g g' : Grid) (s : Option (Series Exact)) (field : String)
    (expected : Dimension) : Prop :=
  ∀ xs, statedValues g s field expected = .ok xs → statedValues g' s field expected = .ok (spread k xs)

/-- What the level of a storage depends on holds through the slots. -/
structure StorageModel.Held (m : StorageModel Exact) (name : String) (k : ℕ) (g g' : Grid) : Prop where
  charging : HeldThrough k g g' m.chargingEfficiency (fieldOf name "charging-efficiency") .ratio
  discharging : HeldThrough k g g' m.dischargingEfficiency (fieldOf name "discharging-efficiency") .ratio
  hourly : HeldThrough k g g' m.storageEfficiency (fieldOf name "storage-efficiency") .ratio
  gain : HeldThrough k g g' m.socGain (fieldOf name "soc-gain") .power
  usage : HeldThrough k g g' m.socUsage (fieldOf name "soc-usage") .power

theorem heldThrough_none (h : g.SplitInto k g') (field : String) (expected : Dimension) :
    HeldThrough k g g' none field expected := by
  rintro xs hxs
  obtain rfl := Except.ok.inj hxs
  rw [spread_replicate, ← h.len]
  rfl

theorem heldThrough_constant (h : g.SplitInto k g') (a : Amount Exact) (field : String)
    (expected : Dimension) : HeldThrough k g g' (some (.constant a)) field expected := by
  rintro xs hxs
  obtain ⟨v, hv, hxs⟩ := Checked.bind_eq_ok.mp hxs
  obtain rfl := Checked.pure_eq_ok.mp hxs
  rw [spread_replicate, ← h.len]
  exact flowValues_constant hv g'

/-! ## Segments between slots -/

/-- The interval of the entry begins and ends outside the slot, and is no single instant. -/
structure Entry.Whole (g : Grid) (j : ℕ) (e : Entry Exact) : Prop where
  proper : e.bounds.1 < e.bounds.2
  starts : e.bounds.1 ≤ g.boundary j ∨ g.boundary (j + 1) ≤ e.bounds.1
  stops : e.bounds.2 ≤ g.boundary j ∨ g.boundary (j + 1) ≤ e.bounds.2

theorem Entry.Whole.covers_iff {e : Entry Exact} {j : ℕ} (h : e.Whole g j) {t : Instant}
    (hfrom : g.boundary j ≤ t) (hto : t < g.boundary (j + 1)) :
    e.Covers t ↔ e.Covers (g.boundary j) := by
  obtain ⟨hproper, hstarts, hstops⟩ := h
  have hends : e.bounds.1 ≠ e.bounds.2 := fun h => Instant.lt_irrefl _ (h ▸ hproper)
  simp only [Entry.Covers, hends, false_and, or_false]
  simp only [Instant.le_iff, Instant.lt_iff] at hfrom hto hproper hstarts hstops ⊢
  omega

/-- The parts of a slot start within it. -/
theorem Grid.Refines.boundary_mem (h : g.Refines k g') (hg : g.Regular) (hg' : g'.Regular)
    (hnanos : g.start.nanos < 1000000000) {i j : ℕ} (hi : i < k) (hj : j < g.len) :
    g.boundary j ≤ g'.boundary (k * j + i) ∧ g'.boundary (k * j + i) < g.boundary (j + 1) := by
  have hpart : k * j + i ≤ g'.len := by
    have hgroups : k * (j + 1) ≤ k * g.len := Nat.mul_le_mul_left k hj
    rw [h.len]
    rw [Nat.mul_succ] at hgroups
    omega
  obtain ⟨hfrom, hfrom'⟩ := hg.boundary_count hnanos (Nat.le_of_lt hj)
  obtain ⟨hto, hto'⟩ := hg.boundary_succ hj
  obtain ⟨hat, hat'⟩ := hg'.boundary_count (h.start ▸ hnanos) hpart
  have hpace := hg'.second_le
  have hless : (i : ℤ) * g'.resolution.nanos < k * g'.resolution.nanos :=
    Int.mul_lt_mul_of_pos_right (Int.ofNat_lt.mpr hi) (by omega)
  have hnonneg : 0 ≤ (i : ℤ) * g'.resolution.nanos := Int.mul_nonneg (by omega) (by omega)
  rw [Instant.le_iff_count hfrom hat, Instant.lt_iff_count hat hto, hfrom', hto', hat', h.start, h.nanos]
  push_cast
  constructor
  · linarith
  · linarith

/-- Segments that begin and end between slots hold through the slots. -/
theorem heldThrough_segments (h : g.Refines k g') (hg : g.Regular) (hg' : g'.Regular)
    (hnanos : g.start.nanos < 1000000000) {items : List (Segment Exact)}
    {entries : List (Entry Exact)} {field : String} {expected : Dimension}
    (hread : List.Forall₂ (fun s e => s.Reads g field expected none e) items entries)
    (hwhole : ∀ e ∈ entries, ∀ j < g.len, e.Whole g j) :
    HeldThrough k g g' (some (.segments items)) field expected := by
  rintro xs hxs
  have hread' : List.Forall₂ (fun s e => s.Reads g' field expected none e) items entries :=
    hread.imp fun s e hs => ⟨h.zone ▸ hs.bounds, hs.value⟩
  have hcoarse := (Series.flowValues_last hread).trans (if_pos (.inr hg.representable.hasStarts))
  have hfine := (Series.flowValues_last hread').trans (if_pos (.inr hg'.representable.hasStarts))
  obtain rfl := Except.ok.inj (hcoarse.symm.trans hxs)
  refine hfine.trans (congrArg Except.ok ?_)
  rw [Grid.slots, Grid.slots, h.len]
  refine map_range_mul g.len fun j hj i hi => ?_
  obtain ⟨hfrom, hto⟩ := h.boundary_mem hg hg' hnanos hi hj
  unfold Entry.last
  refine congrArg (fun es => (List.getLast? es).map Entry.value) (List.filter_congr fun e he => ?_)
  simp only [(hwhole e he j hj).covers_iff hfrom hto]

/-! ## The stock on the finer grid -/

/-- The second reading says the same as the first, of the slots that each slot is cut into. -/
structure StorageReading.Repeats (k : ℕ) (x x' : StorageReading) : Prop where
  initial : x'.initial = x.initial
  roundtrip : x'.roundtrip = x.roundtrip
  mode : x'.mode = x.mode
  charging : x'.charging = spread k x.charging
  discharging : x'.discharging = spread k x.discharging
  hourly : x'.hourly = spread k x.hourly
  gain : x'.gain = spread k x.gain
  usage : x'.usage = spread k x.usage

theorem StorageModel.States.repeats {m : StorageModel Exact} {name : String} {x x' : StorageReading}
    (h : m.States g name x) (h' : m.States g' name x') (hheld : m.Held name k g g') : x.Repeats k x' := by
  have hcapacity : x'.capacity = x.capacity := Except.ok.inj (h'.capacity.symm.trans h.capacity)
  have hinitial := h'.initial
  rw [hcapacity] at hinitial
  exact {
    initial := Except.ok.inj (hinitial.symm.trans h.initial)
    roundtrip := Except.ok.inj (h'.roundtrip.symm.trans h.roundtrip)
    mode := h'.mode.trans h.mode.symm
    charging := Except.ok.inj (h'.charging.symm.trans (hheld.charging _ h.charging))
    discharging := Except.ok.inj (h'.discharging.symm.trans (hheld.discharging _ h.discharging))
    hourly := Except.ok.inj (h'.hourly.symm.trans (hheld.hourly _ h.hourly))
    gain := Except.ok.inj (h'.gain.symm.trans (hheld.gain _ h.gain))
    usage := Except.ok.inj (h'.usage.symm.trans (hheld.usage _ h.usage)) }

namespace StorageReading
variable {x x' : StorageReading}

/-- The hourly retention to the power of a part of the slot is the root of that to the power of the
slot. -/
theorem Repeats.partsOf (h : x.Repeats k x') (hk : 0 < k) (hsplit : g.SplitInto k g') {j : ℕ}
    (hkept : 0 ≤ valueAt (x'.stock g').retention (k * j)) :
    Stock.PartsOf k (x.stock g) (x'.stock g') j where
  etaUp i hi := by
    simp only [stock, h.charging, h.roundtrip, spread_map]
    exact valueAt_spread _ hi j
  etaDown i hi := by
    simp only [stock, h.discharging, h.roundtrip, spread_map]
    exact valueAt_spread _ hi j
  retention i hi := by
    have hslot (i : ℕ) (hi : i < k) : valueAt (x'.stock g').retention (k * j + i) =
        valueAt ((x.hourly.map (·.getD 1)).map fun q => Scalar.pow q g'.hours) j := by
      simp only [stock, h.hourly, spread_map]
      exact valueAt_spread _ hi j
    rw [← Nat.add_zero (k * j), hslot 0 hk] at hkept
    rw [hslot i hi, stock]
    generalize x.hourly.map (·.getD 1) = hourly at hkept ⊢
    rcases Nat.lt_or_ge j hourly.length with hj | hj
    · rw [valueAt_map hj, Grid.hours_eq] at hkept ⊢
      rw [valueAt_map hj, Grid.hours_eq, hsplit.realHours_eq, root_pow hk _ _ hkept]
    · have hbeyond (f : Exact → Exact) : valueAt (hourly.map f) j = 0 :=
        List.getD_eq_default _ _ (by simpa using hj)
      rw [hbeyond, hbeyond, zero_eq, root_zero hk]
  delta i hi := by
    have hcast : (0 : ℝ) < k := Nat.cast_pos.mpr hk
    have hzero : (0 : Exact) / ofNat k = 0 := by
      rw [zero_eq, ofNat_eq, num_div _ hcast.ne', zero_div]
    have hdelta : (x'.stock g').delta = spread k ((x.stock g).delta.map (· / ofNat k)) := by
      simp only [stock, h.gain, h.usage, spread_map, spread_zipWith, List.map_zipWith,
        hsplit.hours_eq hk, ofNat_eq, Exact.mul_div hcast]
    rw [hdelta]
    exact valueAt_spread_map hzero _ hi j

end StorageReading

/-! ## A battery that leaks by the hour -/

/-- Of what is in the battery an hour keeps a quarter. -/
noncomputable def leakyModel : StorageModel Exact :=
  { batteryModel with
    efficiencyMode := none
    storageEfficiency := some (.constant (.number (num (1 / (4 : ℕ))))) }

theorem leakyModel_yields (g : Grid) (t : Tariffs Exact) (sooner : Bool) :
    ∃ d cs, (leakyModel.device g "battery" t sooner).Yields (d, cs) := by
  have hdynamics (s : Stock Exact) : ∃ s', leakyModel.dynamics g "battery" s = .ok s' := by
    simp [StorageModel.dynamics, leakyModel, batteryModel, optionalAmount, StorageModel.seriesOr,
      valuesOr_number, bind, Except.bind, pure, Except.pure]
  have hband : ∃ band, leakyModel.powerBand g "battery" = .ok band := by
    simp [StorageModel.powerBand, leakyModel, batteryModel, optionalSeries, required_number,
      TimeWindow.mask, TimeWindow.markFrom, bind, Except.bind, pure, Except.pure]
  have hcapacity : leakyModel.capacity "battery" = .ok none := rfl
  choose stock hstock using hdynamics
  obtain ⟨⟨powerMin, powerMax⟩, hband⟩ := hband
  simp only [StorageModel.device, hstock, hband, hcapacity, Warned.lift_ok, pure_bind]
  exact ⟨_, _, [], [], rfl⟩

theorem leakyModel_held (h : g.SplitInto k g') : leakyModel.Held "battery" k g g' where
  charging := heldThrough_constant h _ _ _
  discharging := heldThrough_none h _ _
  hourly := heldThrough_constant h _ _ _
  gain := heldThrough_none h _ _
  usage := heldThrough_none h _ _

theorem leakyModel_retention {t : Tariffs Exact} {sooner : Bool} {d : Device Exact}
    {cs : List (Commitment Exact)} (h : (leakyModel.device g "battery" t sooner).Yields (d, cs))
    {s : Stock Exact} (hs : d.stock = some s) :
    s.retention = List.replicate g.len (Scalar.pow (num (1 / 4)) g.hours) := by
  obtain ⟨x, -, -, -, hstates, -, -, -, rfl, -⟩ := StorageModel.parts_of_device h
  obtain rfl : x.stock g = s := Option.some.inj hs
  have hhourly : x.hourly = List.replicate g.len (some (num (1 / 4))) :=
    Except.ok.inj (hstates.hourly.symm.trans
      (flowValues_constant (resolve_number (num (1 / 4)) _ _ none) g))
  simp only [StorageReading.stock, hhourly, List.map_replicate, Option.getD_some]

/-- The hour from midnight on, in two halves. -/
def halfHours : Grid := ⟨⟨0, 0⟩, ⟨1800000000000⟩, 2, .utc⟩

theorem oneHour_splitInto : Problem.oneHour.SplitInto 2 halfHours where
  seconds := by decide
  len := rfl

theorem farSlot_quarter {s : Stock Exact} (h : valueAt s.retention 0 = num (1 / 4)) : s.FarSlot 2 0 := by
  have hroot : root 2 (num (1 / 4)) = num (1 / 2) := by
    have hsquare : (1 / 4 : ℝ) = (1 / 2) ^ 2 := by norm_num
    rw [hsquare, root_pow_num two_pos (by norm_num)]
  rw [Stock.FarSlot, h, hroot, farFromOne_num, farFromOne_num]
  norm_num

/-! ## Levels on the finer grid -/

namespace Stock

/-- Continuous decay does not depend on the resolution: `k` equal parts of a slot that keep the root of
what it keeps, and take in their part of its change, lead to the same level. So do the slots of a refined
grid, as the hourly retention is raised to the power of their length. Negative powers of it are excluded,
as every check excludes them: that of a part may be negative where that of the slot is not. -/
theorem levels_refined {k : ℕ} (hk : 0 < k) :
    (∀ (s : Stock Exact) (hours : Exact) (flows : List Exact), s.mode = .linear →
      ∀ j < flows.length, (∀ i ≤ j, s.FarSlot k i) →
        valueAt ((s.split k).replay (spread k flows) (hours / ofNat k)) (k * j + (k - 1)) =
          valueAt (s.replay flows hours) j) ∧
    ∀ (m : StorageModel Exact) (name : String) (g g' : Grid) (tariffs tariffs' : Tariffs Exact)
      (sooner : Bool) (d d' : Device Exact) (cs cs' : List (Commitment Exact)),
      m.efficiencyMode.getD .linear = .linear → g.SplitInto k g' → m.Held name k g g' →
      (m.device g name tariffs sooner).Yields (d, cs) →
      (m.device g' name tariffs' sooner).Yields (d', cs') →
      ∃ s s', d.stock = some s ∧ d'.stock = some s' ∧
        ∀ (flows : List Exact), ∀ j < flows.length,
          (∀ i ≤ j, s.FarSlot k i ∧ 0 ≤ valueAt s'.retention (k * i)) →
          valueAt (s'.replay (spread k flows) g'.hours) (k * j + (k - 1)) =
            valueAt (s.replay flows g.hours) j := by
  refine ⟨fun s hours flows hmode j hj hfar => ?_, ?_⟩
  · have hmode' : (s.split k).mode = .linear := hmode
    exact replay_spread hk hmode hmode' rfl (fun i hi => ⟨s.split_partsOf hk i, hfar i hi⟩) hj
  · intro m name g g' tariffs tariffs' sooner d d' cs cs' hmode hsplit hheld hd hd'
    obtain ⟨x, -, -, -, hstates, -, -, -, rfl, -⟩ := StorageModel.parts_of_device hd
    obtain ⟨x', -, -, -, hstates', -, -, -, rfl, -⟩ := StorageModel.parts_of_device hd'
    have hrepeats := hstates.repeats hstates' hheld
    have hlinear : x.mode = .linear := hstates.mode.trans hmode
    have hinitial : x'.start = x.start := congrArg (·.getD 0) hrepeats.initial
    refine ⟨x.stock g, x'.stock g', rfl, rfl, fun flows j hj hslots => ?_⟩
    rw [hsplit.hours_eq hk]
    refine replay_spread hk hlinear (hrepeats.mode.trans hlinear) hinitial (fun i hi => ?_) hj
    obtain ⟨hfar, hkept⟩ := hslots i hi
    exact ⟨hrepeats.partsOf hk hsplit hkept, hfar⟩

/-- Two half hours of charging lead where one hour leads. -/
theorem halved_hour :
    valueAt (((leakyStock (1 / 4)).split 2).replay (spread 2 [num 1]) (num 1 / ofNat 2)) 1 =
      valueAt ((leakyStock (1 / 4)).replay [num 1] (num 1)) 0 ∧
    ∃ d d' cs cs' s s',
      (leakyModel.device Problem.oneHour "battery" ⟨[num 0], [num 0]⟩ false).Yields (d, cs) ∧
      (leakyModel.device halfHours "battery" ⟨[num 0, num 0], [num 0, num 0]⟩ false).Yields (d', cs') ∧
      d.stock = some s ∧ d'.stock = some s' ∧
      valueAt (s'.replay (spread 2 [num 1]) halfHours.hours) 1 =
        valueAt (s.replay [num 1] Problem.oneHour.hours) 0 := by
  obtain ⟨hparts, hgrids⟩ := levels_refined two_pos
  refine ⟨hparts (leakyStock (1 / 4)) (num 1) [num 1] rfl 0 one_pos fun i hi => ?_, ?_⟩
  · obtain rfl := Nat.le_zero.mp hi
    exact farSlot_quarter rfl
  · obtain ⟨d, cs, hd⟩ := leakyModel_yields Problem.oneHour ⟨[num 0], [num 0]⟩ false
    obtain ⟨d', cs', hd'⟩ := leakyModel_yields halfHours ⟨[num 0, num 0], [num 0, num 0]⟩ false
    obtain ⟨s, s', hs, hs', hlevels⟩ := hgrids leakyModel "battery" _ _ _ _ _ _ _ _ _ rfl
      oneHour_splitInto (leakyModel_held oneHour_splitInto) hd hd'
    refine ⟨d, d', cs, cs', s, s', hd, hd', hs, hs', hlevels [num 1] 0 one_pos fun i hi => ?_⟩
    obtain rfl := Nat.le_zero.mp hi
    have hwhole : valueAt s.retention 0 = num (1 / 4) := by
      have hlen : 0 < Problem.oneHour.len := one_pos
      rw [leakyModel_retention hd hs, valueAt_replicate hlen, oneHour_hours, pow_one_eq]
    have hhalf : 0 ≤ valueAt s'.retention 0 := by
      have hlen : 0 < halfHours.len := two_pos
      rw [leakyModel_retention hd' hs', valueAt_replicate hlen, Grid.hours_eq, pow_of_pos (by norm_num),
        zero_eq, num_le_num]
      exact Real.rpow_nonneg (by norm_num) _
    exact ⟨farSlot_quarter hwhole, hhalf⟩

end Stock

end Dispatch
