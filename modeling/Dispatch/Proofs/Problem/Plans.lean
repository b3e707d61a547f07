import Dispatch.Proofs.Stock.Trajectory

/-! # Plans of a problem

* `Stock.Keeps`: a level within the limits of its slot and on its target.
* `Problem.Admits`: flows that respect the power band of every device, keep every replayed level and
  leave the site within its limits.
* `Problem.ProperBounds`: limits that are numbers, or infinite on the side where they are none.

A plan gives every device, by its place in the problem, a flow for every slot. `oneBattery` is a small
problem with a plan, `idle` one on any grid.
-/

namespace Dispatch
set_option autoImplicit false

open Exact Scalar

/-! ## Levels -/

namespace Stock

/-- The level is within the limits of the slot, and on its target if it has one. -/
structure Keeps (s : Stock Exact) (j : ℕ) (level : Exact) : Prop where
  low : s.initial + valueAt s.min j ≤ level
  high : level ≤ s.initial + valueAt s.max j
  target : ∀ e, givenAt s.equals j = some e → level = s.initial + e

/-- No limit is NaN, and an infinite one is none. -/
def ProperBounds (s : Stock Exact) (j : ℕ) : Prop :=
  (Scalar.isFinite (valueAt s.min j) = true ∨ valueAt s.min j = negInfinity) ∧
    (Scalar.isFinite (valueAt s.max j) = true ∨ valueAt s.max j = infinity)

end Stock

/-! ## Whole plans -/

namespace Problem

def series (p : Problem Exact) (flow : ℕ → ℝ) : List Exact := p.grid.slots.map fun j => num (flow j)

noncomputable def siteFlow (p : Problem Exact) (flow : ℕ → ℕ → ℝ) (j : ℕ) : ℝ :=
  (p.siteMembers.map fun i => flow i j).sum

/-- The levels that the flows of a device lead to; zero for a device without a stock. -/
noncomputable def replayed (p : Problem Exact) (flow : ℕ → ℕ → ℝ) (i j : ℕ) : ℝ :=
  match p.devices[i]?.bind Device.stock with
  | some s => (valueAt (s.replay (p.series (flow i)) p.hours) j).toReal
  | none => 0

structure Admits (p : Problem Exact) (flow : ℕ → ℕ → ℝ) : Prop where
  band : ∀ i d, p.devices[i]? = some d → ∀ j < p.len,
    valueAt d.powerMin j ≤ num (flow i j) ∧ num (flow i j) ≤ valueAt d.powerMax j
  stock : ∀ i (d : Device Exact) (s : Stock Exact), p.devices[i]? = some d → d.stock = some s →
    ∀ j < p.len, s.Keeps j (valueAt (s.replay (p.series (flow i)) p.hours) j)
  site : p.siteMembers ≠ [] → ∀ j < p.len,
    valueAt p.site.min j ≤ num (p.siteFlow flow j) ∧ num (p.siteFlow flow j) ≤ valueAt p.site.max j

/-- No limit is NaN, and an infinite one is none. -/
structure ProperBounds (p : Problem Exact) : Prop where
  stock : ∀ d ∈ p.devices, ∀ s, d.stock = some s → ∀ j < p.len, s.ProperBounds j
  site : ∀ j < p.len,
    (Scalar.isFinite (valueAt p.site.min j) = true ∨ valueAt p.site.min j = negInfinity) ∧
      (Scalar.isFinite (valueAt p.site.max j) = true ∨ valueAt p.site.max j = infinity)

noncomputable def realHours (p : Problem Exact) : ℝ := p.grid.realHours

theorem hours_eq (p : Problem Exact) : p.hours = num p.realHours := p.grid.hours_eq

/-! ## Plans in real numbers -/

theorem valueAt_series (p : Problem Exact) (flow : ℕ → ℝ) {j : ℕ} (hj : j < p.len) :
    valueAt (p.series flow) j = num (flow j) := valueAt_range hj _

theorem Sound.device_of_get {p : Problem Exact} (h : p.Sound) {i : ℕ} {d : Device Exact}
    (hd : p.devices[i]? = some d) : d.Sound p.len := h.device d (List.mem_of_getElem? hd)

theorem Sound.valueAt_replay {p : Problem Exact} (h : p.Sound) {i j : ℕ} {d : Device Exact}
    {s : Stock Exact} (hd : p.devices[i]? = some d) (hs : d.stock = some s) (flow : ℕ → ℝ)
    (hj : j < p.len) :
    valueAt (s.replay (p.series flow) p.hours) j = num (s.path p.realHours flow (j + 1)) := by
  rw [hours_eq]
  exact Stock.valueAt_replay ((h.device_of_get hd).stock s hs) p.realHours flow hj

theorem Sound.replayed_eq {p : Problem Exact} (h : p.Sound) {i j : ℕ} {d : Device Exact}
    {s : Stock Exact} (hd : p.devices[i]? = some d) (hs : d.stock = some s) (flow : ℕ → ℕ → ℝ)
    (hj : j < p.len) : p.replayed flow i j = s.path p.realHours (flow i) (j + 1) := by
  simp only [replayed, hd, Option.bind_some, hs]
  rw [h.valueAt_replay hd hs _ hj, toReal_num]

theorem Sound.band_iff {p : Problem Exact} (h : p.Sound) {i j : ℕ} {d : Device Exact}
    (hd : p.devices[i]? = some d) (hj : j < p.len) (flow : ℝ) :
    (valueAt d.powerMin j ≤ num flow ∧ num flow ≤ valueAt d.powerMax j) ↔ d.InBand j flow := by
  have hsound := h.device_of_get hd
  rw [hsound.powerMin_eq j hj, hsound.powerMax_eq j hj, num_le_num, num_le_num]
  rfl

theorem mem_siteMembers {p : Problem Exact} {i : ℕ} :
    i ∈ p.siteMembers ↔ ∃ d, p.devices[i]? = some d ∧ d.onSite = true := by
  rw [siteMembers, List.mem_map]
  constructor
  · rintro ⟨⟨d, i'⟩, hmem, rfl⟩
    obtain ⟨hmem, hsite⟩ := List.mem_filter.mp hmem
    exact ⟨d, List.mem_zipIdx_iff_getElem?.mp hmem, hsite⟩
  · rintro ⟨d, hd, hsite⟩
    exact ⟨(d, i), List.mem_filter.mpr ⟨List.mem_zipIdx_iff_getElem?.mpr hd, hsite⟩, rfl⟩

theorem siteDevices_eq (p : Problem Exact) :
    (p.devices.filter fun d => d.onSite) =
      (p.devices.zipIdx.filter fun x => x.1.onSite).map Prod.fst := by
  conv_lhs => rw [← List.zipIdx_map_fst 0 p.devices, List.filter_map]
  rfl

theorem siteFlow_congr {p : Problem Exact} {flow flow' : ℕ → ℕ → ℝ} {j : ℕ}
    (h : ∀ i < p.devices.length, flow i j = flow' i j) : p.siteFlow flow j = p.siteFlow flow' j := by
  rw [siteFlow, siteFlow]
  congr 1
  refine List.map_congr_left fun i hi => ?_
  obtain ⟨d, hd, -⟩ := mem_siteMembers.mp hi
  exact h i (List.getElem?_eq_some_iff.mp hd).1

/-! ## One battery -/

def oneHour : Grid := ⟨⟨0, 0⟩, ⟨3600000000000⟩, 1, .utc⟩

theorem oneHour_made : oneHour.Made :=
  ⟨⟨0, 0⟩, ⟨3600, 0⟩, ⟨3600000000000⟩, .utc, rfl⟩

/-- A battery that is not quite full, over one hour. -/
noncomputable def batteryStock : Stock Exact where
  initial := num 1
  min := [num (-1)]
  max := [inf]
  equals := [none]
  etaUp := [num (1 / (2 : ℕ))]
  etaDown := [num 1]
  retention := [num 1]
  delta := [num 0]
  mode := .perfect

noncomputable def battery : Device Exact where
  id := "battery"
  powerMin := [num (-1)]
  powerMax := [num 1]
  stock := some batteryStock
  onSite := true
  chargeSooner := false

/-- Leaving a flow of zero on both sides at once would earn money. -/
noncomputable def oneBattery : Problem Exact where
  grid := oneHour
  devices := [battery]
  commitments := [.siteFlow "import" [some (num 0)] [num 0] [num (-1)] .each]
  site := ⟨[negInf], [num 1]⟩

/-- The stock of the battery with a lower limit and a target of its own. -/
noncomputable def limitedStock (low : ℝ) (target : Option ℝ) : Stock Exact :=
  { batteryStock with min := [num low], equals := [target.map num] }

noncomputable def limitedBattery (low : ℝ) (target : Option ℝ) (sooner : Bool) : Device Exact :=
  { battery with stock := some (limitedStock low target), chargeSooner := sooner }

/-- The battery passes with any lower limit and target, under any decay. -/
theorem batteryStock_check (low : Exact) (target : Option ℝ) {mode : Decay} {r : ℝ}
    (hlow : gt low inf = false) (h0 : 0 < r) (h1 : r ≤ 1) :
    Stock.check { batteryStock with
      min := [low], equals := [target.map num], mode := mode, retention := [num r] } 1 = .ok () := by
  refine Stock.check_eq_ok.mpr ⟨by simp [Stock.lengths, batteryStock], rfl, fun j hj => ?_⟩
  have hshare : (0 : ℝ) < 2⁻¹ ∧ (2 : ℝ)⁻¹ ≤ 1 := by norm_num
  rw [Nat.lt_one_iff.mp hj]
  cases target <;> simp [Stock.checkSlot, batteryStock, valueAt, givenAt, Stock.isShare, zero_eq,
    one_eq, hlow, hshare, h0, h1]

theorem battery_check {s : Stock Exact} (hs : s.check 1 = .ok ()) (sooner : Bool) :
    Device.check { battery with stock := some s, chargeSooner := sooner } 1 = .ok () := by
  refine Device.check_eq_ok.mpr ⟨⟨rfl, rfl⟩, fun j hj => ?_, fun _ hs' => Option.some.inj hs' ▸ hs⟩
  have hle : ¬(1 : ℝ) < -1 := by norm_num
  simp [Nat.lt_one_iff.mp hj, Device.checkSlot, battery, valueAt, hle]

theorem limitedBattery_check (low : ℝ) (target : Option ℝ) (sooner : Bool) :
    (limitedBattery low target sooner).check 1 = .ok () :=
  battery_check (batteryStock_check (num low) target rfl one_pos le_rfl) sooner

/-- One committed slot with prices of its own passes, whatever its numbers. -/
theorem oneSlot_check {c : Commitment Exact} {q up down : ℝ} (hquantity : c.quantity = [some (num q)])
    (hup : c.upPrice = [num up]) (hdown : c.downPrice = [num down]) (hgrouping : c.grouping = .each)
    (hdevice : ¬(c.kind = .stock ∧ c.device = none)) : c.check 1 = .ok () := by
  refine Commitment.check_eq_ok.mpr ⟨by simp [hquantity, hup, hdown], hdevice, fun j hj => ?_, ?_⟩
  · obtain ⟨q', hq'⟩ := Commitment.mem_activeSlots.mp hj
    have hlt : j < 1 := by simpa [hquantity] using (List.getElem?_eq_some_iff.mp hq').1
    simp [Nat.lt_one_iff.mp hlt, Commitment.slotFinite, Commitment.baseline, hquantity, hup, hdown,
      valueAt, givenAt]
  · rw [hgrouping]
    rintro ⟨⟨⟩, -⟩

/-- One device over one hour, on the site of the battery. -/
theorem oneHour_check {d : Device Exact} {cs : List (Commitment Exact)} (hd : d.check 1 = .ok ())
    (hcs : ∀ c ∈ cs, c.check 1 = .ok () ∧
      checkReference ⟨oneHour, [d], cs, ⟨[negInf], [num 1]⟩⟩ c = .ok ()) :
    check ⟨oneHour, [d], cs, ⟨[negInf], [num 1]⟩⟩ = .ok () := by
  have hsite : (SiteLimits.mk [negInf] [num 1]).check 1 = .ok () := by
    have hrange : gt negInf (num 1) = false := rfl
    have hnumber : Scalar.isNaN negInf = false := rfl
    refine SiteLimits.check_eq_ok.mpr ⟨⟨rfl, rfl⟩, fun j hj => ?_⟩
    simp [Nat.lt_one_iff.mp hj, SiteLimits.checkSlot, valueAt, hrange, hnumber]
  have hdevices : checkDevices 1 [] [d] = .ok () := by
    simp [checkDevices, hd, bind, Except.bind]
  exact check_eq_ok.mpr ⟨one_ne_zero, List.cons_ne_nil _ _, hdevices, hsite, hcs⟩

theorem oneBattery_check : oneBattery.check = .ok () := by
  refine oneHour_check (limitedBattery_check (-1) none false) fun c hc => ?_
  rw [List.mem_singleton.mp hc]
  exact ⟨oneSlot_check rfl rfl rfl rfl nofun, rfl⟩

theorem oneBattery_properBounds : oneBattery.ProperBounds := by
  refine ⟨fun d hd s hs j hj => ?_, fun j hj => ?_⟩
  · obtain rfl := List.mem_singleton.mp hd
    obtain rfl := Option.some.inj hs
    obtain rfl : j = 0 := Nat.lt_one_iff.mp hj
    exact ⟨.inl rfl, .inr rfl⟩
  · obtain rfl : j = 0 := Nat.lt_one_iff.mp hj
    exact ⟨.inr rfl, .inl rfl⟩

theorem limitedStock_path_idle (hours low : ℝ) (target : Option ℝ) :
    (limitedStock low target).path hours (fun _ => 0) 1 = 1 := by
  have hcarry : (limitedStock low target).carry 0 = 1 := by
    simp [Stock.carry, Stock.coefficients, Decay.coefficients, losslessMargin, limitedStock,
      batteryStock, valueAt, one_eq]
  have hdrift : (limitedStock low target).drift 0 = 0 := rfl
  rw [Stock.path, Stock.path, Stock.step, hcarry, Stock.realChange, hdrift, upHalf, downHalf,
    max_self, min_self]
  simp [Stock.start, limitedStock, batteryStock]

theorem batteryStock_path_idle (hours : ℝ) : batteryStock.path hours (fun _ => 0) 1 = 1 :=
  limitedStock_path_idle hours (-1) none

/-- The battery may stand idle whatever is charged for, if its limits leave the level it has. -/
theorem limitedBattery_admits_idle {low : ℝ} {sooner : Bool} {cs : List (Commitment Exact)}
    (hcheck : check ⟨oneHour, [limitedBattery low none sooner], cs, ⟨[negInf], [num 1]⟩⟩ = .ok ())
    (hlow : low ≤ 0) :
    Admits ⟨oneHour, [limitedBattery low none sooner], cs, ⟨[negInf], [num 1]⟩⟩ fun _ _ => 0 := by
  have hp := sound_of_check hcheck
  refine ⟨fun i d hd j hj => ?_, fun i d s hd hs j hj => ?_, fun _ j hj => ?_⟩
  · obtain rfl : j = 0 := Nat.lt_one_iff.mp hj
    obtain rfl := List.mem_singleton.mp (List.mem_of_getElem? hd)
    refine ⟨(num_le_num (-1) 0).mpr ?_, (num_le_num 0 1).mpr ?_⟩ <;> norm_num
  · rw [hp.valueAt_replay hd hs _ hj]
    obtain rfl : j = 0 := Nat.lt_one_iff.mp hj
    obtain rfl := List.mem_singleton.mp (List.mem_of_getElem? hd)
    obtain rfl := Option.some.inj hs
    rw [limitedStock_path_idle]
    refine ⟨(num_le_num (1 + low) 1).mpr ?_, num_le_inf 1, fun e he => ?_⟩
    · linarith
    · cases he
  · obtain rfl : j = 0 := Nat.lt_one_iff.mp hj
    have hsite : siteFlow ⟨oneHour, [limitedBattery low none sooner], cs, ⟨[negInf], [num 1]⟩⟩
        (fun _ _ => 0) 0 = 0 := by simp [siteFlow]
    rw [hsite]
    exact ⟨negInf_le_num 0, (num_le_num 0 1).mpr (by norm_num)⟩

theorem oneBattery_admits_idle : oneBattery.Admits fun _ _ => 0 :=
  limitedBattery_admits_idle oneBattery_check (by norm_num)

end Problem

/-! ## A battery on any grid -/

theorem Stock.ideal_check (x : ℝ) (n : ℕ) : (Stock.ideal (num x) n).check n = .ok () := by
  have hbounds : (negInfinity : Exact) = negInf ∧ (infinity : Exact) = inf := ⟨rfl, rfl⟩
  have hrange : gt negInf inf = false := rfl
  have hslot : ∀ j < n, (Stock.ideal (num x) n).checkSlot j = .ok () := fun j hj => by
    simp [Stock.checkSlot, Stock.ideal, valueAt_replicate hj, givenAt_replicate hj, Stock.isShare,
      hrange, hbounds, one_eq, zero_eq]
  exact Stock.check_eq_ok.mpr ⟨by simp [Stock.lengths, Stock.ideal], rfl, hslot⟩

theorem SiteLimits.unbounded_check (n : ℕ) :
    (SiteLimits.unbounded n : SiteLimits Exact).check n = .ok () := by
  refine SiteLimits.check_eq_ok.mpr ⟨⟨List.length_replicate, List.length_replicate⟩, fun j hj => ?_⟩
  simp only [SiteLimits.checkSlot, SiteLimits.unbounded, valueAt_replicate hj]
  rfl

namespace Problem
variable {g : Grid}

noncomputable def idleBattery (n : ℕ) : Device Exact where
  id := "battery"
  powerMin := List.replicate n (num (-1))
  powerMax := List.replicate n (num 1)
  stock := some (Stock.ideal (num 1) n)
  onSite := true
  chargeSooner := false

noncomputable def importPrice (n : ℕ) : Commitment Exact :=
  .siteFlow "import" (List.replicate n (some (num 0))) (List.replicate n (num 1))
    (List.replicate n (num 1)) .each

/-- A battery that may stand still, on any grid. -/
noncomputable def idle (g : Grid) : Problem Exact where
  grid := g
  devices := [idleBattery g.len]
  commitments := [importPrice g.len]
  site := .unbounded g.len

theorem idleBattery_check (n : ℕ) : (idleBattery n).check n = .ok () := by
  have hslot : ∀ j < n, (idleBattery n).checkSlot j = .ok () := fun j hj => by
    have hle : ¬(1 : ℝ) < -1 := by norm_num
    simp [Device.checkSlot, idleBattery, valueAt_replicate hj, hle]
  exact Device.check_eq_ok.mpr ⟨⟨List.length_replicate, List.length_replicate⟩, hslot,
    fun s hs => Option.some.inj hs ▸ Stock.ideal_check 1 n⟩

theorem importPrice_check (n : ℕ) : (importPrice n).check n = .ok () := by
  have hslot : ∀ j ∈ (importPrice n).activeSlots, (importPrice n).slotFinite j = true := by
    intro j hj
    obtain ⟨q, hq⟩ := Commitment.mem_activeSlots.mp hj
    have hlt : j < n := by simpa [importPrice, Commitment.siteFlow] using
      (List.getElem?_eq_some_iff.mp hq).1
    have hgiven : givenAt (importPrice n).quantity j = some (num 0) := givenAt_replicate hlt _
    rw [Commitment.slotFinite, Commitment.baseline, hgiven]
    simp [importPrice, Commitment.siteFlow, valueAt_replicate hlt]
  refine Commitment.check_eq_ok.mpr ⟨by simp [importPrice, Commitment.siteFlow],
    (fun h => by cases h.1), hslot, ?_⟩
  rintro ⟨hany, -⟩
  cases hany

/-- One device that passes its check, and a price for import. -/
theorem importing_check {d : Device Exact} (hlen : 0 < g.len) (hd : d.check g.len = .ok ()) :
    check ⟨g, [d], [importPrice g.len], .unbounded g.len⟩ = .ok () := by
  have hdevices : checkDevices g.len [] [d] = .ok () := by
    simp [checkDevices, hd, bind, Except.bind]
  refine check_eq_ok.mpr ⟨hlen.ne', List.cons_ne_nil _ _, hdevices,
    SiteLimits.unbounded_check g.len, fun c hc => ?_⟩
  rw [List.mem_singleton.mp hc]
  exact ⟨importPrice_check g.len, rfl⟩

theorem idle_check (hlen : 0 < g.len) : (idle g).check = .ok () :=
  importing_check hlen (idleBattery_check g.len)

end Problem

end Dispatch
