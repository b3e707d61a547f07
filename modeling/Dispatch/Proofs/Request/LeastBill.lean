import Dispatch.Proofs.Program.Exactness
import Dispatch.Proofs.Series.Overlay
import Dispatch.Proofs.Request.Charges
import Dispatch.Proofs.Request.Translation

/-! # The program minimises the bill

* `SiteTerms.cost_commitments`, `StorageTerms.cost_commitments`: the commitments of the terms cost what
  the bill says.
* `Translated.planCost_eq`: a plan of the translated problem costs its bill.
* `Request.least_bill`: so does its cheapest completion in the program.
-/

namespace Dispatch
set_option autoImplicit false

open Exact

theorem sum_flatMap {β γ : Type} (l : List β) (f : β → List γ) (g : γ → ℝ) :
    ((l.flatMap f).map g).sum = (l.map fun x => ((f x).map g).sum).sum := by
  rw [List.map_flatMap, List.flatMap_def, List.sum_flatten, List.map_map]
  rfl

/-- What an optional term charges costs its line of the bill. -/
theorem sum_elim {β : Type} {o : Option β} {cs : β → List (Commitment Exact)}
    {cost : Commitment Exact → ℝ} {line : β → ℝ}
    (h : ∀ k, o = some k → ((cs k).map cost).sum = line k) :
    ((o.elim [] cs).map cost).sum = o.elim 0 line := by
  cases o with
  | none => rfl
  | some k => exact h k rfl

/-! ## Terms -/

theorem SiteTerms.cost_commitments {t : SiteTerms} {g : Grid}
    (hlen : ∀ c ∈ t.commitments g, c.quantity.length = g.len) (x : ℕ → ℝ) :
    (t.tariffs.commitment g).costOf x + ((t.commitments g).map fun c => c.costOf x).sum =
      t.bill g.len g.realHours x := by
  simp only [commitments, List.forall_mem_append] at hlen
  obtain ⟨⟨⟨h₁, h₂⟩, h₃⟩, h₄⟩ := hlen
  rw [commitments, List.map_append, List.map_append, List.map_append, List.sum_append,
    List.sum_append, List.sum_append, cost_tariffs, ← add_assoc, ← add_assoc, ← add_assoc, bill]
  congr 1
  · congr 1
    · congr 1
      · congr 1
        refine sum_elim fun k hk => cost_breach_up ?_ "consumption" x
        rw [hk] at h₁
        exact (List.length_map _).symm.trans (h₁ _ List.mem_cons_self)
      · refine sum_elim fun k hk => cost_breach_down ?_ "production" x
        rw [hk] at h₂
        exact (List.length_map _).symm.trans (h₂ _ List.mem_cons_self)
    · refine sum_elim fun k hk => (add_zero _).trans (cost_peak_up ?_ "consumption" x)
      rw [hk] at h₃
      exact (List.length_map _).symm.trans (h₃ _ List.mem_cons_self)
  · refine sum_elim fun k hk => (add_zero _).trans (cost_peak_down ?_ "production" x)
    rw [hk] at h₄
    have hneg := (List.length_map _).symm.trans (h₄ _ List.mem_cons_self)
    exact (List.length_map _).symm.trans hneg

theorem StorageTerms.cost_commitments {t : StorageTerms} {g : Grid} {name : String} (hpos : 0 < g.len)
    (hlen : ∀ c ∈ t.commitments g name, c.quantity.length = g.len) (s : ℕ → ℝ) :
    ((t.commitments g name).map fun c => c.costOf s).sum = t.bill g.len g.realHours s := by
  simp only [commitments, List.forall_mem_cons, List.forall_mem_append] at hlen
  obtain ⟨-, hminima, hmaxima⟩ := hlen
  rw [commitments, List.map_cons, List.map_append, List.sum_cons, List.sum_append,
    cost_storedEnergy hpos, ← add_assoc, bill]
  congr 1
  · congr 1
    refine sum_elim fun k hk => cost_levels_down ?_ s
    rw [hk] at hminima
    exact hminima
  · refine sum_elim fun k hk => cost_levels_up ?_ s
    rw [hk] at hmaxima
    exact hmaxima

/-! ## What the commitments measure -/

theorem forall_mem_elim {β : Type} {o : Option β} {cs : β → List (Commitment Exact)}
    {q : Commitment Exact → Prop} (h : ∀ k, ∀ c ∈ cs k, q c) : ∀ c ∈ o.elim [] cs, q c := by
  cases o with
  | none => exact fun c hc => absurd hc List.not_mem_nil
  | some k => exact h k

theorem onSite_of_breachPair {g : Grid} {kind : String} {baseline : List (Option Exact)}
    {price : List Exact} {upwards : Bool} :
    ∀ c ∈ breachPair g kind baseline price upwards, c.kind = .flow ∧ c.device = none := by
  cases upwards <;> simp [breachPair, Commitment.siteFlow]

theorem onSite_of_peak {g : Grid} {kind : String} {baseline price : List Exact} {upwards : Bool} :
    ∀ c ∈ [peakCommitment g kind baseline price upwards], c.kind = .flow ∧ c.device = none := by
  cases upwards <;> simp [peakCommitment, Commitment.siteFlow]

theorem SiteTerms.onSite {t : SiteTerms} {g : Grid} :
    ∀ c ∈ t.commitments g, c.kind = .flow ∧ c.device = none := by
  simp only [commitments, List.forall_mem_append]
  exact ⟨⟨⟨forall_mem_elim fun _ => onSite_of_breachPair, forall_mem_elim fun _ => onSite_of_breachPair⟩,
    forall_mem_elim fun _ => onSite_of_peak⟩, forall_mem_elim fun _ => onSite_of_peak⟩

theorem onStock_of_levelBreaches {g : Grid} {name kind : String} {levels : List (Option Exact)}
    {price : Exact} {upwards : Bool} :
    ∀ c ∈ levelBreaches g name kind levels price upwards, c.kind = .stock ∧ c.device = some name := by
  rw [levelBreaches]
  by_cases hnone : levels.all Option.isNone = true
  · rw [if_pos hnone]
    exact fun c hc => absurd hc List.not_mem_nil
  · rw [if_neg hnone]
    cases upwards <;> simp [Commitment.deviceStock]

theorem StorageTerms.onStock {t : StorageTerms} {g : Grid} {name : String} :
    ∀ c ∈ t.commitments g name, c.kind = .stock ∧ c.device = some name := by
  simp only [commitments, List.forall_mem_cons, List.forall_mem_append]
  exact ⟨⟨rfl, rfl⟩, forall_mem_elim fun _ => onStock_of_levelBreaches,
    forall_mem_elim fun _ => onStock_of_levelBreaches⟩

namespace Problem
variable {p : Problem Exact} {c : Commitment Exact}

theorem measured_of_onSite (h : c.kind = .flow ∧ c.device = none) (flow level : ℕ → ℕ → ℝ) :
    p.measured c flow level = p.siteFlow flow := by
  funext j
  rw [measured, h.1, committed?, h.2]
  rfl

theorem Sound.committed_of_device (hp : p.Sound) {i : ℕ} {d : Device Exact}
    (hd : p.devices[i]? = some d) (hc : c.device = some d.id) : p.committed? c = some i := by
  obtain ⟨hi, rfl⟩ := List.getElem?_eq_some_iff.mp hd
  rw [committed?, hc, Option.bind_some, deviceIndex?, List.findIdx?_eq_some_iff_getElem]
  refine ⟨hi, beq_self_eq_true _, fun k hk => ?_⟩
  rw [Bool.not_eq_true, beq_eq_false_iff_ne]
  intro heq
  have hsame := List.inj_on_of_nodup_map hp.ids_nodup (List.getElem_mem (hk.trans hi))
    (List.getElem_mem hi) heq
  exact absurd (hp.ids_nodup.of_map.getElem_inj_iff.mp hsame) hk.ne

theorem measured_of_stock {i : ℕ} (hkind : c.kind = .stock) (hi : p.committed? c = some i)
    (flow level : ℕ → ℕ → ℝ) : p.measured c flow level = level i := by
  funext j
  rw [measured, hkind, hi]

end Problem

/-! ## Whole requests -/

/-- Whatever the errors are of, a grid that is made is made. -/
theorem Grid.made_of_make {α : Type} {start stop : Instant} {resolution : Span} {zone : Zone} {g : Grid}
    (h : (Grid.make start stop resolution zone : Checked α Grid) = .ok g) : g.Made := by
  refine ⟨start, stop, resolution, zone, ?_⟩
  simp only [Grid.make] at h ⊢
  split_ifs at h ⊢ with hres hstop hragged
  exact congrArg Except.ok (Except.ok.inj h)

theorem Request.made_of_grid {α : Type} [Scalar α] {r : Request α} {g : Grid} (h : r.grid = .ok g) :
    g.Made := by
  rw [Request.grid] at h
  obtain ⟨_, -, h⟩ := Checked.bind_eq_ok.mp h
  obtain ⟨_, -, h⟩ := Checked.bind_eq_ok.mp h
  obtain ⟨_, -, h⟩ := Checked.bind_eq_ok.mp h
  exact Grid.made_of_make h

namespace Request.Translated
variable {r : Request Exact} {p : Problem Exact} {site : SiteTerms} {plannings : List DevicePlanning}
  {fixed : List (Device Exact)}

theorem reads_terms (h : r.Translated p site plannings fixed) :
    r.Reads p.grid ⟨site, plannings.map fun x => x.2.2⟩ where
  grid := h.grid
  site := h.reads
  storages := by
    rw [← h.requests, List.forall₂_map_left_iff, List.forall₂_map_right_iff, List.forall₂_same]
    exact fun x hx => (h.planned x hx).reads

theorem device_of_planning (h : r.Translated p site plannings fixed) {x : DevicePlanning} {i : ℕ}
    (hx : plannings[i]? = some x) : p.devices[i]? = some x.2.1.1 := by
  have hi : i < (plannings.map fun x => x.2.1.1).length := by
    rw [List.length_map]
    exact (List.getElem?_eq_some_iff.mp hx).1
  rw [h.devices, List.getElem?_append_left hi, List.getElem?_map, hx, Option.map_some]

theorem cost_device (h : r.Translated p site plannings fixed) {x : DevicePlanning} {i : ℕ}
    (hx : plannings[i]? = some x) (flow level : ℕ → ℕ → ℝ) :
    (x.2.1.2.map fun c => c.costOf (p.measured c flow level)).sum =
      x.2.2.elim 0 fun s => s.bill p.len p.realHours (level i) := by
  have hp := Problem.sound_of_check h.check
  have hmem := List.mem_of_getElem? hx
  have hplanned := h.planned x hmem
  rw [hplanned.commitments]
  refine sum_elim fun s hs => ?_
  have hcommitted : ∀ c ∈ s.commitments p.grid x.1.name, c ∈ p.commitments := fun c hc => by
    rw [h.commitments]
    refine List.mem_cons_of_mem _ (List.mem_append_left _ (List.mem_flatMap.mpr ⟨x, hmem, ?_⟩))
    rw [hplanned.commitments, hs]
    exact hc
  rw [List.map_congr_left fun c hc => by
    obtain ⟨hkind, hdevice⟩ := StorageTerms.onStock c hc
    rw [Problem.measured_of_stock hkind (hp.committed_of_device (h.device_of_planning hx)
      (hplanned.id ▸ hdevice)) flow level]]
  exact StorageTerms.cost_commitments hp.len_pos
    (fun c hc => (hp.commitment c (hcommitted c hc)).quantity_length) (level i)

theorem planCost_eq (h : r.Translated p site plannings fixed) (flow : ℕ → ℕ → ℝ) :
    p.planCost flow (p.replayed flow) =
      BillTerms.bill ⟨site, plannings.map fun x => x.2.2⟩ p flow := by
  have hp := Problem.sound_of_check h.check
  have hsite : ∀ c ∈ site.commitments p.grid, c.quantity.length = p.grid.len := fun c hc => by
    refine (hp.commitment c ?_).quantity_length
    rw [h.commitments]
    exact List.mem_cons_of_mem _ (List.mem_append_right _ hc)
  have hdevices : (plannings.map fun x => (x.2.1.2.map fun c =>
      c.costOf (p.measured c flow (p.replayed flow))).sum).sum =
      ((plannings.map fun x => x.2.2).zipIdx.map fun x =>
        x.1.elim 0 fun s => s.bill p.len p.realHours (p.replayed flow x.2)).sum := by
    rw [List.zipIdx_map, List.map_map]
    conv_lhs => rw [← List.zipIdx_map_fst 0 plannings, List.map_map]
    congr 1
    exact List.map_congr_left fun x hx =>
      h.cost_device (List.mem_zipIdx_iff_getElem?.mp hx) flow (p.replayed flow)
  rw [Problem.planCost, h.commitments, List.map_cons, List.sum_cons, List.map_append, List.sum_append,
    sum_flatMap, hdevices, BillTerms.bill, add_left_comm, add_comm]
  congr 1
  rw [List.map_congr_left fun c hc => by
      rw [Problem.measured_of_onSite (SiteTerms.onSite c hc) flow (p.replayed flow)],
    Problem.measured_of_onSite (c := site.tariffs.commitment p.grid) ⟨rfl, rfl⟩]
  exact SiteTerms.cost_commitments hsite (p.siteFlow flow)

end Request.Translated

/-- Every storage of the terms is the stock of the device in its place. -/
def BillTerms.Placed (t : BillTerms) (r : Request Exact) (p : Problem Exact) : Prop :=
  ∀ (i : ℕ) (d : DeviceRequest Exact) (s : StorageTerms), r.devices[i]? = some d →
    t.storages[i]? = some (some s) → ∃ (e : Device Exact) (st : Stock Exact),
      p.devices[i]? = some e ∧ e.id = d.name ∧ e.stock = some st ∧ st.initial = s.initial

theorem Request.Translated.placed {r : Request Exact} {p : Problem Exact} {site : SiteTerms}
    {plannings : List DevicePlanning} {fixed : List (Device Exact)}
    (h : r.Translated p site plannings fixed) :
    BillTerms.Placed ⟨site, plannings.map fun x => x.2.2⟩ r p := by
  intro i d s hd hs
  rw [← h.requests, List.getElem?_map] at hd
  rw [List.getElem?_map] at hs
  obtain ⟨x, hx, rfl⟩ := Option.map_eq_some_iff.mp hd
  rw [hx, Option.map_some, Option.some_inj] at hs
  have hplanned := h.planned x (List.mem_of_getElem? hx)
  obtain ⟨st, hst, hinitial⟩ := hplanned.initial s hs
  exact ⟨x.2.1.1, st, h.device_of_planning hx, hplanned.id, hst, hinitial⟩

/-- The program of a request makes every plan as cheap as the bill of the request. -/
theorem Request.least_bill {r : Request Exact} {sooner : Bool} {p : Problem Exact} {margin : ℝ}
    (hraw : r.context.commitments = []) (h : (r.toProblem sooner).1 = .ok p) (hmargin : 0 ≤ margin) :
    ∃ t m, (∀ t', r.Reads p.grid t' ↔ t' = t) ∧ t.Placed r p ∧ p.model (num margin) = .ok m ∧
      ∀ flow, p.Admits flow → IsLeast (m.planValues p flow) (t.bill p flow) := by
  obtain ⟨site, plannings, fixed, htranslated⟩ := Request.translated hraw h
  have hp := Problem.sound_of_check htranslated.check
  have hreads := htranslated.reads_terms
  obtain ⟨m, hm, hb⟩ := Problem.exists_built htranslated.check hmargin
  have hhours : 0 ≤ p.realHours := (Request.made_of_grid htranslated.grid).realHours_pos.le
  refine ⟨_, m, fun t' => ⟨fun h' => h'.unique hreads, fun heq => heq ▸ hreads⟩, htranslated.placed,
    hm, fun flow hflow => ?_⟩
  rw [← htranslated.planCost_eq]
  exact hb.isLeast_planValues hp hhours hmargin hflow

/-! ## One storage -/

section
variable {a : Amount Exact} {v : Exact} {field : String} {expected : Dimension}

theorem flowValues_constant {reference : Option Exact}
    (h : a.resolve field expected reference = .ok v) (g : Grid) :
    (Series.constant a).flowValues g field expected reference =
      .ok (List.replicate g.len (some v)) := by
  rw [Series.flowValues, h]
  rfl

theorem required_constant (h : a.resolve field expected none = .ok v) (g : Grid) :
    (Series.constant a).required g field expected = .ok (List.replicate g.len v) := by
  refine Checked.bind_eq_ok.mpr ⟨_, flowValues_constant h g, Checked.mapM_eq_ok.mpr ?_⟩
  refine List.forall₂_iff_get.mpr ⟨by simp, fun i h1 h2 => ?_⟩
  simp

theorem valuesOr_constant (h : a.resolve field expected none = .ok v) (w : Exact) (g : Grid) :
    (Series.constant a).valuesOr g field expected w = .ok (List.replicate g.len v) := by
  refine Checked.bind_eq_ok.mpr ⟨_, flowValues_constant h g, ?_⟩
  rw [List.map_replicate]
  rfl

end

theorem required_number (v : Exact) (g : Grid) (field : String) (expected : Dimension) :
    (Series.constant (.number v)).required g field expected = .ok (List.replicate g.len v) :=
  required_constant (resolve_number v field expected none) g

theorem valuesOr_number (v w : Exact) (g : Grid) (field : String) (expected : Dimension) :
    (Series.constant (.number v)).valuesOr g field expected w = .ok (List.replicate g.len v) :=
  valuesOr_constant (resolve_number v field expected none) w g

noncomputable def batteryModel : StorageModel Exact where
  socAtStart := some (.number (num 1))
  socMin := none
  socMax := none
  storageCapacity := none
  socMinima := none
  socMaxima := none
  socTargets := none
  socMinimaBreachPrice := none
  socMaximaBreachPrice := none
  storedEnergyPrice := none
  powerCapacity := some (.constant (.number (num 1)))
  consumptionCapacity := none
  productionCapacity := none
  chargingEfficiency := some (.constant (.number (num (1 / (2 : ℕ)))))
  dischargingEfficiency := none
  roundtripEfficiency := none
  storageEfficiency := none
  efficiencyMode := some .perfect
  socGain := none
  socUsage := none
  preferChargingSooner := none
  timeRestrictions := []

/-- Selling earns more than buying costs. -/
noncomputable def oneStorage : Request Exact where
  start := "1970-01-01T00:00:00Z"
  stop := some "1970-01-01T01:00:00Z"
  duration := none
  resolution := "PT1H"
  zone := none
  devices := [⟨"battery", .storage batteryModel⟩]
  context := { SiteContext.empty with
    consumptionPrice := some (.constant (.number (num 0)))
    productionPrice := some (.constant (.number (num 1)))
    consumptionCapacity := some (.constant (.number (num 1))) }

/-- The battery with the tariffs of the request, and a price for what is left in it. -/
noncomputable def pricedBattery : Problem Exact :=
  { Problem.oneBattery with
    commitments := [Tariffs.commitment ⟨[num 0], [num 1]⟩ Problem.oneHour,
      storedEnergy Problem.oneHour "battery" (num 1) (num 0)] }

theorem oneHour_hours : (Problem.oneHour.hours : Exact) = num 1 := by
  have hseconds : Problem.oneHour.resolution.wholeSeconds = 3600 := rfl
  rw [Grid.hours_eq, Grid.realHours, hseconds]
  norm_num

theorem ofText_oneHour :
    (Duration.ofText "PT1H" : Checked Exact Span) = .ok ⟨3600000000000⟩ := by
  have htext : Text.trim "PT1H".toList = ['P', 'T', '1', 'H'] := by decide +kernel
  have hnumber : Numeral.unsigned? false ['1'] = some ⟨false, 1, 0⟩ := by decide +kernel
  have hdigit : Decimal.isDigit '1' = true := by decide
  have hunit : Decimal.isDigit 'H' = false := by decide
  have hone : Scalar.ofDecimal ⟨false, 1, 0⟩ = num 1 := by
    show Exact.ofDecimal _ = _
    simp [Exact.ofDecimal]
  have hseconds : (Duration.seconds ['P', 'T', '1', 'H'] : Except DurationFault Exact) =
      .ok (num 3600) := by
    simp [Duration.seconds, Duration.readFrom, hnumber, hdigit, hunit, Duration.unitSeconds, hone,
      zero_eq]
  have hfloor : ⌊(3600 * 1000 : ℝ) + 1 / 2⌋ = 3600000 := by
    rw [Int.floor_eq_iff]
    norm_num
  have hround : Scalar.roundInt (num (3600 * 1000)) = 3600000 := by
    show max wordMin (min wordMax (if (0 : ℝ) ≤ 3600 * 1000 then _ else _)) = _
    rw [if_pos (by norm_num), hfloor]
    decide
  simp only [Duration.ofText, htext, hseconds, ofNat_eq, num_mul]
  show Except.ok (Span.ofMillis (Scalar.roundInt (num (3600 * 1000)))) = _
  rw [hround]
  rfl

theorem readInstant_midnight :
    (readInstant .utc "1970-01-01T00:00:00Z" : Checked Exact Instant) = .ok ⟨0, 0⟩ :=
  readInstant_of_ofText (by decide +kernel)

theorem readInstant_hourLater :
    (readInstant .utc "1970-01-01T01:00:00Z" : Checked Exact Instant) = .ok ⟨3600, 0⟩ :=
  readInstant_of_ofText (by decide +kernel)

theorem oneStorage_grid : oneStorage.grid = .ok Problem.oneHour := by
  have hmake : (Grid.make ⟨0, 0⟩ ⟨3600, 0⟩ ⟨3600000000000⟩ .utc : Checked Exact Grid) =
      .ok Problem.oneHour := rfl
  rw [Request.grid]
  refine Checked.bind_eq_ok.mpr ⟨⟨0, 0⟩, readInstant_midnight, ?_⟩
  refine Checked.bind_eq_ok.mpr ⟨⟨3600, 0⟩, readInstant_hourLater, ?_⟩
  exact Checked.bind_eq_ok.mpr ⟨_, ofText_oneHour, hmake⟩

theorem batteryModel_dynamics (s : Stock Exact) :
    batteryModel.dynamics Problem.oneHour "battery" s = .ok { s with
      etaUp := [num (1 / (2 : ℕ))], etaDown := [num 1], retention := [num 1], delta := [num 0] } := by
  have hlen : Problem.oneHour.len = 1 := rfl
  have hpow : Scalar.pow (num 1) (num 1) = num 1 := by
    show Exact.pow _ _ = _
    simp [Exact.pow, powReal]
  simp [StorageModel.dynamics, batteryModel, optionalAmount, StorageModel.seriesOr, valuesOr_number,
    hlen, oneHour_hours, bind, Except.bind, pure, Except.pure, zero_eq, one_eq, hpow]

theorem batteryModel_powerBand :
    batteryModel.powerBand Problem.oneHour "battery" = .ok ([num (-1)], [num 1]) := by
  have hlen : Problem.oneHour.len = 1 := rfl
  simp [StorageModel.powerBand, batteryModel, optionalSeries, required_number, hlen, TimeWindow.mask,
    TimeWindow.markFrom, bind, Except.bind, pure, Except.pure]

/-- The battery of the request, whatever minima are listed for it. -/
theorem batteryModel_device {minima : Option (Series Exact)} {level : Option Exact} {low : ℝ}
    (hlevels : StorageModel.levels Problem.oneHour minima (fieldOf "battery" "soc-minima") none =
      .ok [level])
    (hlow : Scalar.maxNum 0 (level.getD negInf) - num 1 = num low) (t : Tariffs Exact)
    (sooner : Bool) :
    StorageModel.device { batteryModel with socMinima := minima } Problem.oneHour "battery" t sooner =
      pure (Problem.limitedBattery low none sooner,
        [storedEnergy Problem.oneHour "battery" (num 1) (t.consumption.getLastD 0)]) := by
  have hdynamics (s : Stock Exact) : StorageModel.dynamics { batteryModel with socMinima := minima }
      Problem.oneHour "battery" s = _ := batteryModel_dynamics s
  have hband : StorageModel.powerBand { batteryModel with socMinima := minima } Problem.oneHour
      "battery" = _ := batteryModel_powerBand
  have hcapacity : StorageModel.capacity { batteryModel with socMinima := minima } "battery" =
      .ok none := rfl
  rw [Problem.limitedBattery, Problem.limitedStock, ← hlow]
  simp only [StorageModel.device, hdynamics, hband, hcapacity, Warned.lift_ok, pure_bind, hlevels]
  rfl

theorem batteryModel_device_unlisted (t : Tariffs Exact) (sooner : Bool) :
    batteryModel.device Problem.oneHour "battery" t sooner = pure (Problem.limitedBattery (-1) none sooner,
      [storedEnergy Problem.oneHour "battery" (num 1) (t.consumption.getLastD 0)]) := by
  have hlevels : (StorageModel.levels Problem.oneHour none (fieldOf "battery" "soc-minima") none :
      Checked Exact (List (Option Exact))) = .ok [none] := rfl
  have hlow : Scalar.maxNum 0 (Option.getD none negInf) - num 1 = num (-1) :=
    (num_sub 0 1).trans (by norm_num)
  exact batteryModel_device hlevels hlow t sooner

/-- A request like that of the battery, from what its parts come to. -/
theorem toProblem_of_parts {m : StorageModel Exact} {c : SiteContext Exact} {sooner : Bool}
    {t : Tariffs Exact} {d : Device Exact} {cs : List (Commitment Exact)} {site : SiteLimits Exact}
    (htariffs : c.tariffs Problem.oneHour = .ok t)
    (hdevice : m.device Problem.oneHour "battery" t sooner = pure (d, cs))
    (hfixed : c.fixedDevices = []) (hlimits : c.limits Problem.oneHour = pure (site, []))
    (hraw : c.commitments = [])
    (hcheck : Problem.check ⟨Problem.oneHour, [d], t.commitment Problem.oneHour :: cs, site⟩ =
      .ok ()) :
    (Request.toProblem { oneStorage with devices := [⟨"battery", .storage m⟩], context := c }
      sooner).1 = .ok ⟨Problem.oneHour, [d], t.commitment Problem.oneHour :: cs, site⟩ := by
  have pure_ok {ε β : Type} (b : β) : (pure b : Except ε β) = .ok b := rfl
  have hgrid : Request.grid { oneStorage with
      devices := [⟨"battery", .storage m⟩], context := c } = .ok Problem.oneHour := oneStorage_grid
  have hdevices : ([⟨"battery", .storage m⟩].mapM fun x : DeviceRequest Exact =>
      x.device Problem.oneHour t sooner) = pure [(d, cs)] := by
    show (fun x => [x]) <$> DeviceRequest.device ⟨"battery", .storage m⟩ _ _ _ = _
    simp only [DeviceRequest.device, hdevice]
    rfl
  have hassemble : Request.assemble { oneStorage with
      devices := [⟨"battery", .storage m⟩], context := c } sooner =
        pure ⟨Problem.oneHour, [d], t.commitment Problem.oneHour :: cs, site⟩ := by
    simp only [Request.assemble, hgrid, Except.mapError, Warned.lift_ok, pure_bind, htariffs, hdevices,
      hfixed, hlimits, hraw, Warned.adapt_pure, List.mapM_nil, pure_ok, List.map_cons, List.map_nil,
      List.flatMap_cons, List.flatMap_nil, List.append_nil, hcheck]
  rw [Request.toProblem, hassemble]
  rfl

theorem oneHour_scaledBy (factor x : ℝ) :
    scaledBy Problem.oneHour (num factor) [num x] = [num (x * factor)] := by
  simp [scaledBy, oneHour_hours]

theorem oneHour_tariffs_check (bought sold : ℝ) :
    (Tariffs.commitment ⟨[num bought], [num sold]⟩ Problem.oneHour).check 1 = .ok () :=
  Problem.oneSlot_check rfl (oneHour_scaledBy 1 bought) (oneHour_scaledBy (-1) sold) rfl nofun

/-- The commitments that the request has in any case are usable, whatever its tariffs. -/
theorem oneHour_commitments_check {d : Device Exact} {bought sold worth : ℝ} (hid : d.id = "battery")
    (hstock : d.stock.isSome = true) :
    ∀ c ∈ [Tariffs.commitment ⟨[num bought], [num sold]⟩ Problem.oneHour,
        storedEnergy Problem.oneHour "battery" (num 1) (num worth)], c.check 1 = .ok () ∧
      Problem.checkReference ⟨Problem.oneHour, [d],
        [Tariffs.commitment ⟨[num bought], [num sold]⟩ Problem.oneHour,
          storedEnergy Problem.oneHour "battery" (num 1) (num worth)], ⟨[negInf], [num 1]⟩⟩ c =
        .ok () := by
  have hstored : (storedEnergy Problem.oneHour "battery" (num 1) (num worth)).check 1 = .ok () :=
    Problem.oneSlot_check rfl rfl rfl rfl nofun
  intro c hc
  rcases List.mem_cons.mp hc with rfl | hc
  · exact ⟨oneHour_tariffs_check bought sold, rfl⟩
  · rw [List.mem_singleton.mp hc]
    refine ⟨hstored, ?_⟩
    have hnone : d.stock.isNone = false := by rw [Option.isNone_eq_false_iff, hstock]
    simp [Problem.checkReference, storedEnergy, Commitment.deviceStock, hid, hnone]

theorem pricedBattery_check : pricedBattery.check = .ok () :=
  Problem.oneHour_check (Problem.limitedBattery_check (-1) none false)
    (oneHour_commitments_check rfl rfl)

theorem oneStorage_tariffs :
    oneStorage.context.tariffs Problem.oneHour = .ok ⟨[num 0], [num 1]⟩ := by
  simp only [SiteContext.tariffs, oneStorage, required_number]
  rfl

theorem oneStorage_limits :
    oneStorage.context.limits Problem.oneHour = pure (⟨[negInf], [num 1]⟩, []) := by
  simp only [SiteContext.limits, SiteContext.powerLimits, SiteContext.consumptionLimits,
    SiteContext.productionLimits, oneStorage, SiteContext.empty, optionalSeries, required_number]
  rfl

theorem oneStorage_toProblem : (oneStorage.toProblem false).1 = .ok pricedBattery :=
  toProblem_of_parts oneStorage_tariffs (batteryModel_device_unlisted _ false) rfl oneStorage_limits rfl
    pricedBattery_check

/-- The idle battery costs its bill. -/
theorem oneStorage_idle_bill : ∃ p t m, (oneStorage.toProblem false).1 = .ok p ∧
    oneStorage.Reads p.grid t ∧ p.model (num 1) = .ok m ∧ p.Admits (fun _ _ => 0) ∧
      IsLeast (m.planValues p fun _ _ => 0) (t.bill p fun _ _ => 0) := by
  obtain ⟨t, m, hreads, -, hm, hleast⟩ := Request.least_bill rfl oneStorage_toProblem zero_le_one
  have hidle : pricedBattery.Admits fun _ _ => 0 :=
    Problem.limitedBattery_admits_idle pricedBattery_check (by norm_num)
  exact ⟨pricedBattery, t, m, oneStorage_toProblem, (hreads t).mpr rfl, hm, hidle, hleast _ hidle⟩

end Dispatch
