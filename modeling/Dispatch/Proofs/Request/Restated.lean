import Dispatch.Proofs.Request.Assembly

/-! # Requests that state the same

* `Amount.Alike`: two amounts are of one magnitude and one dimension, or neither is a quantity.
* `Series.Alike`, `StorageModel.Alike`, `SiteContext.Alike`, `Request.Alike`: amounts like these in
  the same places, everything else equal.
* `StorageModel.device_same`, `SiteContext.limits_same`, `StatedCommitment.commitment_same`: parts that
  state the same come to the same.
* `Request.toProblem_same`: so do whole requests, if their tariffs agree in currency or both do not.

Nothing but the comparison of the tariffs looks at a currency.
-/

namespace Dispatch
set_option autoImplicit false

open Checked

variable {α : Type} [Scalar α]

/-! ## Quantities -/

/-- Where a unit does not fit, the currency is part of the complaint only. -/
theorem Quantity.canonical_same (v : α) (d : Dimension) (c c' : Option String) (expected : Dimension)
    (reference : Option α) : Same ((⟨v, d, c⟩ : Quantity α).canonical expected reference)
      ((⟨v, d, c'⟩ : Quantity α).canonical expected reference) := by
  unfold canonical
  split_ifs
  · exact Same.refl _
  · cases reference with
    | none => exact same_error _ _
    | some r => exact Same.refl _
  · exact same_error _ _

def Amount.Alike (a b : Amount α) : Prop :=
  ∀ v d, (∃ c, a.quantity = .ok ⟨v, d, c⟩) ↔ ∃ c, b.quantity = .ok ⟨v, d, c⟩

namespace Amount
variable {a b : Amount α}

theorem Alike.symm (h : a.Alike b) : b.Alike a := fun v d => (h v d).symm

theorem Alike.bind_of {β : Type} {f g : Quantity α → Checked α β} {x : β} (h : a.Alike b)
    (hfg : ∀ v d c c', Same (f ⟨v, d, c⟩) (g ⟨v, d, c'⟩)) (hx : a.quantity >>= f = .ok x) :
    b.quantity >>= g = .ok x := by
  obtain ⟨⟨v, d, c⟩, hq, hx⟩ := bind_eq_ok.mp hx
  obtain ⟨c', hq'⟩ := (h v d).mp ⟨c, hq⟩
  exact bind_eq_ok.mpr ⟨_, hq', (hfg v d c c' x).mp hx⟩

/-- What makes no use of a currency comes to the same. -/
theorem Alike.bind {β : Type} {f g : Quantity α → Checked α β} (h : a.Alike b)
    (hfg : ∀ v d c c', Same (f ⟨v, d, c⟩) (g ⟨v, d, c'⟩)) :
    Same (a.quantity >>= f) (b.quantity >>= g) := by
  intro x
  constructor
  · exact h.bind_of hfg
  · exact h.symm.bind_of fun v d c c' => (hfg v d c' c).symm

theorem Alike.resolve (h : a.Alike b) (field : String) (expected : Dimension)
    (reference : Option α) :
    Same (a.resolve field expected reference) (b.resolve field expected reference) :=
  (h.bind fun v d c c' => Quantity.canonical_same v d c c' expected reference).mapError _

end Amount

theorem optionalAmount_same {a b : Option (Amount α)} (h : Option.Rel Amount.Alike a b)
    (field : String) (expected : Dimension) (reference : Option α) :
    Same (optionalAmount a field expected reference) (optionalAmount b field expected reference) := by
  cases h with
  | none => exact Same.refl _
  | some hab => exact (hab.resolve field expected reference).bind fun _ => Same.refl _

/-! ## Series -/

structure Segment.Alike (s t : Segment α) : Prop where
  datetime : s.datetime = t.datetime
  start : s.start = t.start
  stop : s.stop = t.stop
  duration : s.duration = t.duration
  value : s.value.Alike t.value

/-- The samples and their unit make the same values. -/
structure AlignedSeries.Alike (s t : AlignedSeries α) : Prop where
  start : s.start = t.start
  resolution : s.resolution = t.resolution
  zone : s.zone = t.zone
  scaled : ∀ vs d, (∃ c, s.scaled = .ok (vs, d, c)) ↔ ∃ c, t.scaled = .ok (vs, d, c)

inductive Series.Alike : Series α → Series α → Prop where
  | constant {a b : Amount α} : a.Alike b → Alike (.constant a) (.constant b)
  | segments {xs ys : List (Segment α)} :
      List.Forall₂ Segment.Alike xs ys → Alike (.segments xs) (.segments ys)
  | aligned {s t : AlignedSeries α} : s.Alike t → Alike (.aligned s) (.aligned t)

theorem Segment.bounds_congr {s t : Segment α} (h : s.Alike t) (zone : Zone) :
    s.bounds zone = t.bounds zone := by
  unfold bounds
  rw [h.datetime, h.start, h.stop, h.duration]

namespace AlignedSeries
variable {s t : AlignedSeries α}

theorem Alike.symm (h : s.Alike t) : t.Alike s :=
  ⟨h.start.symm, h.resolution.symm, h.zone.symm, fun vs d => (h.scaled vs d).symm⟩

theorem Alike.flowValues_of {g : Grid} {field : String} {expected : Dimension} {reference : Option α}
    {vs : List (Option α)} (h : s.Alike t) (hvs : s.flowValues g field expected reference = .ok vs) :
    t.flowValues g field expected reference = .ok vs := by
  unfold flowValues at hvs ⊢
  rw [h.start, h.zone] at hvs
  rw [h.resolution] at hvs
  obtain ⟨start, hstart, hvs⟩ := bind_eq_ok.mp hvs
  obtain ⟨step, hstep, hvs⟩ := bind_eq_ok.mp hvs
  refine bind_eq_ok.mpr ⟨start, hstart, bind_eq_ok.mpr ⟨step, hstep, ?_⟩⟩
  split_ifs at hvs ⊢
  obtain ⟨⟨values, d, c⟩, hscaled, hvs⟩ := bind_eq_ok.mp hvs
  obtain ⟨c', hscaled'⟩ := (h.scaled values d).mp ⟨c, mapError_eq_ok.mp hscaled⟩
  exact bind_eq_ok.mpr ⟨(values, d, c'), mapError_eq_ok.mpr hscaled', hvs⟩

theorem Alike.dimension_of {d : Dimension} (h : s.Alike t)
    (hd : (Series.aligned s).dimension = .ok d) : (Series.aligned t).dimension = .ok d := by
  obtain ⟨⟨values, d', c⟩, hscaled, hd⟩ := bind_eq_ok.mp hd
  obtain ⟨c', hscaled'⟩ := (h.scaled values d').mp ⟨c, hscaled⟩
  exact bind_eq_ok.mpr ⟨(values, d', c'), hscaled', hd⟩

end AlignedSeries

namespace Series
variable {s t : Series α}

theorem overlay_same {g : Grid} {field : String} {expected : Dimension} {reference : Option α}
    {instant : ℕ → Checked α Instant} {chosen : Instant × Instant → Instant → Bool}
    {xs ys : List (Segment α)} (h : List.Forall₂ Segment.Alike xs ys) (values : List (Option α)) :
    Same (overlay g field expected reference instant chosen values xs)
      (overlay g field expected reference instant chosen values ys) := by
  induction h generalizing values with
  | nil => exact Same.refl _
  | cons hxy _ ih =>
    unfold overlay
    rw [Segment.bounds_congr hxy]
    exact (Same.refl _).bind fun b => (hxy.value.resolve field expected reference).bind fun v =>
      (Same.refl _).bind fun written => ih written

theorem Alike.flowValues (h : s.Alike t) (g : Grid) (field : String) (expected : Dimension)
    (reference : Option α) :
    Same (s.flowValues g field expected reference) (t.flowValues g field expected reference) := by
  cases h with
  | constant hab => exact (hab.resolve field expected reference).bind fun v => Same.refl _
  | segments hxy => exact overlay_same hxy _
  | aligned hst => exact fun _ => ⟨hst.flowValues_of, hst.symm.flowValues_of⟩

theorem Alike.stateValues (h : s.Alike t) (g : Grid) (field : String) (expected : Dimension)
    (reference : Option α) :
    Same (s.stateValues g field expected reference) (t.stateValues g field expected reference) := by
  cases h with
  | constant hab => exact (constant hab).flowValues g field expected reference
  | segments hxy => exact overlay_same hxy _
  | aligned hst =>
    exact (Same.refl _).bind fun shifted => (aligned hst).flowValues shifted field expected reference

theorem Alike.required (h : s.Alike t) (g : Grid) (field : String) (expected : Dimension) :
    Same (s.required g field expected) (t.required g field expected) :=
  (h.flowValues g field expected none).bind fun _ => Same.refl _

theorem Alike.valuesOr (h : s.Alike t) (g : Grid) (field : String) (expected : Dimension)
    (default : α) : Same (s.valuesOr g field expected default) (t.valuesOr g field expected default) :=
  (h.flowValues g field expected none).bind fun _ => Same.refl _

theorem firstDimension_same {xs ys : List (Segment α)} (h : List.Forall₂ Segment.Alike xs ys) :
    Same (firstDimension xs) (firstDimension ys) := by
  induction h with
  | nil => exact Same.refl _
  | cons hxy _ ih =>
    unfold firstDimension
    apply hxy.value.bind
    intro v d c c'
    by_cases hbare : d = .dimensionless
    · rw [if_pos hbare, if_pos hbare]
      exact ih
    · rw [if_neg hbare, if_neg hbare]
      exact Same.refl _

theorem Alike.dimension (h : s.Alike t) : Same s.dimension t.dimension := by
  cases h with
  | constant hab => exact hab.bind fun v d c c' => Same.refl _
  | segments hxy => exact firstDimension_same hxy
  | aligned hst => exact fun _ => ⟨hst.dimension_of, hst.symm.dimension_of⟩

end Series

theorem optionalSeries_same {s t : Option (Series α)} (h : Option.Rel Series.Alike s t) (g : Grid)
    (field : String) (expected : Dimension) :
    Same (optionalSeries g s field expected) (optionalSeries g t field expected) := by
  cases h with
  | none => exact Same.refl _
  | some hst => exact (hst.required g field expected).bind fun _ => Same.refl _

/-! ## Storages -/

structure StorageModel.Alike (m n : StorageModel α) : Prop where
  socAtStart : Option.Rel Amount.Alike m.socAtStart n.socAtStart
  socMin : Option.Rel Amount.Alike m.socMin n.socMin
  socMax : Option.Rel Amount.Alike m.socMax n.socMax
  storageCapacity : Option.Rel Amount.Alike m.storageCapacity n.storageCapacity
  socMinima : Option.Rel Series.Alike m.socMinima n.socMinima
  socMaxima : Option.Rel Series.Alike m.socMaxima n.socMaxima
  socTargets : Option.Rel Series.Alike m.socTargets n.socTargets
  socMinimaBreachPrice : Option.Rel Amount.Alike m.socMinimaBreachPrice n.socMinimaBreachPrice
  socMaximaBreachPrice : Option.Rel Amount.Alike m.socMaximaBreachPrice n.socMaximaBreachPrice
  storedEnergyPrice : Option.Rel Amount.Alike m.storedEnergyPrice n.storedEnergyPrice
  powerCapacity : Option.Rel Series.Alike m.powerCapacity n.powerCapacity
  consumptionCapacity : Option.Rel Series.Alike m.consumptionCapacity n.consumptionCapacity
  productionCapacity : Option.Rel Series.Alike m.productionCapacity n.productionCapacity
  chargingEfficiency : Option.Rel Series.Alike m.chargingEfficiency n.chargingEfficiency
  dischargingEfficiency : Option.Rel Series.Alike m.dischargingEfficiency n.dischargingEfficiency
  roundtripEfficiency : Option.Rel Amount.Alike m.roundtripEfficiency n.roundtripEfficiency
  storageEfficiency : Option.Rel Series.Alike m.storageEfficiency n.storageEfficiency
  efficiencyMode : m.efficiencyMode = n.efficiencyMode
  socGain : Option.Rel Series.Alike m.socGain n.socGain
  socUsage : Option.Rel Series.Alike m.socUsage n.socUsage
  preferChargingSooner : m.preferChargingSooner = n.preferChargingSooner
  timeRestrictions : m.timeRestrictions = n.timeRestrictions

namespace StorageModel
variable {m n : StorageModel α}

theorem levels_same {s t : Option (Series α)} (h : Option.Rel Series.Alike s t) (g : Grid)
    (field : String) (capacity : Option α) :
    Same (levels g s field capacity) (levels g t field capacity) := by
  cases h with
  | none => exact Same.refl _
  | some hst => exact hst.stateValues g field .energy capacity

theorem seriesOr_same {s t : Option (Series α)} (h : Option.Rel Series.Alike s t) (g : Grid)
    (field : String) (expected : Dimension) (default : α) :
    Same (seriesOr g s field expected default) (seriesOr g t field expected default) := by
  cases h with
  | none => exact Same.refl _
  | some hst => exact hst.valuesOr g field expected default

theorem capacity_same (h : m.Alike n) (name : String) : Same (m.capacity name) (n.capacity name) := by
  have hcapacity := h.storageCapacity
  unfold StorageModel.capacity
  generalize m.storageCapacity = a at hcapacity
  generalize n.storageCapacity = b at hcapacity
  cases hcapacity with
  | none => exact optionalAmount_same h.socMax _ _ _
  | some hab => exact optionalAmount_same (.some hab) _ _ _

theorem powerBand_same (h : m.Alike n) (g : Grid) (name : String) :
    Same (m.powerBand g name) (n.powerBand g name) := by
  unfold powerBand
  rw [h.timeRestrictions]
  apply (optionalSeries_same h.powerCapacity g _ _).bind
  intro power
  apply (optionalSeries_same h.consumptionCapacity g _ _).bind
  intro consumption
  apply (optionalSeries_same h.productionCapacity g _ _).bind
  intro production
  exact Same.refl _

theorem dynamics_same (h : m.Alike n) (g : Grid) (name : String) (s : Stock α) :
    Same (m.dynamics g name s) (n.dynamics g name s) := by
  unfold dynamics
  apply (optionalAmount_same h.roundtripEfficiency _ _ _).bind
  intro roundtrip
  apply (seriesOr_same h.socGain g _ _ _).bind
  intro gain
  apply (seriesOr_same h.socUsage g _ _ _).bind
  intro usage
  apply (seriesOr_same h.chargingEfficiency g _ _ _).bind
  intro etaUp
  apply (seriesOr_same h.dischargingEfficiency g _ _ _).bind
  intro etaDown
  apply (seriesOr_same h.storageEfficiency g _ _ _).bind
  intro kept
  exact Same.refl _

theorem device_same (h : m.Alike n) (g : Grid) (name : String) (tariffs : Tariffs α)
    (sooner : Bool) :
    Warned.Same (m.device g name tariffs sooner) (n.device g name tariffs sooner) := by
  unfold device
  rw [h.efficiencyMode, h.preferChargingSooner]
  apply (Warned.Same.lift (capacity_same h name)).bind
  intro capacity
  apply (Warned.Same.lift (optionalAmount_same h.socAtStart _ _ _)).bind
  intro initial
  extract_lets price rest rest'
  have hrest : ∀ start, Warned.Same (rest start) (rest' start) := by
    intro start
    apply (Warned.Same.lift (optionalAmount_same h.socMin _ _ _)).bind
    intro lowest
    apply (Warned.Same.lift (optionalAmount_same h.socMax _ _ _)).bind
    intro highest
    apply (Warned.Same.lift (levels_same h.socMinima g _ _)).bind
    intro minima
    apply (Warned.Same.lift (levels_same h.socMaxima g _ _)).bind
    intro maxima
    apply (Warned.Same.lift (levels_same h.socTargets g _ _)).bind
    intro targets
    apply (Warned.Same.lift (optionalAmount_same h.socMinimaBreachPrice _ _ _)).bind
    intro minimaPrice
    apply (Warned.Same.lift (optionalAmount_same h.socMaximaBreachPrice _ _ _)).bind
    intro maximaPrice
    apply (Warned.Same.lift (optionalAmount_same h.storedEnergyPrice _ _ _)).bind
    intro stored
    apply (Warned.Same.lift (dynamics_same h g _ _)).bind
    intro stock
    apply (Warned.Same.lift (powerBand_same h g _)).bind
    intro band
    exact Warned.Same.refl _
  cases initial with
  | none => exact (Warned.Same.refl _).bind fun _ => (Warned.Same.refl _).bind hrest
  | some soc => exact (Warned.Same.refl _).bind hrest

end StorageModel

/-! ## Devices -/

structure ProcessModel.Alike (m n : ProcessModel α) : Prop where
  kind : m.kind = n.kind
  power : m.power.Alike n.power
  duration : m.duration = n.duration
  direction : m.direction = n.direction
  timeRestrictions : m.timeRestrictions = n.timeRestrictions

theorem ProcessModel.device_same {m n : ProcessModel α} (h : m.Alike n) (g : Grid) (name : String)
    (prices : List α) : Same (m.device g name prices) (n.device g name prices) := by
  unfold device
  rw [h.kind, h.duration, h.direction, h.timeRestrictions]
  apply ((h.power.resolve _ _ _).mapError _).bind
  intro power
  exact Same.refl _

inductive FlexModel.Alike : FlexModel α → FlexModel α → Prop where
  | storage {m n : StorageModel α} : m.Alike n → Alike (.storage m) (.storage n)
  | process {m n : ProcessModel α} : m.Alike n → Alike (.process m) (.process n)

structure DeviceRequest.Alike (d e : DeviceRequest α) : Prop where
  name : d.name = e.name
  flexModel : d.flexModel.Alike e.flexModel

theorem DeviceRequest.device_same {d e : DeviceRequest α} (h : d.Alike e) (g : Grid)
    (tariffs : Tariffs α) (sooner : Bool) :
    Warned.Same (d.device g tariffs sooner) (e.device g tariffs sooner) := by
  have hmodel := h.flexModel
  unfold device
  rw [h.name]
  generalize d.flexModel = x at hmodel
  generalize e.flexModel = y at hmodel
  cases hmodel with
  | storage hm => exact (StorageModel.device_same hm g e.name tariffs sooner).adapt _
  | process hm =>
    exact (Warned.Same.lift (ProcessModel.device_same hm g e.name _)).bind fun _ =>
      Warned.Same.refl _

structure FixedDevice.Alike (d e : FixedDevice α) : Prop where
  name : d.name = e.name
  power : d.power.Alike e.power

theorem FixedDevice.device_same {d e : FixedDevice α} (h : d.Alike e) (g : Grid) :
    Same (d.device g) (e.device g) := by
  unfold device
  rw [h.name]
  exact (h.power.required g _ _).bind fun _ => Same.refl _

/-! ## Sites -/

structure StatedCommitment.Alike (c e : StatedCommitment α) : Prop where
  name : c.name = e.name
  baseline : c.baseline.Alike e.baseline
  upPrice : c.upPrice.Alike e.upPrice
  downPrice : c.downPrice.Alike e.downPrice
  grouping : c.grouping = e.grouping
  device : c.device = e.device
  kind : c.kind = e.kind

namespace StatedCommitment
variable {c e : StatedCommitment α}

theorem prices_same {s t : Series α} (h : s.Alike t) (g : Grid) (field : String)
    (kind : CommitmentKind) : Same (prices g s field kind) (prices g t field kind) := by
  unfold prices
  apply h.dimension.bind
  intro d
  apply (h.valuesOr g field d 0).bind
  intro values
  exact Same.refl _

theorem commitment_same (h : c.Alike e) (g : Grid) : Same (c.commitment g) (e.commitment g) := by
  unfold commitment
  rw [h.name, h.grouping, h.device, h.kind]
  extract_lets field rest rest'
  have hrest : ∀ quantity, Same (rest quantity) (rest' quantity) := by
    intro quantity
    apply (prices_same h.upPrice g _ _).bind
    intro up
    apply (prices_same h.downPrice g _ _).bind
    intro down
    exact Same.refl _
  cases e.kind with
  | flow => exact (h.baseline.flowValues g _ _ _).bind hrest
  | stock => exact (h.baseline.stateValues g _ _ _).bind hrest

end StatedCommitment

structure SiteContext.Alike (c e : SiteContext α) : Prop where
  consumptionPrice : Option.Rel Series.Alike c.consumptionPrice e.consumptionPrice
  productionPrice : Option.Rel Series.Alike c.productionPrice e.productionPrice
  powerCapacity : Option.Rel Series.Alike c.powerCapacity e.powerCapacity
  consumptionCapacity : Option.Rel Series.Alike c.consumptionCapacity e.consumptionCapacity
  productionCapacity : Option.Rel Series.Alike c.productionCapacity e.productionCapacity
  consumptionBreachPrice : Option.Rel Series.Alike c.consumptionBreachPrice e.consumptionBreachPrice
  productionBreachPrice : Option.Rel Series.Alike c.productionBreachPrice e.productionBreachPrice
  peakConsumption : Option.Rel Series.Alike c.peakConsumption e.peakConsumption
  peakConsumptionPrice : Option.Rel Series.Alike c.peakConsumptionPrice e.peakConsumptionPrice
  peakProduction : Option.Rel Series.Alike c.peakProduction e.peakProduction
  peakProductionPrice : Option.Rel Series.Alike c.peakProductionPrice e.peakProductionPrice
  fixedDevices : List.Forall₂ FixedDevice.Alike c.fixedDevices e.fixedDevices
  commitments : List.Forall₂ StatedCommitment.Alike c.commitments e.commitments

namespace SiteContext
variable {c e : SiteContext α}

theorem consumptionLimits_same (h : c.Alike e) (g : Grid) (limits : SiteLimits α) :
    Warned.Same (c.consumptionLimits g limits) (e.consumptionLimits g limits) := by
  unfold consumptionLimits
  apply (Warned.Same.lift (optionalSeries_same h.consumptionCapacity g _ _)).bind
  intro cap
  apply (Warned.Same.lift (optionalSeries_same h.consumptionBreachPrice g _ _)).bind
  intro price
  exact Warned.Same.refl _

theorem productionLimits_same (h : c.Alike e) (g : Grid) (limits : SiteLimits α) :
    Warned.Same (c.productionLimits g limits) (e.productionLimits g limits) := by
  unfold productionLimits
  apply (Warned.Same.lift (optionalSeries_same h.productionCapacity g _ _)).bind
  intro cap
  apply (Warned.Same.lift (optionalSeries_same h.productionBreachPrice g _ _)).bind
  intro price
  exact Warned.Same.refl _

theorem consumptionPeak_same (h : c.Alike e) (g : Grid) :
    Same (c.consumptionPeak g) (e.consumptionPeak g) := by
  unfold consumptionPeak
  apply (optionalSeries_same h.peakConsumptionPrice g _ _).bind
  intro price
  cases price with
  | none => exact Same.refl _
  | some price => exact (optionalSeries_same h.peakConsumption g _ _).bind fun _ => Same.refl _

theorem productionPeak_same (h : c.Alike e) (g : Grid) :
    Same (c.productionPeak g) (e.productionPeak g) := by
  unfold productionPeak
  apply (optionalSeries_same h.peakProductionPrice g _ _).bind
  intro price
  cases price with
  | none => exact Same.refl _
  | some price => exact (optionalSeries_same h.peakProduction g _ _).bind fun _ => Same.refl _

theorem limits_same (h : c.Alike e) (g : Grid) : Warned.Same (c.limits g) (e.limits g) := by
  unfold SiteContext.limits powerLimits
  apply (Warned.Same.lift ((optionalSeries_same h.powerCapacity g _ _).bind fun _ =>
    Same.refl _)).bind
  intro limits
  apply (consumptionLimits_same h g limits).bind
  rintro ⟨limits, consumption⟩
  apply (productionLimits_same h g limits).bind
  rintro ⟨limits, production⟩
  apply (Warned.Same.lift (consumptionPeak_same h g)).bind
  intro consumptionPeak
  apply (Warned.Same.lift (productionPeak_same h g)).bind
  intro productionPeak
  exact Warned.Same.refl _

/-- If each of the tariffs names a currency, the first ones that they name agree. -/
def TariffsAgree (c : SiteContext α) : Prop :=
  ∀ b s, c.consumptionPrice.bind Series.currency = some b →
    c.productionPrice.bind Series.currency = some s → b = s

theorem tariffs_same (h : c.Alike e) (hagree : c.TariffsAgree ↔ e.TariffsAgree) (g : Grid) :
    Same (c.tariffs g) (e.tariffs g) := by
  have hbought := h.consumptionPrice
  have hsold := h.productionPrice
  unfold TariffsAgree at hagree
  intro t
  rw [tariffs_eq_ok, tariffs_eq_ok]
  generalize c.consumptionPrice = x at hbought hagree ⊢
  generalize e.consumptionPrice = y at hbought hagree ⊢
  generalize c.productionPrice = x' at hsold hagree ⊢
  generalize e.productionPrice = y' at hsold hagree ⊢
  cases hbought with
  | none => simp
  | some hbought =>
    cases hsold with
    | none => simp [hbought.required g _ _ _]
    | some hsold =>
      simp only [Option.bind_some] at hagree
      simp only [Option.some.injEq, exists_eq_left', hbought.required g _ _ _, hsold.required g _ _ _,
        hagree]

end SiteContext

/-! ## Requests -/

structure Request.Alike (r q : Request α) : Prop where
  start : r.start = q.start
  stop : r.stop = q.stop
  duration : r.duration = q.duration
  resolution : r.resolution = q.resolution
  zone : r.zone = q.zone
  devices : List.Forall₂ DeviceRequest.Alike r.devices q.devices
  context : r.context.Alike q.context

namespace Request
variable {r q : Request α}

theorem assemble_same (h : r.Alike q) (hagree : r.context.TariffsAgree ↔ q.context.TariffsAgree)
    (sooner : Bool) : Warned.Same (r.assemble sooner) (q.assemble sooner) := by
  have hgrid : r.grid = q.grid := by
    unfold Request.grid
    rw [h.start, h.stop, h.duration, h.resolution, h.zone]
  unfold assemble
  rw [hgrid]
  apply (Warned.Same.refl _).bind
  intro g
  apply (Warned.Same.lift ((SiteContext.tariffs_same h.context hagree g).mapError _)).bind
  intro tariffs
  apply (Warned.Same.mapM (h.devices.imp fun _ _ hd =>
    DeviceRequest.device_same hd g tariffs sooner)).bind
  intro planned
  apply (Warned.Same.lift ((Same.mapM (h.context.fixedDevices.imp fun _ _ hd =>
    FixedDevice.device_same hd g)).mapError _)).bind
  intro fixed
  apply ((SiteContext.limits_same h.context g).adapt _).bind
  rintro ⟨site, siteCommitments⟩
  apply (Warned.Same.lift ((Same.mapM (h.context.commitments.imp fun _ _ hc =>
    StatedCommitment.commitment_same hc g)).mapError _)).bind
  intro stated
  exact Warned.Same.refl _

/-- Requests that state the same become the same problem with the same warnings, or none. -/
theorem toProblem_same (h : r.Alike q)
    (hagree : r.context.TariffsAgree ↔ q.context.TariffsAgree) (sooner : Bool) (p : Problem α)
    (ws : List Warning) : r.toProblem sooner = (.ok p, ws) ↔ q.toProblem sooner = (.ok p, ws) :=
  assemble_same h hagree sooner [] p ws

end Request

end Dispatch
