import Dispatch.Proofs.Request.Fields
import Dispatch.Proofs.Request.LeastBill

/-! # The units of a request

* `UnitsFit`: the units of some fields fit wherever they are looked at.
* `StorageModel.unitsFit_device`, `SiteContext.unitsFit_limits`, `StatedCommitment.unitsFit`: a part of
  a request that has been read has fields whose units fit.
* `Request.units_fit`: so it is for every request that becomes a problem.
* `lamp_fee_in_kilowatts`: a price in kilowatts is held against its own unit only.
-/

namespace Dispatch
set_option autoImplicit false

open Exact Warned

variable {α : Type} [Scalar α]

/-! ## Fields that have been read -/

/-- The units of the fields fit wherever they are looked at. -/
def UnitsFit (g : Grid) (fields : List (StatedField α)) : Prop :=
  ∀ f ∈ fields, f.Examined g → f.Fits

theorem unitsFit_append {g : Grid} {xs ys : List (StatedField α)} :
    UnitsFit g (xs ++ ys) ↔ UnitsFit g xs ∧ UnitsFit g ys :=
  List.forall_mem_append

theorem unitsFit_flatMap {β : Type} {g : Grid} {xs : List β} {f : β → List (StatedField α)}
    (h : ∀ x ∈ xs, UnitsFit g (f x)) : UnitsFit g (xs.flatMap f) := by
  intro k hk
  obtain ⟨x, hx, hk⟩ := List.mem_flatMap.mp hk
  exact h x hx k hk

section
variable {g : Grid} {name : String} {expected : Dimension} {admits : List Dimension}

theorem unitsFit_series {s : Option (Series α)} {reading : Reading}
    (h : ∀ k, s = some k → (⟨name, k, admits, reading⟩ : StatedField α).Examined g →
      ∀ a ∈ k.amounts, a.Fits admits) :
    UnitsFit g (seriesField name s admits reading) := by
  intro f hf hexamined
  obtain ⟨k, hk, rfl⟩ := List.mem_map.mp hf
  exact h k (Option.mem_toList.mp hk) hexamined

theorem unitsFit_amount {a : Option (Amount α)} {reference v : Option α}
    (h : optionalAmount a name expected reference = .ok v)
    (hadmits : expected.admitted reference = admits) :
    UnitsFit g (amountField name a admits) := by
  intro f hf _
  obtain ⟨a, ha, rfl⟩ := List.mem_map.mp hf
  cases Option.mem_toList.mp ha
  obtain ⟨v, hv, -⟩ := Checked.bind_eq_ok.mp h
  intro b hb
  rw [List.mem_singleton.mp hb, ← hadmits]
  exact Amount.fits_of_resolve hv

theorem unitsFit_gapless {s : Option (Series α)} {vs : Option (List α)}
    (h : optionalSeries g s name expected = .ok vs) (hlen : 0 < g.len) :
    UnitsFit g (seriesField name s [expected] .gapless) := by
  apply unitsFit_series
  rintro k rfl -
  obtain ⟨xs, hxs, -⟩ := Checked.bind_eq_ok.mp h
  obtain ⟨vs, hvs, -⟩ := Series.ne_none_of_required hxs
  rw [← Dimension.admitted_none (α := α)]
  exact Series.fits_of_flowValues hvs (Series.inForce_of_required hxs hlen)

theorem unitsFit_slots {s : Option (Series α)} {default : α} {xs : List α}
    (h : StorageModel.seriesOr g s name expected default = .ok xs) :
    UnitsFit g (seriesField name s [expected] .slots) := by
  apply unitsFit_series
  rintro k rfl hforce
  obtain ⟨vs, hvs, -⟩ := Checked.bind_eq_ok.mp h
  rw [← Dimension.admitted_none (α := α)]
  exact Series.fits_of_flowValues hvs hforce

theorem unitsFit_levels {s : Option (Series α)} {capacity : Option α} {xs : List (Option α)}
    (h : StorageModel.levels g s name capacity = .ok xs)
    (hadmits : Dimension.energy.admitted capacity = admits) :
    UnitsFit g (seriesField name s admits .slotEnds) := by
  apply unitsFit_series
  rintro k rfl hforce
  rw [← hadmits]
  exact Series.fits_of_stateValues h hforce

/-- A price states one unit throughout: the first that it states. -/
theorem StatedCommitment.amounts_of_prices {s : Series α} {kind : CommitmentKind} {xs : List α}
    (h : StatedCommitment.prices g s name kind = .ok xs) :
    ∃ d, s.dimension = .ok d ∧ ∀ a ∈ s.amounts, a.Fits [d] := by
  obtain ⟨d, hd, h⟩ := Checked.bind_eq_ok.mp h
  obtain ⟨values, hvalues, -⟩ := Checked.bind_eq_ok.mp h
  obtain ⟨vs, hvs, -⟩ := Checked.bind_eq_ok.mp hvalues
  refine ⟨d, hd, ?_⟩
  cases s with
  | aligned a =>
    obtain ⟨⟨values, dimension, currency⟩, hscaled, hpure⟩ := Checked.bind_eq_ok.mp hd
    cases Checked.pure_eq_ok.mp hpure
    intro b hb
    obtain ⟨unit, hunit, rfl⟩ := List.mem_map.mp hb
    rw [AlignedSeries.scaled, Option.mem_toList.mp hunit] at hscaled
    obtain ⟨one, hone, hscaled⟩ := Checked.bind_eq_ok.mp hscaled
    cases Checked.pure_eq_ok.mp hscaled
    exact ⟨one, hone, .inr List.mem_cons_self⟩
  | constant a =>
    rw [← Dimension.admitted_none (α := α)]
    exact Series.fits_of_flowValues hvs trivial
  | segments items =>
    rw [← Dimension.admitted_none (α := α)]
    exact Series.fits_of_flowValues hvs trivial

theorem unitsFit_prices {s : Series α} {kind : CommitmentKind} {xs : List α}
    (h : StatedCommitment.prices g s name kind = .ok xs) :
    UnitsFit g (seriesField name (some s) [.energyPrice, .powerPrice] .ownUnit) := by
  apply unitsFit_series
  rintro k ⟨⟩ ⟨d, hd, hprice⟩
  obtain ⟨d', hd', hfits⟩ := StatedCommitment.amounts_of_prices h
  obtain rfl : d = d' := Except.ok.inj (hd.symm.trans hd')
  intro a ha
  apply (hfits a ha).mono
  rintro _ hmem
  rw [List.mem_singleton.mp hmem]
  exact hprice

end

/-! ## Storages -/

omit [Scalar α] in
theorem admitted_capacity {capacity : Option α} {stated : Bool} (h : capacity.isSome = stated) :
    Dimension.energy.admitted capacity = levelDimensions stated := by
  unfold Dimension.admitted levelDimensions
  cases stated <;> simp [h]

namespace StorageModel
variable {m : StorageModel α} {g : Grid} {name : String}

theorem isSome_of_capacity {capacity : Option α} (h : m.capacity name = .ok capacity) :
    capacity.isSome = (m.storageCapacity.or m.socMax).isSome := by
  unfold StorageModel.capacity at h
  cases hstated : m.storageCapacity with
  | none =>
    rw [hstated] at h
    exact isSome_of_optionalAmount h
  | some c =>
    rw [hstated] at h
    exact isSome_of_optionalAmount h

theorem unitsFit_capacity {capacity : Option α} (h : m.capacity name = .ok capacity) :
    UnitsFit g (amountField (fieldOf name "storage-capacity") m.storageCapacity [.energy]) := by
  unfold StorageModel.capacity at h
  cases hstated : m.storageCapacity with
  | none => exact fun f hf => absurd hf List.not_mem_nil
  | some c =>
    rw [hstated] at h
    exact unitsFit_amount h (Dimension.admitted_none _)

/-- An upper level that stands for the capacity is no percentage of it. -/
theorem unitsFit_socMax {capacity highest : Option α} (h : m.capacity name = .ok capacity)
    (hhighest : optionalAmount m.socMax (fieldOf name "soc-max") .energy capacity = .ok highest) :
    UnitsFit g (amountField (fieldOf name "soc-max") m.socMax
      (levelDimensions m.storageCapacity.isSome)) := by
  cases hstated : m.storageCapacity with
  | none =>
    unfold StorageModel.capacity at h
    rw [hstated] at h
    exact unitsFit_amount h (Dimension.admitted_none _)
  | some c =>
    have hsome := isSome_of_capacity h
    rw [hstated] at hsome
    exact unitsFit_amount hhighest (admitted_capacity hsome)

theorem unitsFit_band {lo hi : List α} (h : m.powerBand g name = .ok (lo, hi)) (hlen : 0 < g.len) :
    UnitsFit g (m.bandFields name) := by
  unfold powerBand at h
  obtain ⟨power, hpower, h⟩ := Checked.bind_eq_ok.mp h
  obtain ⟨consumption, hconsumption, h⟩ := Checked.bind_eq_ok.mp h
  obtain ⟨production, hproduction, -⟩ := Checked.bind_eq_ok.mp h
  simp only [bandFields, unitsFit_append, and_assoc]
  exact ⟨unitsFit_gapless hpower hlen, unitsFit_gapless hconsumption hlen,
    unitsFit_gapless hproduction hlen⟩

theorem unitsFit_dynamics {s s' : Stock α} (h : m.dynamics g name s = .ok s') :
    UnitsFit g (m.dynamicsFields name) := by
  unfold dynamics at h
  obtain ⟨_, hroundtrip, h⟩ := Checked.bind_eq_ok.mp h
  obtain ⟨_, hgain, h⟩ := Checked.bind_eq_ok.mp h
  obtain ⟨_, husage, h⟩ := Checked.bind_eq_ok.mp h
  obtain ⟨_, hcharging, h⟩ := Checked.bind_eq_ok.mp h
  obtain ⟨_, hdischarging, h⟩ := Checked.bind_eq_ok.mp h
  obtain ⟨_, hkept, -⟩ := Checked.bind_eq_ok.mp h
  simp only [dynamicsFields, unitsFit_append, and_assoc]
  exact ⟨unitsFit_amount hroundtrip (Dimension.admitted_none _), unitsFit_slots hgain,
    unitsFit_slots husage, unitsFit_slots hcharging, unitsFit_slots hdischarging,
    unitsFit_slots hkept⟩

theorem unitsFit_device {tariffs : Tariffs α} {sooner : Bool} {d : Device α × List (Commitment α)}
    (h : (m.device g name tariffs sooner).Yields d) (hlen : 0 < g.len) :
    UnitsFit g (m.fields name) := by
  unfold device at h
  obtain ⟨capacity, hcapacity, h⟩ := yields_bind h
  extract_lets level price rest at h
  obtain ⟨initial, hinitial, h⟩ := yields_bind h
  -- Whether an initial level is stated or not, the same is read after it.
  have hrest : ∃ start, (rest start).Yields d := by
    cases initial with
    | none =>
      obtain ⟨_, -, h⟩ := yields_bind h
      obtain ⟨start, -, h⟩ := yields_bind h
      exact ⟨start, h⟩
    | some soc =>
      obtain ⟨start, -, h⟩ := yields_bind h
      exact ⟨start, h⟩
  obtain ⟨start, h⟩ := hrest
  obtain ⟨lowest, hlowest, h⟩ := yields_bind h
  obtain ⟨highest, hhighest, h⟩ := yields_bind h
  obtain ⟨minima, hminima, h⟩ := yields_bind h
  obtain ⟨maxima, hmaxima, h⟩ := yields_bind h
  obtain ⟨targets, htargets, h⟩ := yields_bind h
  obtain ⟨minimaPrice, hminimaPrice, h⟩ := yields_bind h
  obtain ⟨maximaPrice, hmaximaPrice, h⟩ := yields_bind h
  obtain ⟨stored, hstored, h⟩ := yields_bind h
  obtain ⟨stock, hstock, h⟩ := yields_bind h
  obtain ⟨⟨powerMin, powerMax⟩, hband, -⟩ := yields_bind h
  replace hcapacity := yields_lift hcapacity
  have hadmits := admitted_capacity (isSome_of_capacity hcapacity)
  have hlevels : UnitsFit g (m.levelFields name) := by
    simp only [levelFields, unitsFit_append, and_assoc]
    exact ⟨unitsFit_capacity hcapacity, unitsFit_amount (yields_lift hinitial) hadmits,
      unitsFit_amount (yields_lift hlowest) hadmits, unitsFit_socMax hcapacity (yields_lift hhighest),
      unitsFit_levels (yields_lift hminima) hadmits, unitsFit_levels (yields_lift hmaxima) hadmits,
      unitsFit_levels (yields_lift htargets) hadmits⟩
  have hprices : UnitsFit g (m.priceFields name) := by
    simp only [priceFields, unitsFit_append, and_assoc]
    exact ⟨unitsFit_amount (yields_lift hminimaPrice) (Dimension.admitted_none _),
      unitsFit_amount (yields_lift hmaximaPrice) (Dimension.admitted_none _),
      unitsFit_amount (yields_lift hstored) (Dimension.admitted_none _)⟩
  simp only [fields, unitsFit_append, and_assoc]
  exact ⟨hlevels, hprices, unitsFit_band (yields_lift hband) hlen,
    unitsFit_dynamics (yields_lift hstock)⟩

end StorageModel

/-! ## Sites -/

namespace SiteContext
variable {c : SiteContext α} {g : Grid} {limits : SiteLimits α}
  {d : SiteLimits α × List (Commitment α)}

theorem unitsFit_required {s : Series α} {name : String} {expected : Dimension} {vs : List α}
    (h : s.required g name expected = .ok vs) (hlen : 0 < g.len) :
    UnitsFit g (seriesField name (some s) [expected] .gapless) := by
  have hread : optionalSeries g (some s) name expected = .ok (some vs) :=
    Checked.bind_eq_ok.mpr ⟨vs, h, rfl⟩
  exact unitsFit_gapless hread hlen

theorem unitsFit_tariffs {t : Tariffs α} (h : c.tariffs g = .ok t) (hlen : 0 < g.len) :
    UnitsFit g c.tariffFields := by
  obtain ⟨bought, hbought, hconsumption, hsold⟩ := tariffs_eq_ok.mp h
  unfold tariffFields
  rw [hbought, unitsFit_append]
  refine ⟨unitsFit_required hconsumption hlen, ?_⟩
  cases hprice : c.productionPrice with
  | none => exact fun f hf => absurd hf List.not_mem_nil
  | some sold =>
    rw [hprice] at hsold
    exact unitsFit_required hsold.2 hlen

theorem unitsFit_consumption (h : (c.consumptionLimits g limits).Yields d) (hlen : 0 < g.len) :
    UnitsFit g (seriesField "site-consumption-capacity" c.consumptionCapacity [.power] .gapless) ∧
      UnitsFit g (seriesField "site-consumption-breach-price" c.consumptionBreachPrice [.powerPrice]
        .gapless) := by
  unfold consumptionLimits at h
  obtain ⟨cap, hcap, h⟩ := yields_bind h
  obtain ⟨price, hprice, -⟩ := yields_bind h
  exact ⟨unitsFit_gapless (yields_lift hcap) hlen, unitsFit_gapless (yields_lift hprice) hlen⟩

theorem unitsFit_production (h : (c.productionLimits g limits).Yields d) (hlen : 0 < g.len) :
    UnitsFit g (seriesField "site-production-capacity" c.productionCapacity [.power] .gapless) ∧
      UnitsFit g (seriesField "site-production-breach-price" c.productionBreachPrice [.powerPrice]
        .gapless) := by
  unfold productionLimits at h
  obtain ⟨cap, hcap, h⟩ := yields_bind h
  obtain ⟨price, hprice, -⟩ := yields_bind h
  exact ⟨unitsFit_gapless (yields_lift hcap) hlen, unitsFit_gapless (yields_lift hprice) hlen⟩

/-- Without a price the peak itself is not read. -/
theorem unitsFit_peak {peak price : Option (Series α)} {name priceName : String}
    {f : Option (List α) → List α → List (Commitment α)} {cs : List (Commitment α)}
    (h : (do
      match ← optionalSeries g price priceName .powerPrice with
      | none => return []
      | some price =>
        let peak ← optionalSeries g peak name .power
        return f peak price : Checked α (List (Commitment α))) = .ok cs) (hlen : 0 < g.len) :
    UnitsFit g (seriesField name peak [.power] (peakReading price)) ∧
      UnitsFit g (seriesField priceName price [.powerPrice] .gapless) := by
  obtain ⟨vs, hvs, h⟩ := Checked.bind_eq_ok.mp h
  refine ⟨?_, unitsFit_gapless hvs hlen⟩
  unfold peakReading
  rw [← isSome_of_optionalSeries hvs]
  cases vs with
  | none => exact unitsFit_series fun k _ hunread => hunread.elim
  | some vs =>
    obtain ⟨ks, hks, -⟩ := Checked.bind_eq_ok.mp h
    exact unitsFit_gapless hks hlen

theorem unitsFit_limits (h : (c.limits g).Yields d) (hlen : 0 < g.len) :
    UnitsFit g c.limitFields := by
  unfold SiteContext.limits at h
  obtain ⟨limits₁, hpower, h⟩ := yields_bind h
  obtain ⟨⟨limits₂, cs₁⟩, hconsumption, h⟩ := yields_bind h
  obtain ⟨⟨limits₃, cs₂⟩, hproduction, h⟩ := yields_bind h
  obtain ⟨cs₃, hconsumptionPeak, h⟩ := yields_bind h
  obtain ⟨cs₄, hproductionPeak, h⟩ := yields_bind h
  obtain ⟨vs, hvs, -⟩ := Checked.bind_eq_ok.mp (yields_lift hpower)
  obtain ⟨hcapacity, hbreach⟩ := unitsFit_consumption hconsumption hlen
  obtain ⟨hcapacity', hbreach'⟩ := unitsFit_production hproduction hlen
  obtain ⟨hpeak, hprice⟩ := unitsFit_peak (yields_lift hconsumptionPeak) hlen
  obtain ⟨hpeak', hprice'⟩ := unitsFit_peak (yields_lift hproductionPeak) hlen
  simp only [limitFields, unitsFit_append, and_assoc]
  exact ⟨unitsFit_gapless hvs hlen, hcapacity, hcapacity', hbreach, hbreach', hpeak, hprice, hpeak',
    hprice'⟩

end SiteContext

/-! ## Requests -/

namespace StatedCommitment
variable {c : StatedCommitment α} {g : Grid} {e : Commitment α}

theorem reads_of_commitment (h : c.commitment g = .ok e) :
    (match c.kind with
      | .flow => ∃ vs, c.baseline.flowValues g
          (fieldOf (fieldOf "commitments" c.name) "baseline") .power none = .ok vs
      | .stock => ∃ vs, c.baseline.stateValues g
          (fieldOf (fieldOf "commitments" c.name) "baseline") .energy none = .ok vs) ∧
    ∃ up down,
      prices g c.upPrice (fieldOf (fieldOf "commitments" c.name) "up-price") c.kind = .ok up ∧
      prices g c.downPrice (fieldOf (fieldOf "commitments" c.name) "down-price") c.kind = .ok down := by
  unfold commitment at h
  cases hkind : c.kind with
  | flow =>
    rw [hkind] at h
    obtain ⟨baseline, hbaseline, h⟩ := Checked.bind_eq_ok.mp h
    obtain ⟨up, hup, h⟩ := Checked.bind_eq_ok.mp h
    obtain ⟨down, hdown, -⟩ := Checked.bind_eq_ok.mp h
    exact ⟨⟨baseline, hbaseline⟩, up, down, hup, hdown⟩
  | stock =>
    rw [hkind] at h
    obtain ⟨baseline, hbaseline, h⟩ := Checked.bind_eq_ok.mp h
    obtain ⟨up, hup, h⟩ := Checked.bind_eq_ok.mp h
    obtain ⟨down, hdown, -⟩ := Checked.bind_eq_ok.mp h
    exact ⟨⟨baseline, hbaseline⟩, up, down, hup, hdown⟩

theorem unitsFit (h : c.commitment g = .ok e) : UnitsFit g c.fields := by
  obtain ⟨hbaseline, up, down, hup, hdown⟩ := reads_of_commitment h
  simp only [fields, unitsFit_append, and_assoc]
  refine ⟨?_, unitsFit_prices hup, unitsFit_prices hdown⟩
  cases hkind : c.kind with
  | flow =>
    rw [hkind] at hbaseline
    obtain ⟨vs, hvs⟩ := hbaseline
    apply unitsFit_series
    rintro k ⟨⟩ hforce
    rw [← Dimension.admitted_none (α := α)]
    exact Series.fits_of_flowValues hvs hforce
  | stock =>
    rw [hkind] at hbaseline
    obtain ⟨vs, hvs⟩ := hbaseline
    apply unitsFit_series
    rintro k ⟨⟩ hforce
    rw [← Dimension.admitted_none (α := α)]
    exact Series.fits_of_stateValues hvs hforce

end StatedCommitment

theorem FixedDevice.unitsFit {d : FixedDevice α} {g : Grid} {e : Device α}
    (h : d.device g = .ok e) (hlen : 0 < g.len) : UnitsFit g d.fields := by
  obtain ⟨power, hpower, -⟩ := Checked.bind_eq_ok.mp h
  exact SiteContext.unitsFit_required hpower hlen

theorem DeviceRequest.unitsFit {d : DeviceRequest α} {g : Grid} {tariffs : Tariffs α} {sooner : Bool}
    {e : Device α × List (Commitment α)} (h : (d.device g tariffs sooner).Yields e)
    (hlen : 0 < g.len) : UnitsFit g d.fields := by
  unfold device at h
  unfold fields
  cases hmodel : d.flexModel with
  | storage m =>
    rw [hmodel] at h
    exact StorageModel.unitsFit_device (yields_adapt h) hlen
  | process m =>
    rw [hmodel] at h
    obtain ⟨device, hdevice, -⟩ := yields_bind h
    obtain ⟨power, hpower, -⟩ := Checked.bind_eq_ok.mp (yields_lift hdevice)
    have hamount : optionalAmount (some m.power) (fieldOf d.name "power") .power none =
        .ok (some power) := by
      rw [optionalAmount, Checked.mapError_eq_ok.mp hpower]
      rfl
    exact unitsFit_amount hamount (Dimension.admitted_none _)

/-- In every request that becomes a problem the quantities fit their fields, whatever the spelling of
a series, wherever the unit of the field is looked at; and each price of a stated commitment states one
unit throughout. -/
theorem Request.units_fit {r : Request α} {sooner : Bool} {p : Problem α}
    (h : (r.toProblem sooner).1 = .ok p) :
    (∀ f ∈ r.fields, f.Examined p.grid → f.Fits) ∧
      ∀ c ∈ r.context.commitments, ∀ s ∈ [c.upPrice, c.downPrice],
        ∃ d, s.dimension = .ok d ∧ ∀ a ∈ s.amounts, a.Fits [d] := by
  obtain ⟨tariffs, planned, fixed, siteCommitments, stated, hsteps⟩ := steps_of_toProblem h
  have hlen : 0 < p.grid.len := Nat.pos_of_ne_zero (Checked.guardThen_eq_ok.mp hsteps.check).1
  constructor
  · have hall : UnitsFit p.grid r.fields := by
      simp only [fields, unitsFit_append, and_assoc]
      refine ⟨SiteContext.unitsFit_tariffs hsteps.prices hlen,
        SiteContext.unitsFit_limits hsteps.limits hlen, unitsFit_flatMap fun d hd => ?_,
        unitsFit_flatMap fun d hd => ?_, unitsFit_flatMap fun c hc => ?_⟩
      · obtain ⟨e, -, he⟩ := forall₂_exists_of_mem hsteps.plans hd
        exact DeviceRequest.unitsFit he hlen
      · obtain ⟨e, -, he⟩ := forall₂_exists_of_mem hsteps.fixtures hd
        exact FixedDevice.unitsFit he hlen
      · obtain ⟨e, -, he⟩ := forall₂_exists_of_mem hsteps.raw hc
        exact StatedCommitment.unitsFit he
    exact hall
  · intro c hc s hs
    obtain ⟨e, -, he⟩ := forall₂_exists_of_mem hsteps.raw hc
    obtain ⟨-, up, down, hup, hdown⟩ := StatedCommitment.reads_of_commitment he
    rcases List.mem_pair.mp hs with rfl | rfl
    · exact StatedCommitment.amounts_of_prices hup
    · exact StatedCommitment.amounts_of_prices hdown

/-! ## A lamp and a fee -/

/-- A text whose number is finite is read by its unit. -/
theorem Quantity.ofText_eq {s : String} {cs unit : List Char} {d : Decimal}
    (htrim : Text.trim s.toList = cs)
    (hsplit : longestNumeral cs.length cs = some (.finite d, unit)) :
    (Quantity.ofText s : Checked Exact (Quantity Exact)) =
      (Quantity.ofUnit (Scalar.ofDecimal d) unit).mapError (Fault.text (String.ofList cs)) := by
  have hfinite : Scalar.isFinite (Scalar.ofDecimal d : Exact) = true := rfl
  simp only [ofText, htrim, splitNumber?, hsplit, hfinite, if_true]

theorem quantity_fiveKilowatts :
    (Amount.text "5 kW" : Amount Exact).quantity = .ok ⟨num 5, .power, none⟩ := by
  have htrim : Text.trim "5 kW".toList = "5 kW".toList := by decide +kernel
  have hsplit : longestNumeral 4 "5 kW".toList = some (.finite ⟨false, 5, 0⟩, ['k', 'W']) := by
    decide +kernel
  have hfive : (Scalar.ofDecimal ⟨false, 5, 0⟩ : Exact) * 1 = num 5 := by
    show Exact.ofDecimal _ * 1 = _
    simp [Exact.ofDecimal, one_eq]
  rw [Amount.quantity, Quantity.ofText_eq htrim hsplit, Quantity.ofUnit]
  simp [powerFactor?, hfive, Except.mapError]

/-- One unit of a currency per kWh. -/
theorem quantity_one {s currency : String} {cs unit : List Char} (htrim : Text.trim s.toList = cs)
    (hsplit : longestNumeral cs.length cs = some (.finite ⟨false, 1, 0⟩, unit))
    (hunit : ∀ v : Exact, Quantity.ofUnit v unit = .ok ⟨v / 1, .energyPrice, some currency⟩) :
    (Amount.text s : Amount Exact).quantity = .ok ⟨num 1, .energyPrice, some currency⟩ := by
  have hone : (Scalar.ofDecimal ⟨false, 1, 0⟩ : Exact) / 1 = num 1 := by
    show Exact.ofDecimal _ / 1 = _
    simp [Exact.ofDecimal, one_eq, num_div]
  rw [Amount.quantity, Quantity.ofText_eq htrim hsplit, hunit, hone]
  rfl

theorem quantity_euroPerKilowattHour :
    (Amount.text "1 EUR/kWh" : Amount Exact).quantity =
      .ok ⟨num 1, .energyPrice, some "EUR"⟩ := by
  have htrim : Text.trim "1 EUR/kWh".toList = "1 EUR/kWh".toList := by decide +kernel
  have hsplit : longestNumeral 9 "1 EUR/kWh".toList =
      some (.finite ⟨false, 1, 0⟩, "EUR/kWh".toList) := by decide +kernel
  exact quantity_one htrim hsplit fun v => rfl

noncomputable def lampFee (price fee : Amount Exact) : Request Exact :=
  { oneStorage with
    devices := []
    context := { SiteContext.empty with
      consumptionPrice := some (.constant price)
      consumptionCapacity := some (.constant (.number (num 1)))
      fixedDevices := [⟨"lamp", .constant (.number (num 1))⟩]
      commitments := [⟨"fee", .constant (.number (num 0)), .constant fee,
        .constant (.number (num 0)), .each, none, .flow⟩] } }

noncomputable def lampProblem (price fee : ℝ) : Problem Exact where
  grid := Problem.oneHour
  devices := [Device.fixed "lamp" [num 1]]
  commitments := [Tariffs.commitment ⟨[num price], [num price]⟩ Problem.oneHour,
    .siteFlow "fee" [some (num 0)] [num fee] [num 0] .each]
  site := ⟨[negInf], [num 1]⟩

theorem resolve_of_quantity {a : Amount Exact} {q : Quantity Exact} {field : String}
    {reference : Option Exact} (h : a.quantity = .ok q) :
    a.resolve field q.dimension reference = .ok q.value := by
  simp [Amount.resolve, h, Except.bind, Quantity.canonical, Checked.inField, Except.mapError]

theorem lampProblem_check (price fee : ℝ) : (lampProblem price fee).check = .ok () := by
  apply Problem.oneHour_check
  · refine Device.check_eq_ok.mpr ⟨⟨rfl, rfl⟩, fun j hj => ?_, fun s hs => by cases hs⟩
    simp [Nat.lt_one_iff.mp hj, Device.checkSlot, Device.fixed, Device.flexible, valueAt]
  · intro c hc
    rcases List.mem_pair.mp hc with rfl | rfl
    · exact ⟨oneHour_tariffs_check price price, rfl⟩
    · exact ⟨Problem.oneSlot_check rfl rfl rfl rfl (fun h => by cases h.1), rfl⟩

theorem dimension_constant {a : Amount Exact} {q : Quantity Exact} (h : a.quantity = .ok q) :
    (Series.constant a).dimension = .ok q.dimension :=
  Checked.bind_eq_ok.mpr ⟨q, h, rfl⟩

theorem fee_prices {fee : Amount Exact} {x : ℝ} {d : Dimension} {currency : Option String}
    (h : fee.quantity = .ok ⟨num x, d, currency⟩) (field : String) :
    StatedCommitment.prices Problem.oneHour (.constant fee) field .flow = .ok [num x] := by
  have hresolve : fee.resolve field d none = .ok (num x) := resolve_of_quantity h
  have hscaled : scaledBy Problem.oneHour 1 [num x] = [num x] :=
    (oneHour_scaledBy 1 x).trans (by rw [mul_one])
  unfold StatedCommitment.prices
  refine Checked.bind_eq_ok.mpr ⟨d, dimension_constant h, ?_⟩
  refine Checked.bind_eq_ok.mpr ⟨[num x], valuesOr_constant hresolve 0 _, ?_⟩
  split_ifs
  · exact congrArg Except.ok hscaled
  · rfl

/-- Whatever the fee measures, the request is accepted. -/
theorem lampFee_toProblem {price fee : Amount Exact} {x y : ℝ} {d : Dimension}
    {c c' : Option String} (hprice : price.quantity = .ok ⟨num x, .energyPrice, c⟩)
    (hfee : fee.quantity = .ok ⟨num y, d, c'⟩) :
    ((lampFee price fee).toProblem false).1 = .ok (lampProblem x y) := by
  have hgrid : (lampFee price fee).grid = .ok Problem.oneHour := oneStorage_grid
  have hresolve : price.resolve "consumption-price" .energyPrice none = .ok (num x) :=
    resolve_of_quantity hprice
  have htariffs : (lampFee price fee).context.tariffs Problem.oneHour = .ok ⟨[num x], [num x]⟩ :=
    SiteContext.tariffs_eq_ok.mpr ⟨_, rfl, required_constant hresolve _, rfl⟩
  have hlimits : (lampFee price fee).context.limits Problem.oneHour = pure (⟨[negInf], [num 1]⟩, []) :=
    oneStorage_limits
  have hfixed : (lampFee price fee).context.fixedDevices.mapM (fun d => d.device Problem.oneHour) =
      (.ok [Device.fixed "lamp" [num 1]] : Checked Exact _) := by
    refine Checked.mapM_eq_ok.mpr (.cons ?_ .nil)
    rw [FixedDevice.device, required_number]
    rfl
  have hstated : (lampFee price fee).context.commitments.mapM (fun c => c.commitment Problem.oneHour) =
      (.ok [.siteFlow "fee" [some (num 0)] [num y] [num 0] .each] : Checked Exact _) := by
    refine Checked.mapM_eq_ok.mpr (.cons ?_ .nil)
    have hzero : (Amount.number (num 0)).quantity = .ok ⟨num 0, .dimensionless, none⟩ := rfl
    have hbaseline := flowValues_constant (resolve_number (num 0)
      (fieldOf (fieldOf "commitments" "fee") "baseline") .power none) Problem.oneHour
    simp only [StatedCommitment.commitment, hbaseline, fee_prices hfee, fee_prices hzero]
    rfl
  have hdevices : (lampFee price fee).devices = [] := rfl
  have hassemble : (lampFee price fee).assemble false = pure (lampProblem x y) := by
    have hcheck : Problem.check ⟨Problem.oneHour, [Device.fixed "lamp" [num 1]],
        [Tariffs.commitment ⟨[num x], [num x]⟩ Problem.oneHour,
          .siteFlow "fee" [some (num 0)] [num y] [num 0] .each], ⟨[negInf], [num 1]⟩⟩ = .ok () :=
      lampProblem_check x y
    simp only [Request.assemble, hgrid, Except.mapError, lift_ok, pure_bind, htariffs, hdevices,
      hfixed, hlimits, hstated, adapt_pure, List.mapM_nil, List.map_nil, List.flatMap_nil,
      List.nil_append, List.cons_append, hcheck]
    rfl
  rw [Request.toProblem, hassemble]
  rfl

theorem lampFee_fields (price fee : Amount Exact) : (lampFee price fee).fields =
    [⟨"consumption-price", .constant price, [.energyPrice], .gapless⟩,
      ⟨"site-consumption-capacity", .constant (.number (num 1)), [.power], .gapless⟩,
      ⟨"inflexible-device-sensors.lamp", .constant (.number (num 1)), [.power], .gapless⟩,
      ⟨"commitments.fee.baseline", .constant (.number (num 0)), [.power], .slots⟩,
      ⟨"commitments.fee.up-price", .constant fee, [.energyPrice, .powerPrice], .ownUnit⟩,
      ⟨"commitments.fee.down-price", .constant (.number (num 0)), [.energyPrice, .powerPrice],
        .ownUnit⟩] :=
  rfl

theorem lamp_units_fit : ∃ p,
    ((lampFee (.text "1 EUR/kWh") (.text "1 EUR/kWh")).toProblem false).1 = .ok p ∧
      ∀ f ∈ (lampFee (.text "1 EUR/kWh") (.text "1 EUR/kWh")).fields,
        f.Examined p.grid ∧ f.Fits := by
  have haccepted := lampFee_toProblem quantity_euroPerKilowattHour quantity_euroPerKilowattHour
  obtain ⟨hfit, -⟩ := Request.units_fit haccepted
  refine ⟨_, haccepted, fun f hf => ?_⟩
  have hexamined : f.Examined Problem.oneHour := by
    rw [lampFee_fields] at hf
    simp only [List.mem_cons, List.not_mem_nil, or_false] at hf
    rcases hf with rfl | rfl | rfl | rfl | rfl | rfl
    · trivial
    · trivial
    · trivial
    · trivial
    · exact ⟨.energyPrice, dimension_constant quantity_euroPerKilowattHour, .inr List.mem_cons_self⟩
    · exact ⟨.dimensionless, rfl, .inl rfl⟩
  exact ⟨hexamined, hfit f hf hexamined⟩

/-- A fee in kilowatts is charged as if it were money. -/
theorem lamp_fee_in_kilowatts : ∃ p,
    ((lampFee (.text "1 EUR/kWh") (.text "5 kW")).toProblem false).1 = .ok p ∧
      (∃ c ∈ p.commitments, c.name = "fee" ∧ c.upPrice = [num 5]) ∧
      ¬∀ f ∈ (lampFee (.text "1 EUR/kWh") (.text "5 kW")).fields, f.Fits := by
  refine ⟨_, lampFee_toProblem quantity_euroPerKilowattHour quantity_fiveKilowatts,
    ⟨_, List.mem_cons_of_mem _ List.mem_cons_self, rfl, rfl⟩, fun hall => ?_⟩
  have hmem : (⟨"commitments.fee.up-price", .constant (.text "5 kW"), [.energyPrice, .powerPrice],
      .ownUnit⟩ : StatedField Exact) ∈ (lampFee (.text "1 EUR/kWh") (.text "5 kW")).fields := by
    rw [lampFee_fields]
    simp
  obtain ⟨q, hq, hfits⟩ := hall _ hmem _ List.mem_cons_self
  rw [quantity_fiveKilowatts] at hq
  cases hq
  simp at hfits

end Dispatch
