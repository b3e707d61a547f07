import Dispatch.Request.Problem
import Dispatch.Proofs.Series.Overlay

/-! # The fields of a request

* `StatedField`: a field that states quantities, what they may measure and how the field is read.
* `Request.fields`: the fields of a request.
* `Amount.Fits`, `StatedField.Fits`: what stands in a field is a bare number or measures what the field
  is about.
* `StatedField.Examined`: the unit of the field is looked at when the field is read.
* `Series.fits_of_flowValues`, `Series.fits_of_stateValues`: what a series that has been read states.

An aligned series states one unit for all its samples, and the unit is looked at where a sample is in
force. A price of a stated commitment is held against the unit that it states first itself.
-/

namespace Dispatch
set_option autoImplicit false

variable {α : Type}

/-! ## Fields -/

namespace Series

/-- The quantities of a series; one sample of an aligned series stands for all. -/
def amounts : Series α → List (Amount α)
  | constant a => [a]
  | segments items => items.map Segment.value
  | aligned s => s.unit.toList.map fun unit => .text ("1 " ++ unit)

end Series

inductive Reading where
  /-- A value is needed for every slot. -/
  | gapless
  | slots
  | slotEnds
  /-- By the unit that the series states first. -/
  | ownUnit
  | unread
deriving DecidableEq, Repr

structure StatedField (α : Type) where
  name : String
  series : Series α
  admits : List Dimension
  reading : Reading
deriving Repr

def amountField (name : String) (a : Option (Amount α)) (admits : List Dimension) :
    List (StatedField α) :=
  a.toList.map fun a => ⟨name, .constant a, admits, .slots⟩

def seriesField (name : String) (s : Option (Series α)) (admits : List Dimension)
    (reading : Reading) : List (StatedField α) :=
  s.toList.map fun s => ⟨name, s, admits, reading⟩

/-- A percentage of an energy needs a capacity that it is taken of. -/
def levelDimensions (capacity : Bool) : List Dimension :=
  if capacity then [.energy, .ratio] else [.energy]

namespace StorageModel
variable (m : StorageModel α) (name : String)

def levelFields : List (StatedField α) :=
  let field := fieldOf name
  let admits := levelDimensions (m.storageCapacity.or m.socMax).isSome
  amountField (field "storage-capacity") m.storageCapacity [.energy] ++
  amountField (field "soc-at-start") m.socAtStart admits ++
  amountField (field "soc-min") m.socMin admits ++
  amountField (field "soc-max") m.socMax (levelDimensions m.storageCapacity.isSome) ++
  seriesField (field "soc-minima") m.socMinima admits .slotEnds ++
  seriesField (field "soc-maxima") m.socMaxima admits .slotEnds ++
  seriesField (field "soc-targets") m.socTargets admits .slotEnds

def priceFields : List (StatedField α) :=
  let field := fieldOf name
  amountField (field "soc-minima-breach-price") m.socMinimaBreachPrice [.energyPrice] ++
  amountField (field "soc-maxima-breach-price") m.socMaximaBreachPrice [.energyPrice] ++
  amountField (field "stored-energy-price") m.storedEnergyPrice [.energyPrice]

def bandFields : List (StatedField α) :=
  let field := fieldOf name
  seriesField (field "power-capacity") m.powerCapacity [.power] .gapless ++
  seriesField (field "consumption-capacity") m.consumptionCapacity [.power] .gapless ++
  seriesField (field "production-capacity") m.productionCapacity [.power] .gapless

def dynamicsFields : List (StatedField α) :=
  let field := fieldOf name
  amountField (field "roundtrip-efficiency") m.roundtripEfficiency [.ratio] ++
  seriesField (field "soc-gain") m.socGain [.power] .slots ++
  seriesField (field "soc-usage") m.socUsage [.power] .slots ++
  seriesField (field "charging-efficiency") m.chargingEfficiency [.ratio] .slots ++
  seriesField (field "discharging-efficiency") m.dischargingEfficiency [.ratio] .slots ++
  seriesField (field "storage-efficiency") m.storageEfficiency [.ratio] .slots

def fields : List (StatedField α) :=
  m.levelFields name ++ m.priceFields name ++ m.bandFields name ++ m.dynamicsFields name

end StorageModel

def DeviceRequest.fields (d : DeviceRequest α) : List (StatedField α) :=
  match d.flexModel with
  | .storage m => m.fields d.name
  | .process m => amountField (fieldOf d.name "power") (some m.power) [.power]

def FixedDevice.fields (d : FixedDevice α) : List (StatedField α) :=
  seriesField (fieldOf "inflexible-device-sensors" d.name) (some d.power) [.power] .gapless

def StatedCommitment.fields (c : StatedCommitment α) : List (StatedField α) :=
  let field := fieldOf (fieldOf "commitments" c.name)
  let baseline := match c.kind with
    | .flow => seriesField (field "baseline") (some c.baseline) [.power] .slots
    | .stock => seriesField (field "baseline") (some c.baseline) [.energy] .slotEnds
  baseline ++
  seriesField (field "up-price") (some c.upPrice) [.energyPrice, .powerPrice] .ownUnit ++
  seriesField (field "down-price") (some c.downPrice) [.energyPrice, .powerPrice] .ownUnit

/-- A peak is read if it has a price. -/
def peakReading (price : Option (Series α)) : Reading := if price.isSome then .gapless else .unread

namespace SiteContext

def limitFields (c : SiteContext α) : List (StatedField α) :=
  seriesField "site-power-capacity" c.powerCapacity [.power] .gapless ++
  seriesField "site-consumption-capacity" c.consumptionCapacity [.power] .gapless ++
  seriesField "site-production-capacity" c.productionCapacity [.power] .gapless ++
  seriesField "site-consumption-breach-price" c.consumptionBreachPrice [.powerPrice] .gapless ++
  seriesField "site-production-breach-price" c.productionBreachPrice [.powerPrice] .gapless ++
  seriesField "site-peak-consumption" c.peakConsumption [.power] (peakReading c.peakConsumptionPrice) ++
  seriesField "site-peak-consumption-price" c.peakConsumptionPrice [.powerPrice] .gapless ++
  seriesField "site-peak-production" c.peakProduction [.power] (peakReading c.peakProductionPrice) ++
  seriesField "site-peak-production-price" c.peakProductionPrice [.powerPrice] .gapless

def tariffFields (c : SiteContext α) : List (StatedField α) :=
  seriesField "consumption-price" c.consumptionPrice [.energyPrice] .gapless ++
  seriesField "production-price" c.productionPrice [.energyPrice] .gapless

end SiteContext

def Request.fields (r : Request α) : List (StatedField α) :=
  r.context.tariffFields ++ r.context.limitFields ++ r.devices.flatMap DeviceRequest.fields ++
    r.context.fixedDevices.flatMap FixedDevice.fields ++
    r.context.commitments.flatMap StatedCommitment.fields

variable [Scalar α]

/-! ## Units that fit -/

def Amount.Fits (a : Amount α) (admits : List Dimension) : Prop :=
  ∃ q, a.quantity = .ok q ∧ (q.dimension = .dimensionless ∨ q.dimension ∈ admits)

def StatedField.Fits (f : StatedField α) : Prop := ∀ a ∈ f.series.amounts, a.Fits f.admits

/-- Some slot of the grid starts while a sample is in force. -/
def AlignedSeries.InForce (s : AlignedSeries α) (g : Grid) : Prop :=
  ∃ (start : Instant) (step : Span) (j : ℕ) (t : Instant) (v : α),
    (readInstant (s.zone.getD g.zone) s.start : Checked α Instant) = .ok start ∧
      (Duration.ofText s.resolution : Checked α Span) = .ok step ∧ j < g.len ∧
      (g.slotStart j : Checked α Instant) = .ok t ∧
      AlignedSeries.sampleAt s.values start step.wholeSeconds t = some v

def Series.InForce (s : Series α) (g : Checked α Grid) : Prop :=
  match s with
  | .constant _ | .segments _ => True
  | .aligned s => ∃ g', g = .ok g' ∧ s.InForce g'

def StatedField.Examined (f : StatedField α) (g : Grid) : Prop :=
  match f.reading with
  | .gapless => True
  | .slots => f.series.InForce (.ok g)
  | .slotEnds => f.series.InForce (Series.shiftedGrid g)
  | .ownUnit => ∃ d, f.series.dimension = .ok d ∧ (d = .dimensionless ∨ d ∈ f.admits)
  | .unread => False

/-! ## Single quantities -/

/-- What may stand where a dimension is expected. -/
def Dimension.admitted (expected : Dimension) (reference : Option α) : List Dimension :=
  if reference.isSome ∧ (expected = .power ∨ expected = .energy) then [expected, .ratio]
  else [expected]

omit [Scalar α] in
theorem Dimension.mem_admitted (expected : Dimension) (reference : Option α) :
    expected ∈ expected.admitted reference := by
  unfold admitted
  split_ifs
  · exact List.mem_cons_self
  · exact List.mem_cons_self

omit [Scalar α] in
theorem Dimension.admitted_none (expected : Dimension) :
    expected.admitted (none : Option α) = [expected] := by
  simp [admitted]

theorem Quantity.fits_of_canonical {q : Quantity α} {expected : Dimension} {reference : Option α}
    {v : α} (h : q.canonical expected reference = .ok v) :
    q.dimension = .dimensionless ∨ q.dimension ∈ expected.admitted reference := by
  unfold canonical at h
  by_cases hsame : q.dimension = expected ∨ q.dimension = .dimensionless
  · rcases hsame with hexpected | hbare
    · rw [hexpected]
      exact .inr (expected.mem_admitted reference)
    · exact .inl hbare
  · rw [if_neg hsame] at h
    by_cases hshare : q.dimension = .ratio ∧ (expected = .power ∨ expected = .energy)
    · rw [if_pos hshare] at h
      cases reference with
      | none => cases h
      | some r =>
        rw [Dimension.admitted, if_pos ⟨rfl, hshare.2⟩, hshare.1]
        exact .inr (List.mem_cons_of_mem _ List.mem_cons_self)
    · rw [if_neg hshare] at h
      cases h

theorem Amount.fits_of_resolve {a : Amount α} {field : String} {expected : Dimension}
    {reference : Option α} {v : α} (h : a.resolve field expected reference = .ok v) :
    a.Fits (expected.admitted reference) := by
  obtain ⟨q, hq, hv⟩ := Checked.bind_eq_ok.mp (Checked.mapError_eq_ok.mp h)
  exact ⟨q, hq, q.fits_of_canonical hv⟩

theorem Amount.Fits.mono {a : Amount α} {admits admits' : List Dimension} (h : a.Fits admits)
    (hsub : ∀ d ∈ admits, d = .dimensionless ∨ d ∈ admits') : a.Fits admits' := by
  obtain ⟨q, hq, hbare | hmem⟩ := h
  · exact ⟨q, hq, .inl hbare⟩
  · exact ⟨q, hq, hsub _ hmem⟩

/-! ## Series -/

theorem forall₂_exists_of_mem {β γ : Type} {R : β → γ → Prop} {xs : List β} {ys : List γ}
    (h : List.Forall₂ R xs ys) {x : β} (hx : x ∈ xs) : ∃ y ∈ ys, R x y := by
  induction h with
  | nil => cases hx
  | @cons _ y _ ys hxy _ ih =>
    rcases List.mem_cons.mp hx with rfl | hx
    · exact ⟨y, List.mem_cons_self, hxy⟩
    · obtain ⟨z, hz, hR⟩ := ih hx
      exact ⟨z, List.mem_cons_of_mem y hz, hR⟩

namespace AlignedSeries
variable {s : AlignedSeries α} {g : Grid} {field : String} {expected : Dimension}
  {reference : Option α} {vs : List (Option α)}

omit [Scalar α] in
theorem sampleAt_map {values : List α} (f : α → α) {start t : Instant} {step : Int} {v : α}
    (h : sampleAt values start step t = some v) :
    sampleAt (values.map f) start step t = some (f v) := by
  unfold sampleAt at h ⊢
  split_ifs at h ⊢
  rw [List.getElem?_map, h, Option.map_some]

/-- What a slot gets: nothing, or a sample that is read as the field expects it. -/
theorem flowValues_reads (h : s.flowValues g field expected reference = .ok vs) :
    ∃ (start : Instant) (step : Span) (values : List α) (dimension : Dimension)
      (currency : Option String),
      (readInstant (s.zone.getD g.zone) s.start : Checked α Instant) = .ok start ∧
      (Duration.ofText s.resolution : Checked α Span) = .ok step ∧
      s.scaled = .ok (values, dimension, currency) ∧
      List.Forall₂ (fun j x => ∃ t, (g.slotStart j : Checked α Instant) = .ok t ∧
        match sampleAt values start step.wholeSeconds t with
        | none => x = none
        | some raw => ∃ v, (⟨raw, dimension, none⟩ : Quantity α).canonical expected reference = .ok v ∧
            x = some v) g.slots vs := by
  unfold flowValues at h
  obtain ⟨start, hstart, h⟩ := Checked.bind_eq_ok.mp h
  obtain ⟨step, hstep, h⟩ := Checked.bind_eq_ok.mp h
  split_ifs at h with hpositive
  obtain ⟨⟨values, dimension, currency⟩, hscaled, h⟩ := Checked.bind_eq_ok.mp h
  refine ⟨start, step, values, dimension, currency, Checked.mapError_eq_ok.mp hstart,
    Checked.mapError_eq_ok.mp hstep, Checked.mapError_eq_ok.mp hscaled, ?_⟩
  apply (Checked.mapM_eq_ok.mp h).imp
  intro j x hx
  obtain ⟨t, ht, hx⟩ := Checked.bind_eq_ok.mp hx
  refine ⟨t, ht, ?_⟩
  cases hsample : sampleAt values start step.wholeSeconds t with
  | none =>
    rw [hsample] at hx
    exact (Checked.pure_eq_ok.mp hx).symm
  | some raw =>
    rw [hsample] at hx
    obtain ⟨v, hv, hx⟩ := Checked.bind_eq_ok.mp hx
    exact ⟨v, Checked.mapError_eq_ok.mp hv, (Checked.pure_eq_ok.mp hx).symm⟩

/-- One sample in force is enough for the unit of the whole series. -/
theorem fits_of_flowValues (h : s.flowValues g field expected reference = .ok vs)
    (hforce : s.InForce g) :
    ∀ a ∈ (Series.aligned s).amounts, a.Fits (expected.admitted reference) := by
  obtain ⟨start, step, values, dimension, currency, hstart, hstep, hscaled, hreads⟩ :=
    flowValues_reads h
  obtain ⟨start', step', j, t, v, hstart', hstep', hj, ht, hv⟩ := hforce
  obtain rfl : start = start' := Except.ok.inj (hstart.symm.trans hstart')
  obtain rfl : step = step' := Except.ok.inj (hstep.symm.trans hstep')
  obtain ⟨x, -, t', ht', hx⟩ := forall₂_exists_of_mem hreads (List.mem_range.mpr hj)
  obtain rfl : t = t' := Except.ok.inj (ht.symm.trans ht')
  intro a ha
  obtain ⟨unit, hunit, rfl⟩ := List.mem_map.mp ha
  rw [Option.mem_toList] at hunit
  rw [scaled, hunit] at hscaled
  obtain ⟨one, hone, hscaled⟩ := Checked.bind_eq_ok.mp hscaled
  cases Checked.pure_eq_ok.mp hscaled
  rw [sampleAt_map _ hv] at hx
  obtain ⟨w, hw, -⟩ := hx
  have hfits := Quantity.fits_of_canonical hw
  exact ⟨one, hone, hfits⟩

theorem sampleAt_scaled {values : List α} {dimension : Dimension} {currency : Option String}
    (h : s.scaled = .ok (values, dimension, currency)) {start t : Instant} {step : Int} {raw : α}
    (hraw : sampleAt values start step t = some raw) : ∃ v, sampleAt s.values start step t = some v := by
  unfold scaled at h
  cases hunit : s.unit with
  | none =>
    rw [hunit] at h
    cases h
    exact ⟨raw, hraw⟩
  | some unit =>
    rw [hunit] at h
    obtain ⟨one, -, h⟩ := Checked.bind_eq_ok.mp h
    cases Checked.pure_eq_ok.mp h
    unfold sampleAt at hraw ⊢
    split_ifs at hraw ⊢
    rw [List.getElem?_map, Option.map_eq_some_iff] at hraw
    obtain ⟨v, hv, -⟩ := hraw
    exact ⟨v, hv⟩

end AlignedSeries

namespace Series
variable {s : Series α} {g : Grid} {field : String} {expected : Dimension} {reference : Option α}

theorem fits_of_segments {items : List (Segment α)} {entries : List (Entry α)}
    (h : List.Forall₂ (fun s e => s.Reads g field expected reference e) items entries) :
    ∀ a ∈ (segments items).amounts, a.Fits (expected.admitted reference) := by
  intro a ha
  obtain ⟨item, hitem, rfl⟩ := List.mem_map.mp ha
  obtain ⟨e, -, he⟩ := forall₂_exists_of_mem h hitem
  exact Amount.fits_of_resolve he.value

theorem fits_of_flowValues {vs : List (Option α)}
    (h : s.flowValues g field expected reference = .ok vs) (hforce : s.InForce (.ok g)) :
    ∀ a ∈ s.amounts, a.Fits (expected.admitted reference) := by
  cases s with
  | constant a =>
    obtain ⟨v, hv, -⟩ := Checked.bind_eq_ok.mp h
    intro b hb
    rw [List.mem_singleton.mp hb]
    exact Amount.fits_of_resolve hv
  | segments items =>
    obtain ⟨entries, hentries, -⟩ := overlay_eq_ok h
    exact fits_of_segments hentries
  | aligned a =>
    obtain ⟨g', hg', hforce⟩ := hforce
    obtain rfl : g = g' := Except.ok.inj hg'
    exact AlignedSeries.fits_of_flowValues h hforce

theorem fits_of_stateValues {vs : List (Option α)}
    (h : s.stateValues g field expected reference = .ok vs) (hforce : s.InForce (shiftedGrid g)) :
    ∀ a ∈ s.amounts, a.Fits (expected.admitted reference) := by
  cases s with
  | constant a => exact fits_of_flowValues h trivial
  | segments items =>
    obtain ⟨entries, hentries, -⟩ := overlay_eq_ok h
    exact fits_of_segments hentries
  | aligned a =>
    obtain ⟨shifted, hshifted, h⟩ := Checked.bind_eq_ok.mp h
    obtain ⟨g', hg', hforce⟩ := hforce
    obtain rfl : shifted = g' := Except.ok.inj (hshifted.symm.trans hg')
    exact AlignedSeries.fits_of_flowValues h hforce

theorem ne_none_of_required {xs : List α} (h : s.required g field expected = .ok xs) :
    ∃ vs, s.flowValues g field expected none = .ok vs ∧ none ∉ vs := by
  obtain ⟨vs, hvs, h⟩ := Checked.bind_eq_ok.mp h
  refine ⟨vs, hvs, fun hnone => ?_⟩
  obtain ⟨j, hj⟩ := List.mem_iff_getElem?.mp hnone
  have hmem : (none, j) ∈ vs.zipIdx := List.mem_zipIdx_iff_getElem?.mpr hj
  obtain ⟨x, -, hx⟩ := forall₂_exists_of_mem (Checked.mapM_eq_ok.mp h) hmem
  obtain ⟨t, -, hx⟩ := Checked.bind_eq_ok.mp hx
  cases hx

/-- Where no gap is allowed, a sample is in force in the first slot. -/
theorem inForce_of_required {xs : List α} (h : s.required g field expected = .ok xs)
    (hlen : 0 < g.len) : s.InForce (.ok g) := by
  cases s with
  | constant a => trivial
  | segments items => trivial
  | aligned a =>
    obtain ⟨vs, hvs, hnone⟩ := ne_none_of_required h
    obtain ⟨start, step, values, dimension, currency, hstart, hstep, hscaled, hreads⟩ :=
      AlignedSeries.flowValues_reads hvs
    obtain ⟨x, hx, t, ht, hsample⟩ := forall₂_exists_of_mem hreads (List.mem_range.mpr hlen)
    cases hraw : AlignedSeries.sampleAt values start step.wholeSeconds t with
    | none =>
      rw [hraw] at hsample
      exact absurd (hsample ▸ hx) hnone
    | some raw =>
      obtain ⟨v, hv⟩ := AlignedSeries.sampleAt_scaled hscaled hraw
      exact ⟨g, rfl, start, step, 0, t, v, hstart, hstep, hlen, ht, hv⟩

end Series

end Dispatch
