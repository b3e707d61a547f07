import Dispatch.Proofs.Request.Assembly

/-! # The problem of a request

* `SiteTerms.commitments`, `StorageTerms.commitments`: the commitments that charge the terms of a
  request.
* `SiteContext.reads_of_limits`, `StorageModel.reads_of_device`: the translation reads the terms and
  charges them, whatever limits it sets beside.
* `Request.translated`: the same for a whole request.
-/

namespace Dispatch
set_option autoImplicit false

open Exact Warned

/-! ## Commitments of the terms -/

noncomputable def SiteTerms.commitments (t : SiteTerms) (g : Grid) : List (Commitment Exact) :=
  (t.consumptionBreach.elim [] fun k => breachPair g "consumption" (k.level.map some) k.price true) ++
  (t.productionBreach.elim [] fun k =>
    breachPair g "production" (k.level.map fun x => some (-x)) k.price false) ++
  (t.consumptionPeak.elim [] fun k => [peakCommitment g "consumption" k.level k.price true]) ++
  (t.productionPeak.elim [] fun k =>
    [peakCommitment g "production" (k.level.map fun x => -x) k.price false])

noncomputable def StorageTerms.commitments (t : StorageTerms) (g : Grid) (name : String) :
    List (Commitment Exact) :=
  storedEnergy g name t.initial t.storedPrice ::
    ((t.minima.elim [] fun k => levelBreaches g name "minima" k.levels k.price false) ++
      t.maxima.elim [] fun k => levelBreaches g name "maxima" k.levels k.price true)

/-! ## The site -/

namespace SiteContext
variable {c : SiteContext Exact} {g : Grid}

theorem reads_of_consumptionPeak {cs : List (Commitment Exact)}
    (h : c.consumptionPeak g = .ok cs) :
    ∃ t, ReadsPeak g c.peakConsumption c.peakConsumptionPrice "site-peak-consumption"
      "site-peak-consumption-price" t ∧
      cs = t.elim [] fun k => [peakCommitment g "consumption" k.level k.price true] := by
  obtain ⟨price, hprice, h⟩ := Checked.bind_eq_ok.mp h
  cases price with
  | none => exact ⟨none, .inl ⟨hprice, rfl⟩, (Checked.pure_eq_ok.mp h).symm⟩
  | some price =>
    obtain ⟨peak, hpeak, h⟩ := Checked.bind_eq_ok.mp h
    exact ⟨some ⟨peak.getD (allZero g), price⟩, .inr ⟨price, peak, hprice, hpeak, rfl⟩,
      (Checked.pure_eq_ok.mp h).symm⟩

theorem reads_of_productionPeak {cs : List (Commitment Exact)} (h : c.productionPeak g = .ok cs) :
    ∃ t, ReadsPeak g c.peakProduction c.peakProductionPrice "site-peak-production"
      "site-peak-production-price" t ∧
      cs = t.elim [] fun k =>
        [peakCommitment g "production" (k.level.map fun x => -x) k.price false] := by
  obtain ⟨price, hprice, h⟩ := Checked.bind_eq_ok.mp h
  cases price with
  | none => exact ⟨none, .inl ⟨hprice, rfl⟩, (Checked.pure_eq_ok.mp h).symm⟩
  | some price =>
    obtain ⟨peak, hpeak, h⟩ := Checked.bind_eq_ok.mp h
    exact ⟨some ⟨peak.getD (allZero g), price⟩, .inr ⟨price, peak, hprice, hpeak, rfl⟩,
      (Checked.pure_eq_ok.mp h).symm⟩

theorem reads_of_limits {tariffs : Tariffs Exact} (htariffs : c.tariffs g = .ok tariffs)
    {limits : SiteLimits Exact} {cs : List (Commitment Exact)}
    (h : (c.limits g).Yields (limits, cs)) :
    ∃ t : SiteTerms, t.tariffs = tariffs ∧ c.Reads g t ∧ cs = t.commitments g := by
  obtain ⟨x, price₁, price₂, cs₃, cs₄, hx, hprice₁, hprice₂, h₃, h₄, -, rfl⟩ := parts_of_limits h
  obtain ⟨t₃, hreads₃, rfl⟩ := reads_of_consumptionPeak h₃
  obtain ⟨t₄, hreads₄, rfl⟩ := reads_of_productionPeak h₄
  exact ⟨⟨tariffs, Option.map₂ PricedPower.mk x.consumption price₁,
      Option.map₂ PricedPower.mk x.production price₂, t₃, t₄⟩, rfl,
    ⟨reads_of_tariffs htariffs, ⟨_, _, hx.consumption, hprice₁, rfl⟩,
      ⟨_, _, hx.production, hprice₂, rfl⟩, hreads₃, hreads₄⟩, rfl⟩

end SiteContext

/-! ## Storages -/

namespace StorageModel
variable {m : StorageModel Exact} {g : Grid} {name : String}

theorem reads_of_device {tariffs : Tariffs Exact} {sooner : Bool} {d : Device Exact}
    {cs : List (Commitment Exact)} (h : (m.device g name tariffs sooner).Yields (d, cs)) :
    ∃ t : StorageTerms, m.Reads g name tariffs t ∧ cs = t.commitments g name ∧ d.id = name ∧
      ∃ s, d.stock = some s ∧ s.initial = t.initial := by
  obtain ⟨x, stored, minimaPrice, maximaPrice, hx, hstored, hminimaPrice, hmaximaPrice, rfl, rfl⟩ :=
    parts_of_device h
  refine ⟨⟨x.start, stored.getD (tariffs.consumption.getLastD 0), minimaPrice.map (⟨x.minima, ·⟩),
    maximaPrice.map (⟨x.maxima, ·⟩)⟩, ⟨x.capacity, x.initial, stored, hx.capacity, hx.initial, rfl,
    hstored, rfl, ⟨x.minima, minimaPrice, hx.minima, hminimaPrice, rfl⟩,
    ⟨x.maxima, maximaPrice, hx.maxima, hmaximaPrice, rfl⟩⟩, ?_, rfl, x.stock g, rfl, rfl⟩
  cases minimaPrice <;> cases maximaPrice <;> rfl

end StorageModel

/-! ## Requests -/

structure DeviceRequest.Planned (d : DeviceRequest Exact) (g : Grid) (tariffs : Tariffs Exact)
    (planned : Device Exact × List (Commitment Exact)) (t : Option StorageTerms) : Prop where
  reads : d.Reads g tariffs t
  id : planned.1.id = d.name
  commitments : planned.2 = t.elim [] fun s => s.commitments g d.name
  initial : ∀ s, t = some s → ∃ st, planned.1.stock = some st ∧ st.initial = s.initial

theorem DeviceRequest.planned_of_device {d : DeviceRequest Exact} {g : Grid}
    {tariffs : Tariffs Exact} {sooner : Bool} {planned : Device Exact × List (Commitment Exact)}
    (h : (d.device g tariffs sooner).Yields planned) : ∃ t, d.Planned g tariffs planned t := by
  rw [device] at h
  cases hmodel : d.flexModel with
  | storage m =>
    simp only [hmodel] at h
    obtain ⟨t, hreads, hcs, hid, hstock⟩ := StorageModel.reads_of_device (yields_adapt h)
    refine ⟨some t, ?_, hid, hcs, fun s hs => Option.some.inj hs ▸ hstock⟩
    rw [Reads, hmodel]
    exact ⟨t, rfl, hreads⟩
  | process m =>
    simp only [hmodel] at h
    obtain ⟨device, hdevice, h⟩ := yields_bind h
    obtain rfl := yields_pure h
    obtain ⟨power, -, rfl⟩ := ProcessModel.runs_of_device (yields_lift hdevice)
    refine ⟨none, ?_, rfl, rfl, fun s hs => ?_⟩
    · rw [Reads, hmodel]
    · cases hs

theorem exists_triples {β γ δ : Type} {R : β → γ → Prop} {S : β → γ → δ → Prop} {xs : List β}
    {ys : List γ} (h : List.Forall₂ R xs ys) (hRS : ∀ x y, R x y → ∃ z, S x y z) :
    ∃ l : List (β × γ × δ), l.map (fun t => t.1) = xs ∧ l.map (fun t => t.2.1) = ys ∧
      ∀ t ∈ l, S t.1 t.2.1 t.2.2 := by
  induction h with
  | nil => exact ⟨[], rfl, rfl, fun t ht => absurd ht List.not_mem_nil⟩
  | @cons x y xs ys hxy _ ih =>
    obtain ⟨z, hz⟩ := hRS x y hxy
    obtain ⟨l, rfl, rfl, hl⟩ := ih
    exact ⟨(x, y, z) :: l, rfl, rfl, List.forall_mem_cons.mpr ⟨hz, hl⟩⟩

/-- A device of a request, what it is planned as, and the terms of its storage. -/
abbrev DevicePlanning :=
  DeviceRequest Exact × (Device Exact × List (Commitment Exact)) × Option StorageTerms

/-- The parts of the problem of a request without commitments of its own. -/
structure Request.Translated (r : Request Exact) (p : Problem Exact) (site : SiteTerms)
    (plannings : List DevicePlanning) (fixed : List (Device Exact)) : Prop where
  check : p.check = .ok ()
  grid : r.grid = .ok p.grid
  reads : r.context.Reads p.grid site
  requests : plannings.map (fun x => x.1) = r.devices
  planned : ∀ x ∈ plannings, x.1.Planned p.grid site.tariffs x.2.1 x.2.2
  devices : p.devices = plannings.map (fun x => x.2.1.1) ++ fixed
  commitments : p.commitments = site.tariffs.commitment p.grid ::
    (plannings.flatMap (fun x => x.2.1.2) ++ site.commitments p.grid)

theorem Request.translated {r : Request Exact} {sooner : Bool} {p : Problem Exact}
    (hraw : r.context.commitments = []) (h : (r.toProblem sooner).1 = .ok p) :
    ∃ site plannings fixed, r.Translated p site plannings fixed := by
  obtain ⟨tariffs, planned, fixed, cs, stated, hsteps⟩ := steps_of_toProblem h
  obtain rfl : stated = [] := List.forall₂_nil_left_iff.mp (hraw ▸ hsteps.raw)
  obtain ⟨site, hsite, hreads, rfl⟩ := SiteContext.reads_of_limits hsteps.prices hsteps.limits
  obtain ⟨plannings, hrequests, rfl, hall⟩ := exists_triples hsteps.plans
    fun d x hx => DeviceRequest.planned_of_device hx
  subst hsite
  refine ⟨site, plannings, fixed, hsteps.check, hsteps.grid, hreads, hrequests, hall, ?_, ?_⟩
  · rw [hsteps.devices, List.map_map]
    rfl
  · rw [hsteps.commitments, List.append_nil, List.flatMap_map, List.cons_append]

end Dispatch
