import Dispatch.Proofs.Quantity.Spelling
import Dispatch.Proofs.Request.Restated

/-! # Requests in other units

* `Spelling.Respells`: two spellings in units of one dimension and one currency, of one magnitude.
* `StatedUnit.exists_names`: the unit of samples is a unit as they are spelled.
* `Amount.Respelled`, `AlignedSeries.Respelled`: an amount in another unit, samples in another unit.
* `StorageModel.Respelled`, `SiteContext.Respelled`, `Request.Respelled`: such amounts and samples in the
  same places, everything else equal.
* `Request.toProblem_respelled`: a request and its respellings become the same problem, or none of them
  becomes one.
-/

namespace Dispatch
set_option autoImplicit false

open Exact Checked

/-! ## Units -/

/-- The number is converted along with the unit. -/
structure Spelling.Respells (x y : Spelling) : Prop where
  dimension : x.unit.dimension = y.unit.dimension
  currency : x.unit.currency = y.unit.currency
  magnitude : x.magnitude = y.magnitude

inductive Amount.Respelled : Amount Exact → Amount Exact → Prop where
  | same (a : Amount Exact) : Respelled a a
  | text {x y : Spelling} (h : x.Respells y) : Respelled (.text x.text) (.text y.text)

theorem Amount.Respelled.quantity_eq {a b : Amount Exact} (h : a.Respelled b) :
    a.quantity = b.quantity := by
  cases h with
  | same => rfl
  | @text x y h =>
    rw [quantity, quantity, x.ofText_text, y.ofText_text, h.dimension, h.currency, h.magnitude]

theorem Amount.Respelled.alike {a b : Amount Exact} (h : a.Respelled b) : a.Alike b := by
  intro v d
  rw [h.quantity_eq]

theorem Amount.Respelled.currency_eq {a b : Amount Exact} (h : a.Respelled b) :
    a.currency = b.currency := by
  cases h with
  | same => rfl
  | text h =>
    have hquantity := (Respelled.text h).quantity_eq
    rw [quantity, quantity] at hquantity
    rw [currency, currency, hquantity]

/-! ## Samples -/

/-- The unit of samples, with blanks around it. -/
def StatedUnit.Names (u : StatedUnit) (text : String) : Prop :=
  ∃ before name after, Text.Blank before ∧ Text.Blank after ∧ u.Spelled name ∧
    text.toList = before ++ name ++ after

/-- One of the unit, as the reader of samples asks for it. -/
theorem StatedUnit.Names.ofText_one {u : StatedUnit} {text : String} (h : u.Names text) :
    (Quantity.ofText ("1 " ++ text) : Checked Exact (Quantity Exact)) =
      .ok ⟨num u.factor, u.dimension, u.currency⟩ := by
  obtain ⟨before, name, after, hbefore, hafter, hname, htext⟩ := h
  have hgap : Text.Blank (' ' :: before) := List.forall_mem_cons.mpr ⟨rfl, hbefore⟩
  let x : Spelling :=
    { before := [], numeral := ['1'], gap := ' ' :: before, name := name, after := after
      number := ⟨false, 1, 0⟩, unit := u
      reads := by decide +kernel
      spelled := hname
      blank := ⟨Text.blank_nil, hgap, hafter⟩
      point := nofun }
  have hx : x.text = "1 " ++ text := by
    rw [← String.toList_inj, Spelling.text, String.toList_ofList, String.toList_append, htext]
    simp [x]
  have hone : x.magnitude = u.factor := by
    simp [Spelling.magnitude, x, Exact.ofDecimal]
  rw [← hx, x.ofText_text, hone]

/-- Every unit that samples can have, if it is one of power, energy or a price. -/
theorem StatedUnit.exists_names {text : String} {q : Quantity Exact}
    (h : (Quantity.ofText ("1 " ++ text) : Checked Exact (Quantity Exact)) = .ok q)
    (hdim : q.dimension ≠ .dimensionless ∧ q.dimension ≠ .ratio) : ∃ u : StatedUnit, u.Names text := by
  obtain ⟨⟨before, numeral, gap, name, after, number, u, hread, hname, ⟨hbefore, hgap, hafter⟩,
    hpoint⟩, htext⟩ := Spelling.exists_text h hdim
  obtain ⟨-, hbare, hne, -⟩ := u.follows hname hgap hpoint
  have hchars : before ++ (numeral ++ (gap ++ name)) ++ after = '1' :: ' ' :: text.toList := by
    rw [Spelling.text, ← String.toList_inj, String.toList_ofList, String.toList_append] at htext
    exact htext
  -- the numeral is the 1 in front, as it holds no blank
  obtain rfl : before = [] := by
    cases before with
    | nil => rfl
    | cons b before =>
      obtain ⟨rfl, -⟩ := List.cons.inj hchars
      exact absurd (hbefore '1' List.mem_cons_self) (by decide)
  obtain ⟨c, digits, rfl⟩ := List.exists_cons_of_ne_nil (Numeral.bare_of_read? hread).2
  obtain ⟨rfl, hrest⟩ := List.cons.inj hchars
  obtain rfl : digits = [] := by
    cases digits with
    | nil => rfl
    | cons d digits =>
      obtain ⟨rfl, -⟩ := List.cons.inj hrest
      exact absurd (Numeral.isBlank_of_read? hread ' ' (by simp)) (by decide)
  cases gap with
  | nil =>
    obtain ⟨c, name, rfl⟩ := List.exists_cons_of_ne_nil hne
    obtain ⟨rfl, -⟩ := List.cons.inj hrest
    exact absurd (hbare.head ' ' rfl) (by decide)
  | cons g gap =>
    obtain ⟨-, hunit⟩ := List.cons.inj hrest
    exact ⟨u, gap, name, after, (List.forall_mem_cons.mp hgap).2, hafter, hname, hunit.symm⟩

/-- The samples are converted along with their unit. -/
structure AlignedSeries.Converts (u v : StatedUnit) (s t : AlignedSeries Exact) : Prop where
  start : s.start = t.start
  resolution : s.resolution = t.resolution
  zone : s.zone = t.zone
  unit : ∃ text, s.unit = some text ∧ u.Names text
  unit' : ∃ text, t.unit = some text ∧ v.Names text
  dimension : u.dimension = v.dimension
  currency : u.currency = v.currency
  values : List.Forall₂ (fun x y => x * num u.factor = y * num v.factor) s.values t.values

theorem AlignedSeries.scaled_of_names {s : AlignedSeries Exact} {u : StatedUnit}
    (h : ∃ text, s.unit = some text ∧ u.Names text) :
    s.scaled = .ok (s.values.map (· * num u.factor), u.dimension, u.currency) := by
  obtain ⟨text, hunit, hnames⟩ := h
  simp only [scaled, hunit, hnames.ofText_one]
  rfl

inductive AlignedSeries.Respelled : AlignedSeries Exact → AlignedSeries Exact → Prop where
  | same (s : AlignedSeries Exact) : Respelled s s
  | samples {s t : AlignedSeries Exact} {u v : StatedUnit} (h : s.Converts u v t) : Respelled s t

theorem AlignedSeries.Respelled.scaled_eq {s t : AlignedSeries Exact} (h : s.Respelled t) :
    s.scaled = t.scaled := by
  cases h with
  | same => rfl
  | @samples _ u v h =>
    have hvalues : s.values.map (· * num u.factor) = t.values.map (· * num v.factor) :=
      List.forall₂_eq_eq_eq ▸ List.forall₂_map_left_iff.mpr (List.forall₂_map_right_iff.mpr h.values)
    rw [scaled_of_names h.unit, scaled_of_names h.unit', hvalues, h.dimension, h.currency]

theorem AlignedSeries.Respelled.alike {s t : AlignedSeries Exact} (h : s.Respelled t) :
    s.Alike t := by
  refine ⟨?_, ?_, ?_, fun vs d => by rw [h.scaled_eq]⟩
  all_goals cases h with
    | same => rfl
    | samples h => first | exact h.start | exact h.resolution | exact h.zone

/-! ## Series -/

structure Segment.Respelled (s t : Segment Exact) : Prop where
  datetime : s.datetime = t.datetime
  start : s.start = t.start
  stop : s.stop = t.stop
  duration : s.duration = t.duration
  value : s.value.Respelled t.value

inductive Series.Respelled : Series Exact → Series Exact → Prop where
  | constant {a b : Amount Exact} : a.Respelled b → Respelled (.constant a) (.constant b)
  | segments {xs ys : List (Segment Exact)} :
    List.Forall₂ Segment.Respelled xs ys → Respelled (.segments xs) (.segments ys)
  | aligned {s t : AlignedSeries Exact} : s.Respelled t → Respelled (.aligned s) (.aligned t)

theorem Segment.Respelled.alike {s t : Segment Exact} (h : s.Respelled t) : s.Alike t :=
  ⟨h.datetime, h.start, h.stop, h.duration, h.value.alike⟩

namespace Series
variable {s t : Series Exact}

theorem Respelled.alike (h : s.Respelled t) : s.Alike t := by
  cases h with
  | constant hab => exact .constant hab.alike
  | segments hxy => exact .segments (hxy.imp fun _ _ hst => hst.alike)
  | aligned hst => exact .aligned hst.alike

theorem Respelled.currency_eq (h : s.Respelled t) : s.currency = t.currency := by
  cases h with
  | constant hab => exact hab.currency_eq
  | aligned hst => rw [currency, currency, hst.scaled_eq]
  | segments hxy =>
    rw [currency, currency]
    induction hxy with
    | nil => rfl
    | cons hst _ ih => rw [List.findSome?_cons, List.findSome?_cons, hst.value.currency_eq, ih]

end Series

/-! ## Devices -/

theorem Option.Rel.imp {β γ : Type} {R S : β → γ → Prop} (hRS : ∀ b c, R b c → S b c) {b : Option β}
    {c : Option γ} (h : Option.Rel R b c) : Option.Rel S b c := by
  cases h with
  | none => exact .none
  | some hbc => exact .some (hRS _ _ hbc)

namespace StorageModel

/-- The fields that state one amount. -/
def amounts (m : StorageModel Exact) : List (Option (Amount Exact)) :=
  [m.socAtStart, m.socMin, m.socMax, m.storageCapacity, m.socMinimaBreachPrice,
    m.socMaximaBreachPrice, m.storedEnergyPrice, m.roundtripEfficiency]

/-- The fields that state a series. -/
def series (m : StorageModel Exact) : List (Option (Series Exact)) :=
  [m.socMinima, m.socMaxima, m.socTargets, m.powerCapacity, m.consumptionCapacity,
    m.productionCapacity, m.chargingEfficiency, m.dischargingEfficiency, m.storageEfficiency,
    m.socGain, m.socUsage]

structure Respelled (m n : StorageModel Exact) : Prop where
  amounts : List.Forall₂ (Option.Rel Amount.Respelled) m.amounts n.amounts
  series : List.Forall₂ (Option.Rel Series.Respelled) m.series n.series
  efficiencyMode : m.efficiencyMode = n.efficiencyMode
  preferChargingSooner : m.preferChargingSooner = n.preferChargingSooner
  timeRestrictions : m.timeRestrictions = n.timeRestrictions

theorem Respelled.alike {m n : StorageModel Exact} (h : m.Respelled n) : m.Alike n := by
  have hamounts := h.amounts.imp fun _ _ hab => Option.Rel.imp (fun _ _ => Amount.Respelled.alike) hab
  have hseries := h.series.imp fun _ _ hst => Option.Rel.imp (fun _ _ => Series.Respelled.alike) hst
  simp only [StorageModel.amounts, List.forall₂_cons, List.forall₂_nil_left_iff, and_true] at hamounts
  simp only [StorageModel.series, List.forall₂_cons, List.forall₂_nil_left_iff, and_true] at hseries
  obtain ⟨hstart, hmin, hmax, hcapacity, hminimaPrice, hmaximaPrice, hstored, hroundtrip⟩ := hamounts
  obtain ⟨hminima, hmaxima, htargets, hpower, hconsumption, hproduction, hcharging, hdischarging,
    hretention, hgain, husage⟩ := hseries
  exact ⟨hstart, hmin, hmax, hcapacity, hminima, hmaxima, htargets, hminimaPrice, hmaximaPrice,
    hstored, hpower, hconsumption, hproduction, hcharging, hdischarging, hroundtrip, hretention,
    h.efficiencyMode, hgain, husage, h.preferChargingSooner, h.timeRestrictions⟩

end StorageModel

structure ProcessModel.Respelled (m n : ProcessModel Exact) : Prop where
  kind : m.kind = n.kind
  power : m.power.Respelled n.power
  duration : m.duration = n.duration
  direction : m.direction = n.direction
  timeRestrictions : m.timeRestrictions = n.timeRestrictions

inductive FlexModel.Respelled : FlexModel Exact → FlexModel Exact → Prop where
  | storage {m n : StorageModel Exact} : m.Respelled n → Respelled (.storage m) (.storage n)
  | process {m n : ProcessModel Exact} : m.Respelled n → Respelled (.process m) (.process n)

theorem FlexModel.Respelled.alike {m n : FlexModel Exact} (h : m.Respelled n) : m.Alike n := by
  cases h with
  | storage hm => exact .storage hm.alike
  | process hm =>
    exact .process ⟨hm.kind, hm.power.alike, hm.duration, hm.direction, hm.timeRestrictions⟩

structure DeviceRequest.Respelled (d e : DeviceRequest Exact) : Prop where
  name : d.name = e.name
  flexModel : d.flexModel.Respelled e.flexModel

structure FixedDevice.Respelled (d e : FixedDevice Exact) : Prop where
  name : d.name = e.name
  power : d.power.Respelled e.power

/-! ## Sites -/

structure StatedCommitment.Respelled (c e : StatedCommitment Exact) : Prop where
  name : c.name = e.name
  baseline : c.baseline.Respelled e.baseline
  upPrice : c.upPrice.Respelled e.upPrice
  downPrice : c.downPrice.Respelled e.downPrice
  grouping : c.grouping = e.grouping
  device : c.device = e.device
  kind : c.kind = e.kind

theorem StatedCommitment.Respelled.alike {c e : StatedCommitment Exact} (h : c.Respelled e) :
    c.Alike e :=
  ⟨h.name, h.baseline.alike, h.upPrice.alike, h.downPrice.alike, h.grouping, h.device, h.kind⟩

namespace SiteContext

/-- The fields of a site that state a series. -/
def series (c : SiteContext Exact) : List (Option (Series Exact)) :=
  [c.consumptionPrice, c.productionPrice, c.powerCapacity, c.consumptionCapacity,
    c.productionCapacity, c.consumptionBreachPrice, c.productionBreachPrice, c.peakConsumption,
    c.peakConsumptionPrice, c.peakProduction, c.peakProductionPrice]

structure Respelled (c e : SiteContext Exact) : Prop where
  series : List.Forall₂ (Option.Rel Series.Respelled) c.series e.series
  fixedDevices : List.Forall₂ FixedDevice.Respelled c.fixedDevices e.fixedDevices
  commitments : List.Forall₂ StatedCommitment.Respelled c.commitments e.commitments

theorem Respelled.alike {c e : SiteContext Exact} (h : c.Respelled e) : c.Alike e := by
  have hseries := h.series.imp fun _ _ hst => Option.Rel.imp (fun _ _ => Series.Respelled.alike) hst
  simp only [SiteContext.series, List.forall₂_cons, List.forall₂_nil_left_iff, and_true] at hseries
  obtain ⟨hbought, hsold, hpower, hin, hout, hinPrice, houtPrice, hpeakIn, hpeakInPrice, hpeakOut,
    hpeakOutPrice⟩ := hseries
  exact ⟨hbought, hsold, hpower, hin, hout, hinPrice, houtPrice, hpeakIn, hpeakInPrice, hpeakOut,
    hpeakOutPrice, h.fixedDevices.imp fun _ _ hd => ⟨hd.name, hd.power.alike⟩,
    h.commitments.imp fun _ _ hc => hc.alike⟩

/-- The tariffs keep their currencies. -/
theorem Respelled.tariffsAgree {c e : SiteContext Exact} (h : c.Respelled e) :
    c.TariffsAgree ↔ e.TariffsAgree := by
  have hcurrency {s t : Option (Series Exact)} (hst : Option.Rel Series.Respelled s t) :
      s.bind Series.currency = t.bind Series.currency := by
    cases hst with
    | none => rfl
    | some hst => exact hst.currency_eq
  have hseries := h.series
  simp only [SiteContext.series, List.forall₂_cons] at hseries
  obtain ⟨hbought, hsold, -⟩ := hseries
  rw [TariffsAgree, TariffsAgree, hcurrency hbought, hcurrency hsold]

end SiteContext

/-! ## Requests -/

structure Request.Respelled (r q : Request Exact) : Prop where
  start : r.start = q.start
  stop : r.stop = q.stop
  duration : r.duration = q.duration
  resolution : r.resolution = q.resolution
  zone : r.zone = q.zone
  devices : List.Forall₂ DeviceRequest.Respelled r.devices q.devices
  context : r.context.Respelled q.context

theorem Request.Respelled.alike {r q : Request Exact} (h : r.Respelled q) : r.Alike q :=
  ⟨h.start, h.stop, h.duration, h.resolution, h.zone,
    h.devices.imp fun _ _ hd => ⟨hd.name, hd.flexModel.alike⟩, h.context.alike⟩

/-- Other units make no other problem, and no other warnings. -/
theorem Request.toProblem_respelled {r q : Request Exact} (h : r.Respelled q) (sooner : Bool)
    (p : Problem Exact) (ws : List Warning) :
    r.toProblem sooner = (.ok p, ws) ↔ q.toProblem sooner = (.ok p, ws) :=
  toProblem_same h.alike h.context.tariffsAgree sooner p ws

/-! ## The lamp with prices per megawatt hour and per watt hour -/

def euros (numeral : List Char) (number : Decimal) (u : BaseUnit)
    (reads : Numeral.read? numeral = some (.finite number)) : Spelling where
  before := []
  numeral := numeral
  gap := [' ']
  name := "EUR".toList ++ [] ++ '/' :: ([] ++ u.name.toList)
  after := []
  number := number
  unit := .per "EUR".toList u
  reads := reads
  spelled := by
    have hletters : ("EUR".toList.all fun c => !Decimal.isDigit c) = true := by decide
    have hcurrency : IsCurrency "EUR".toList :=
      ⟨⟨fun _ hc => Option.some.inj hc ▸ rfl, fun _ hc => Option.some.inj hc ▸ rfl⟩,
        List.cons_ne_nil _ _, by simpa using hletters, by decide⟩
    exact ⟨hcurrency, [], [], Text.blank_nil, Text.blank_nil, rfl⟩
  blank := ⟨Text.blank_nil, List.forall_mem_singleton.mpr rfl, Text.blank_nil⟩
  point := nofun

def euroPerKilowattHour : Spelling :=
  euros ['1'] ⟨false, 1, 0⟩ ⟨.energy, .kilo⟩ (by decide +kernel)

def eurosPerMegawattHour : Spelling :=
  euros "1000".toList ⟨false, 1000, 0⟩ ⟨.energy, .mega⟩ (by decide +kernel)

def eurosPerWattHour : Spelling :=
  euros "0.001".toList ⟨false, 1, -3⟩ ⟨.energy, .plain⟩ (by decide +kernel)

theorem respells_megawattHour : euroPerKilowattHour.Respells eurosPerMegawattHour :=
  ⟨rfl, rfl, by
    simp [Spelling.magnitude, euroPerKilowattHour, eurosPerMegawattHour, euros, Exact.ofDecimal,
      StatedUnit.factor, BaseUnit.kilos]⟩

theorem respells_wattHour : euroPerKilowattHour.Respells eurosPerWattHour :=
  ⟨rfl, rfl, by
    simp [Spelling.magnitude, euroPerKilowattHour, eurosPerWattHour, euros, Exact.ofDecimal,
      StatedUnit.factor, BaseUnit.kilos]
    norm_num⟩

theorem lampFee_respelled {price price' fee fee' : Amount Exact} (hprice : price.Respelled price')
    (hfee : fee.Respelled fee') : (lampFee price fee).Respelled (lampFee price' fee') where
  start := rfl
  stop := rfl
  duration := rfl
  resolution := rfl
  zone := rfl
  devices := .nil
  context := by
    have hnumber (x : Exact) : (Series.constant (.number x)).Respelled (.constant (.number x)) :=
      .constant (.same _)
    refine ⟨?_, .cons ⟨rfl, hnumber _⟩ .nil,
      .cons ⟨rfl, hnumber _, .constant hfee, hnumber _, rfl, rfl, rfl⟩ .nil⟩
    simp only [SiteContext.series, List.forall₂_cons, List.Forall₂.nil, and_true]
    exact ⟨.some (.constant hprice), .none, .none, .some (hnumber _), .none, .none, .none, .none, .none,
      .none, .none⟩

theorem lamp_respelled : ∃ p ws,
    (lampFee (.text "1 EUR/kWh") (.text "1 EUR/kWh")).toProblem false = (.ok p, ws) ∧
      (lampFee (.text "1000 EUR/MWh") (.text "0.001 EUR/Wh")).toProblem false = (.ok p, ws) := by
  have heuro := lampFee_toProblem quantity_euroPerKilowattHour quantity_euroPerKilowattHour
  have hrequest : (lampFee (.text "1 EUR/kWh") (.text "1 EUR/kWh")).Respelled
      (lampFee (.text "1000 EUR/MWh") (.text "0.001 EUR/Wh")) :=
    lampFee_respelled (.text respells_megawattHour) (.text respells_wattHour)
  exact ⟨_, _, Prod.ext heuro rfl,
    (Request.toProblem_respelled hrequest false _ _).mp (Prod.ext heuro rfl)⟩

end Dispatch
