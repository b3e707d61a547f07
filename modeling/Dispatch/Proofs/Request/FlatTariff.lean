import Dispatch.Proofs.Program.PreferenceCost
import Dispatch.Proofs.Request.HardLimits

/-! # Flat tariffs

* `Stock.Lossless`, `Stock.Lossless.path_le`: a stock that only flows change gains no more than what
  flows into it.
* `Request.FlatTariff`: storages only, bought from and sold to at prices that do not change.
* `FlatBill.bill_nonneg`: no plan of such a request earns anything.
* `Model.Built.exists_idle_minimiser`: what a preference of every storage leaves.
* `Request.flat_tariff_idle`: so standing idle is the cheapest plan, and with a preference the only one.

What a storage takes from the site is paid at the price that its gain is credited with at the end, and
what it loses on the way is not credited. Flows between storages cancel out at the site, so the sum
over all storages settles the bill.
-/

namespace Dispatch
set_option autoImplicit false

open Exact Scalar

/-! ## Stocks that only flows change -/

/-- Nothing is lost over time, and nothing is gained or used outside. -/
structure Stock.Lossless (s : Stock Exact) (len : ℕ) : Prop where
  coefficients : ∀ j < len, s.coefficients j = (num 1, num 1)
  drift : ∀ j < len, s.drift j = 0

namespace Stock
variable {s : Stock Exact} {len : ℕ}

/-- Charging and discharging lose a share. -/
theorem SoundSlot.change_le {j : ℕ} (h : s.SoundSlot j) {hours up down : ℝ} (hhours : 0 ≤ hours)
    (hup : 0 ≤ up) (hdown : down ≤ 0) :
    hours * s.upShare j * up + hours / s.downShare j * down ≤ hours * (up + down) := by
  have hcharged : hours * s.upShare j * up ≤ hours * up :=
    mul_le_mul_of_nonneg_right (mul_le_of_le_one_right hhours h.upShare_le) hup
  have hdrawn : hours ≤ hours / s.downShare j := le_div_self hhours h.downShare_pos h.downShare_le
  have hdischarged : hours / s.downShare j * down ≤ hours * down :=
    mul_le_mul_of_nonpos_right hdrawn hdown
  linarith

namespace Lossless
variable (h : s.Lossless len)
include h

theorem step_eq {j : ℕ} (hj : j < len) (hours level up down : ℝ) :
    s.step hours j level up down =
      level + (hours * s.upShare j * up + hours / s.downShare j * down) := by
  rw [step, carry, intake, h.coefficients j hj, realChange, h.drift j hj, toReal_num, mul_one, mul_one,
    add_zero]

/-- The induction adds up the slots. -/
theorem path_le (hs : s.Sound len) {hours : ℝ} (hhours : 0 ≤ hours) (flow : ℕ → ℝ) {n : ℕ}
    (hn : n ≤ len) : s.path hours flow n ≤ s.start + hours * total n flow := by
  induction n with
  | zero =>
    have hzero : total 0 flow = 0 := rfl
    rw [path, hzero, mul_zero, add_zero]
  | succ n ih =>
    have hchange := (hs.slot n hn).change_le hhours (upHalf_nonneg (flow n))
      (downHalf_nonpos (flow n))
    rw [upHalf_add_downHalf] at hchange
    rw [path, h.step_eq hn, total_succ]
    linarith [ih (Nat.le_of_succ_le hn)]

theorem path_idle (hours : ℝ) {n : ℕ} (hn : n ≤ len) : s.path hours (fun _ => 0) n = s.start := by
  induction n with
  | zero => rfl
  | succ n ih =>
    rw [path, h.step_eq hn, ih (Nat.le_of_succ_le hn), upHalf, downHalf, max_self, min_self]
    ring

end Lossless

end Stock

/-! ## Flat bills -/

/-- Buying and selling at constant prices, and what is stored counts at the buying price. -/
structure BillTerms.Flat (t : BillTerms) (len : ℕ) (price sale : ℝ) : Prop where
  consumption : t.site.tariffs.consumption = List.replicate len (num price)
  production : t.site.tariffs.production = List.replicate len (num sale)
  consumptionBreach : t.site.consumptionBreach = none
  productionBreach : t.site.productionBreach = none
  consumptionPeak : t.site.consumptionPeak = none
  productionPeak : t.site.productionPeak = none
  storage : ∀ x ∈ t.storages, ∃ s, x = some s ∧ s.storedPrice = num price ∧ s.minima = none ∧
    s.maxima = none

theorem BillTerms.Flat.site_bill {t : BillTerms} {len : ℕ} {price sale : ℝ}
    (h : t.Flat len price sale) (dt : ℝ) (x : ℕ → ℝ) :
    t.site.bill len dt x =
      total len fun j => dt * (price * max (x j) 0 - sale * max (-x j) 0) := by
  rw [SiteTerms.bill, h.consumptionBreach, h.productionBreach, h.consumptionPeak, h.productionPeak]
  simp only [Option.elim_none, add_zero]
  refine total_congr fun j hj => ?_
  rw [realAt, realAt, h.consumption, h.production, valueAt_replicate hj, valueAt_replicate hj,
    toReal_num, toReal_num]

theorem StorageTerms.bill_of_unpriced {t : StorageTerms} {price : ℝ} (hprice : t.storedPrice = num price)
    (hminima : t.minima = none) (hmaxima : t.maxima = none) (len : ℕ) (dt : ℝ) (s : ℕ → ℝ) :
    t.bill len dt s = -price * (s (len - 1) - t.initial.toReal) := by
  rw [bill, hminima, hmaxima, hprice, toReal_num]
  simp

theorem total_le {len : ℕ} {f g : ℕ → ℝ} (h : ∀ j < len, f j ≤ g j) : total len f ≤ total len g :=
  List.sum_le_sum fun j hj => h j (List.mem_range.mp hj)

theorem total_comm (len n : ℕ) (f : ℕ → ℕ → ℝ) :
    (total len fun j => total n fun i => f i j) = total n fun i => total len (f i) := by
  induction n with
  | zero => exact total_zero len
  | succ n ih =>
    simp only [total_succ]
    rw [← ih, total, List.sum_map_add]
    rfl

/-- A problem with a flat bill, all of whose devices are storages that only flows change. -/
structure FlatBill (p : Problem Exact) (t : BillTerms) (price sale : ℝ) : Prop where
  sound : p.Sound
  hours : 0 ≤ p.realHours
  onSite : p.siteMembers = List.range p.devices.length
  length : t.storages.length = p.devices.length
  flat : t.Flat p.len price sale
  price_nonneg : 0 ≤ price
  sale_le : sale ≤ price
  stock : ∀ (i : ℕ) (s : StorageTerms), t.storages[i]? = some (some s) →
    ∃ (e : Device Exact) (st : Stock Exact), p.devices[i]? = some e ∧ e.stock = some st ∧
      st.initial = s.initial ∧ st.Lossless p.len

namespace FlatBill
variable {p : Problem Exact} {t : BillTerms} {price sale : ℝ} (h : FlatBill p t price sale)
include h

/-- No storage is credited with more than what flowed into it. -/
theorem credit_le {i : ℕ} {x : Option StorageTerms} (hx : t.storages[i]? = some x)
    (flow : ℕ → ℕ → ℝ) :
    -(price * (p.realHours * total p.len (flow i))) ≤
      x.elim 0 fun s => s.bill p.len p.realHours (p.replayed flow i) := by
  obtain ⟨s, rfl, hprice, hminima, hmaxima⟩ := h.flat.storage x (List.mem_of_getElem? hx)
  obtain ⟨e, st, he, hst, hinitial, hlossless⟩ := h.stock i s hx
  have hpos := h.sound.len_pos
  have hs := (h.sound.device_of_get he).stock st hst
  have hlast : p.replayed flow i (p.len - 1) = st.path p.realHours (flow i) p.len := by
    rw [h.sound.replayed_eq he hst flow (Nat.sub_one_lt_of_lt hpos), Nat.sub_add_cancel hpos]
  have hgain := hlossless.path_le hs h.hours (flow i) le_rfl
  have hstart : st.start = s.initial.toReal := by rw [Stock.start, hinitial]
  rw [Option.elim_some, StorageTerms.bill_of_unpriced hprice hminima hmaxima, hlast, neg_mul,
    neg_le_neg_iff]
  exact mul_le_mul_of_nonneg_left (by linarith) h.price_nonneg

/-- Taking from the site costs at least the buying price, and feeding in earns at most as much. -/
theorem site_le (flow : ℕ → ℕ → ℝ) :
    price * (p.realHours * total p.len (p.siteFlow flow)) ≤
      t.site.bill p.len p.realHours (p.siteFlow flow) := by
  rw [h.flat.site_bill, ← mul_assoc, ← total_mul]
  refine total_le fun j _ => ?_
  set x := p.siteFlow flow j
  have hsplit : max x 0 - max (-x) 0 = x := max_zero_sub_eq_self x
  have hsold : sale * max (-x) 0 ≤ price * max (-x) 0 :=
    mul_le_mul_of_nonneg_right h.sale_le (le_max_right _ _)
  have hslot : price * x ≤ price * max x 0 - sale * max (-x) 0 := by
    calc price * x = price * max x 0 - price * max (-x) 0 := by rw [← mul_sub, hsplit]
      _ ≤ price * max x 0 - sale * max (-x) 0 := by linarith
  calc price * p.realHours * x = p.realHours * (price * x) := by ring
    _ ≤ p.realHours * (price * max x 0 - sale * max (-x) 0) := mul_le_mul_of_nonneg_left hslot h.hours

/-- The flow of the site is the sum of what flows into the storages. -/
theorem total_siteFlow (flow : ℕ → ℕ → ℝ) :
    total p.len (p.siteFlow flow) = total p.devices.length fun i => total p.len (flow i) := by
  rw [← total_comm]
  refine total_congr fun j _ => ?_
  rw [Problem.siteFlow, h.onSite]
  rfl

theorem sum_storages (f : Option StorageTerms × ℕ → ℝ) (g : ℕ → ℝ)
    (hle : ∀ i x, t.storages[i]? = some x → g i ≤ f (x, i)) :
    total p.devices.length g ≤ (t.storages.zipIdx.map f).sum := by
  have hindices : total p.devices.length g = (t.storages.zipIdx.map fun x => g x.2).sum := by
    rw [total, ← h.length, List.range_eq_range', ← List.zipIdx_map_snd 0 t.storages, List.map_map]
    rfl
  rw [hindices]
  exact List.sum_le_sum fun x hx => hle x.2 x.1 (List.mem_zipIdx_iff_getElem?.mp hx)

/-- No plan earns anything. -/
theorem bill_nonneg (flow : ℕ → ℕ → ℝ) : 0 ≤ t.bill p flow := by
  have hcredit := h.sum_storages (fun x => x.1.elim 0 fun s =>
    s.bill p.len p.realHours (p.replayed flow x.2))
    (fun i => -(price * p.realHours) * total p.len (flow i)) fun i x hx => by
      have hstorage := h.credit_le hx flow
      calc -(price * p.realHours) * total p.len (flow i)
          = -(price * (p.realHours * total p.len (flow i))) := by ring
        _ ≤ _ := hstorage
  rw [total_mul, ← h.total_siteFlow flow] at hcredit
  have hsite := h.site_le flow
  rw [BillTerms.bill]
  linarith

/-- Standing idle costs nothing. -/
theorem bill_idle : t.bill p (fun _ _ => 0) = 0 := by
  have hflow : p.siteFlow (fun _ _ => 0) = fun _ => 0 := by
    funext j
    rw [Problem.siteFlow, List.map_const', List.sum_replicate, smul_zero]
  have hstorages : ∀ x ∈ t.storages.zipIdx, (x.1.elim 0 fun s =>
      s.bill p.len p.realHours (p.replayed (fun _ _ => 0) x.2)) = 0 := by
    rintro ⟨x, i⟩ hx
    have hget := List.mem_zipIdx_iff_getElem?.mp hx
    obtain ⟨s, rfl, hprice, hminima, hmaxima⟩ := h.flat.storage x (List.mem_of_getElem? hget)
    obtain ⟨e, st, he, hst, hinitial, hlossless⟩ := h.stock i s hget
    have hpos := h.sound.len_pos
    have hlast := h.sound.replayed_eq he hst (fun _ _ => 0) (Nat.sub_one_lt_of_lt hpos)
    rw [Nat.sub_add_cancel hpos, hlossless.path_idle _ le_rfl, Stock.start, hinitial] at hlast
    rw [Option.elim_some, StorageTerms.bill_of_unpriced hprice hminima hmaxima, hlast, sub_self,
      mul_zero]
  rw [BillTerms.bill, List.map_congr_left hstorages, h.flat.site_bill, hflow]
  simp [total_zero]

end FlatBill

/-! ## Flat requests -/

/-- A storage that only its flow changes, and whose level is not for sale. -/
structure StorageModel.OnlyTrades (m : StorageModel Exact) (g : Grid) (name : String) : Prop where
  kept : ∀ hourly, statedValues g m.storageEfficiency (fieldOf name "storage-efficiency") .ratio =
    .ok hourly → ∀ v ∈ hourly, v.getD 1 = 1
  gain : m.socGain = none
  usage : m.socUsage = none
  storedPrice : m.storedEnergyPrice = none
  minimaPrice : m.socMinimaBreachPrice = none
  maximaPrice : m.socMaximaBreachPrice = none

/-- Storages only, energy bought at one price and sold at no more, and nothing else charged for. -/
structure Request.FlatTariff (r : Request Exact) (g : Grid) (price : ℝ) : Prop where
  storages : ∀ d ∈ r.devices, ∃ m, d.flexModel = .storage m ∧ m.OnlyTrades g d.name
  fixed : r.context.fixedDevices = []
  raw : r.context.commitments = []
  bought : ∃ s, r.context.consumptionPrice = some s ∧
    s.required g "consumption-price" .energyPrice = .ok (List.replicate g.len (num price))
  sold : ∀ s, r.context.productionPrice = some s → ∃ sale ≤ price,
    s.required g "production-price" .energyPrice = .ok (List.replicate g.len (num sale))
  price_nonneg : 0 ≤ price
  consumptionBreach : r.context.consumptionBreachPrice = none
  productionBreach : r.context.productionBreachPrice = none
  consumptionPeak : r.context.peakConsumptionPrice = none
  productionPeak : r.context.peakProductionPrice = none

theorem realOr_of_forall {xs : List (Option Exact)} (h : ∀ v ∈ xs, v.getD 1 = 1) (j : ℕ) :
    realOr xs 1 j = 1 := by
  rw [realOr, givenAt]
  rcases Nat.lt_or_ge j xs.length with hj | hj
  · rw [List.getD_eq_getElem _ _ hj]
    have hone := h xs[j] (List.getElem_mem hj)
    cases hv : xs[j] with
    | none => rfl
    | some v =>
      rw [hv, Option.getD_some] at hone
      rw [hone]
      rfl
  · rw [List.getD_eq_default _ _ hj]
    rfl

theorem realOr_unstated {g : Grid} {field : String} {expected : Dimension} {vs : List (Option Exact)}
    (h : statedValues g none field expected = .ok vs) (default : ℝ) (j : ℕ) :
    realOr vs default j = default := by
  rw [← Except.ok.inj h, realOr, givenAt]
  rcases Nat.lt_or_ge j g.len with hj | hj
  · rw [List.getD_eq_getElem _ _ (by rwa [List.length_replicate]), List.getElem_replicate]
    rfl
  · rw [List.getD_eq_default _ _ (by rwa [List.length_replicate])]
    rfl

theorem StorageModel.OnlyTrades.lossless {m : StorageModel Exact} {g : Grid} {name : String}
    (h : m.OnlyTrades g name) {x : StorageReading} (hx : m.States g name x)
    (hs : (x.stock g).Sound g.len) (hhours : 0 < g.realHours) : (x.stock g).Lossless g.len := by
  refine ⟨fun j hj => ?_, fun j hj => ?_⟩
  · have hkept : valueAt (x.stock g).retention j = num 1 := by
      rw [hx.kept_eq hs hhours hj, realOr_of_forall (h.kept _ hx.hourly), Real.one_rpow]
    rw [Stock.coefficients, hkept]
    simp [Decay.coefficients, losslessMargin, one_eq]
  · have hgain := hx.gain
    have husage := hx.usage
    rw [h.gain] at hgain
    rw [h.usage] at husage
    rw [hx.drift_eq hs hj, realOr_unstated hgain, realOr_unstated husage, sub_self, zero_mul]

/-! ### Terms of a flat request -/

section
variable {g : Grid} {field priceField : String}

theorem ReadsBreach.of_unpriced {capacity : Option (Series Exact)} {t : Option PricedPower}
    (h : ReadsBreach g capacity none field priceField t) : t = none := by
  obtain ⟨c, b, -, hb, rfl⟩ := h
  obtain rfl := Except.ok.inj hb
  cases c with
  | none => rfl
  | some c => rfl

theorem ReadsPeak.of_unpriced {peak : Option (Series Exact)} {t : Option PricedPower}
    (h : ReadsPeak g peak none field priceField t) : t = none := by
  rcases h with ⟨-, rfl⟩ | ⟨b, _, hb, -⟩
  · rfl
  · cases hb

theorem ReadsLevels.of_unpriced {capacity : Option Exact} {levels : Option (Series Exact)}
    {t : Option PricedLevels} (h : ReadsLevels g capacity levels none field priceField t) :
    t = none := by
  obtain ⟨_, b, -, hb, rfl⟩ := h
  obtain rfl := Except.ok.inj hb
  rfl

end

/-- What is left in the storage counts at the buying price. -/
theorem StorageModel.OnlyTrades.terms {m : StorageModel Exact} {g : Grid} {name : String}
    (h : m.OnlyTrades g name) {tariffs : Tariffs Exact} {price : ℝ} (hpos : 0 < g.len)
    (hbought : tariffs.consumption = List.replicate g.len (num price)) {s : StorageTerms}
    (hs : m.Reads g name tariffs s) :
    s.storedPrice = num price ∧ s.minima = none ∧ s.maxima = none := by
  obtain ⟨capacity, initial, stored, -, -, -, hstored, hprice, hminima, hmaxima⟩ := hs
  rw [h.storedPrice] at hstored
  rw [h.minimaPrice] at hminima
  rw [h.maximaPrice] at hmaxima
  obtain rfl := Except.ok.inj hstored
  refine ⟨?_, hminima.of_unpriced, hmaxima.of_unpriced⟩
  obtain ⟨n, hn⟩ := Nat.exists_eq_succ_of_ne_zero hpos.ne'
  rw [hprice, Option.getD_none, hbought, hn, List.replicate_succ', List.getLastD_concat]

namespace Request.FlatTariff
variable {r : Request Exact} {g : Grid} {price : ℝ} (h : r.FlatTariff g price)
include h

theorem tariffs_flat {t : Tariffs Exact} (ht : ReadsTariffs g r.context t) :
    t.consumption = List.replicate g.len (num price) ∧
      ∃ sale ≤ price, t.production = List.replicate g.len (num sale) := by
  obtain ⟨⟨bought, hbought, hconsumption⟩, hsold⟩ := ht
  obtain ⟨bought', hbought', hflat⟩ := h.bought
  obtain rfl := Option.some.inj (hbought.symm.trans hbought')
  have hconsumption := Except.ok.inj (hconsumption.symm.trans hflat)
  refine ⟨hconsumption, ?_⟩
  cases hprice : r.context.productionPrice with
  | none =>
    rw [hprice] at hsold
    exact ⟨price, le_rfl, hsold.trans hconsumption⟩
  | some sold =>
    rw [hprice] at hsold
    obtain ⟨sale, hle, hsale⟩ := h.sold sold hprice
    exact ⟨sale, hle, Except.ok.inj (hsold.symm.trans hsale)⟩

theorem terms_flat (hpos : 0 < g.len) {t : BillTerms} (ht : r.Reads g t) :
    ∃ sale ≤ price, t.Flat g.len price sale := by
  obtain ⟨hbought, sale, hle, hsold⟩ := h.tariffs_flat ht.site.tariffs
  have hbreach := ht.site.consumptionBreach
  have hbreach' := ht.site.productionBreach
  have hpeak := ht.site.consumptionPeak
  have hpeak' := ht.site.productionPeak
  rw [h.consumptionBreach] at hbreach
  rw [h.productionBreach] at hbreach'
  rw [h.consumptionPeak] at hpeak
  rw [h.productionPeak] at hpeak'
  refine ⟨sale, hle, hbought, hsold, hbreach.of_unpriced, hbreach'.of_unpriced, hpeak.of_unpriced,
    hpeak'.of_unpriced, fun x hx => ?_⟩
  obtain ⟨i, hi, rfl⟩ := List.getElem_of_mem hx
  have hlen := ht.storages.length_eq
  have hread := (List.forall₂_iff_get.mp ht.storages).2 i (hlen.symm ▸ hi) hi
  obtain ⟨m, hm, htrades⟩ := h.storages _ (List.getElem_mem (hlen.symm ▸ hi))
  simp only [List.get_eq_getElem] at hread
  rw [DeviceRequest.Reads, hm] at hread
  obtain ⟨s, hs, hread⟩ := hread
  exact ⟨s, hs, htrades.terms hpos hbought hread⟩

end Request.FlatTariff

/-! ### Problems of a flat request -/

namespace Request.FlatTariff
variable {r : Request Exact} {sooner : Bool} {p : Problem Exact} {price : ℝ}
  (h : r.FlatTariff p.grid price) {x : RequestReading} (hx : r.Assembled sooner p x)
include h hx

theorem devices_length : p.devices.length = r.devices.length := by
  have hall := congrArg List.length hx.ids
  rwa [h.fixed, List.map_nil, List.append_nil, List.length_map, List.length_map] at hall

theorem flatBill {site : SiteTerms} {plannings : List DevicePlanning} {fixed : List (Device Exact)}
    (ht : r.Translated p site plannings fixed) :
    ∃ sale, FlatBill p ⟨site, plannings.map fun y => y.2.2⟩ price sale := by
  have hp := Problem.sound_of_check ht.check
  have hhours := (Request.made_of_grid ht.grid).realHours_pos
  obtain ⟨sale, hle, hflat⟩ := h.terms_flat hp.len_pos ht.reads_terms
  have hlength : (plannings.map fun y => y.2.2).length = p.devices.length := by
    rw [h.devices_length hx, ← ht.requests, List.length_map, List.length_map]
  refine ⟨sale, hp, hhours.le, hx.siteMembers_eq, hlength, hflat, h.price_nonneg, hle,
    fun i s hs => ?_⟩
  have hi : i < r.devices.length := by
    rw [← h.devices_length hx, ← hlength]
    exact (List.getElem?_eq_some_iff.mp hs).1
  have hd := List.getElem?_eq_getElem hi
  obtain ⟨e, st, he, -, hst, hinitial⟩ := ht.placed i _ s hd hs
  refine ⟨e, st, he, hst, hinitial, ?_⟩
  obtain ⟨y, hstates, hget⟩ := hx.device_of_get hd
  obtain ⟨m, hm, htrades⟩ := h.storages _ (List.getElem_mem hi)
  rw [DeviceRequest.States, hm] at hstates
  obtain ⟨reading, rfl, hreading⟩ := hstates
  obtain rfl := Option.some.inj (he.symm.trans hget)
  obtain rfl := Option.some.inj hst
  exact htrades.lossless hreading ((hp.device_of_get hget).stock _ rfl) hhours

theorem hasPreference (hsooner : ∀ d ∈ r.devices, d.prefersSooner sooner = true) {i : ℕ}
    {e : Device Exact} (he : p.devices[i]? = some e) : e.hasPreference = true := by
  have hi : i < r.devices.length := h.devices_length hx ▸ (List.getElem?_eq_some_iff.mp he).1
  obtain ⟨y, hstates, hget⟩ := hx.device_of_get (List.getElem?_eq_getElem hi)
  obtain ⟨m, hm, -⟩ := h.storages _ (List.getElem_mem hi)
  rw [DeviceRequest.States, hm] at hstates
  obtain ⟨reading, rfl, -⟩ := hstates
  obtain rfl := Option.some.inj (he.symm.trans hget)
  exact hsooner _ (List.getElem_mem hi)

end Request.FlatTariff

/-- Where no values cost less than nothing and standing idle costs nothing, a preference of every device
leaves only that. -/
theorem Model.Built.exists_idle_minimiser {p : Problem Exact} {margin : ℝ} {m : Model Exact}
    (hb : m.Built p (num margin)) (hp : p.Sound) (hhours : 0 < p.realHours)
    (hleast : 0 ∈ m.planValues p fun _ _ => 0)
    (hcost : ∀ v : ℕ → ℝ, (m.plain p).feasible (fun i => num (v i)) = true →
      0 ≤ m.handles.deviationCost v)
    (hprefers : ∀ (i : ℕ) (e : Device Exact), p.devices[i]? = some e → e.hasPreference = true)
    {t : TieBreak Exact} {k : ℝ} (henabled : t.enabled = true) (hk : t.relative = num k)
    (hpos : 0 < k) :
    ∃ u : ℕ → ℝ, (m.composed p t).Minimises u ∧
      (∀ i < p.devices.length, ∀ j < p.len, m.handles.flow u i j = 0) ∧
      ∀ v : ℕ → ℝ, (m.composed p t).feasible (fun i => num (v i)) = true →
        (∃ i < p.devices.length, ∃ j < p.len, m.handles.flow v i j ≠ 0) →
        ((m.composed p t).objective.value fun i => num (u i)) <
          (m.composed p t).objective.value fun i => num (v i) := by
  have hrelative : t.relative ≠ inf := fun hinf => nomatch hk.symm.trans hinf
  have hstep : 0 < p.realStep t := by
    rw [hp.realStep_eq hhours.ne' henabled hk hpos]
    exact half_pos (mul_pos hpos p.biasScale_pos)
  have hcomposed : ∀ v : ℕ → ℝ, (m.composed p t).objective.value (fun i => num (v i)) =
      num (m.handles.deviationCost v + m.handles.preference p t (p.realStep t) v) := fun v =>
    hb.composed_value hp hhours.ne' hrelative
  obtain ⟨u, hu, huidle, huvalue⟩ := hleast
  have hcheap : m.handles.deviationCost u = 0 :=
    (num_inj _ _).mp ((hb.objective_value hp).symm.trans huvalue)
  have held := ((hb.feasible_iff _ _).mp hu).1
  have hindifferent : m.handles.preference p t (p.realStep t) u = 0 := by
    apply le_antisymm
    · have hle := hb.preference_le hp hhours.le t hstep.le held
      rwa [hb.movedEnergy_idle hp held huidle, mul_zero] at hle
    · exact hb.preference_nonneg hp hhours.le t hstep.le held
  refine ⟨u, ⟨hu, fun v hv => ?_⟩, huidle, fun v hv hmoves => ?_⟩
  · have heldv := ((hb.feasible_iff _ _).mp hv).1
    rw [hcomposed, hcomposed, hcheap, hindifferent, num_le_num]
    linarith [hcost v hv, hb.preference_nonneg hp hhours.le t hstep.le heldv]
  · have heldv := ((hb.feasible_iff _ _).mp hv).1
    obtain ⟨i, hi, j, hj, hflow⟩ := hmoves
    have hget := List.getElem?_eq_getElem hi
    have hmoved := hb.movedEnergy_pos hp hhours heldv hget (hprefers i _ hget) hj hflow
    have hpreference := hb.le_preference hp hhours.le t hstep.le heldv
    rw [hcomposed, hcomposed, hcheap, hindifferent, num_lt_num]
    linarith [hcost v hv, mul_pos hstep hmoved]

/-- With a flat tariff no plan costs less than standing idle, which costs nothing; and where all
storages prefer to charge sooner, every plan that moves energy is dearer. -/
theorem Request.flat_tariff_idle {r : Request Exact} {sooner : Bool} {p : Problem Exact}
    {price margin : ℝ} (h : (r.toProblem sooner).1 = .ok p) (hflat : r.FlatTariff p.grid price)
    (hidle : p.Admits fun _ _ => 0) (hmargin : 0 ≤ margin) :
    ∃ m, p.model (num margin) = .ok m ∧ IsLeast (m.planValues p fun _ _ => 0) 0 ∧
      (∀ v : ℕ → ℝ, (m.plain p).feasible (fun i => num (v i)) = true →
        num 0 ≤ (m.plain p).objective.value fun i => num (v i)) ∧
      ∀ (t : TieBreak Exact) (k : ℝ), t.enabled = true → t.relative = num k → 0 < k →
        (∀ d ∈ r.devices, d.prefersSooner sooner = true) →
        ∃ u : ℕ → ℝ, (m.composed p t).Minimises u ∧
          (∀ i < p.devices.length, ∀ j < p.len, m.handles.flow u i j = 0) ∧
          ∀ v : ℕ → ℝ, (m.composed p t).feasible (fun i => num (v i)) = true →
            (∃ i < p.devices.length, ∃ j < p.len, m.handles.flow v i j ≠ 0) →
            ((m.composed p t).objective.value fun i => num (u i)) <
              (m.composed p t).objective.value fun i => num (v i) := by
  obtain ⟨site, plannings, fixed, htranslated⟩ := translated hflat.raw h
  obtain ⟨x, hx⟩ := assembled h
  obtain ⟨sale, hbill⟩ := hflat.flatBill hx htranslated
  have hp := hbill.sound
  have hhours : 0 < p.realHours := (made_of_grid htranslated.grid).realHours_pos
  obtain ⟨m, hm, hb⟩ := Problem.exists_built htranslated.check hmargin
  have hleast : IsLeast (m.planValues p fun _ _ => 0) 0 := by
    have hidleLeast := hb.isLeast_planValues hp hbill.hours hmargin hidle
    rwa [htranslated.planCost_eq, hbill.bill_idle] at hidleLeast
  have hcost : ∀ v : ℕ → ℝ, (m.plain p).feasible (fun i => num (v i)) = true →
      0 ≤ m.handles.deviationCost v := by
    intro v hv
    obtain ⟨held, -, commitments⟩ := (hb.feasible_iff _ _).mp hv
    have hplan := hb.planCost_le hp commitments
    rw [hb.planCost_replayed hp held, htranslated.planCost_eq] at hplan
    exact (hbill.bill_nonneg _).trans hplan
  refine ⟨m, hm, hleast, fun v hv => ?_, fun t k henabled hk hpos hsooner => ?_⟩
  · have hvalue : (m.plain p).objective.value (fun i => num (v i)) =
        num (m.handles.deviationCost v) := hb.objective_value hp
    rw [hvalue, num_le_num]
    exact hcost v hv
  · exact hb.exists_idle_minimiser hp hhours hleast.1 hcost
      (fun i e he => hflat.hasPreference hx hsooner he) henabled hk hpos

/-! ## A battery under a flat tariff -/

/-- The battery where energy is bought and sold at a quarter. -/
noncomputable def flatStorage : Request Exact :=
  { oneStorage with
    context := { oneStorage.context with
      consumptionPrice := some (.constant (.number (num (1 / (4 : ℕ)))))
      productionPrice := none } }

noncomputable def flatBattery : Problem Exact :=
  { pricedBattery with
    devices := [Problem.limitedBattery (-1) none true]
    commitments := [Tariffs.commitment ⟨[num (1 / (4 : ℕ))], [num (1 / (4 : ℕ))]⟩ Problem.oneHour,
      storedEnergy Problem.oneHour "battery" (num 1) (num (1 / (4 : ℕ)))] }

theorem flatBattery_check : flatBattery.check = .ok () :=
  Problem.oneHour_check (Problem.limitedBattery_check (-1) none true)
    (oneHour_commitments_check rfl rfl)

theorem flatStorage_toProblem : (flatStorage.toProblem true).1 = .ok flatBattery := by
  have htariffs : flatStorage.context.tariffs Problem.oneHour =
      .ok ⟨[num (1 / (4 : ℕ))], [num (1 / (4 : ℕ))]⟩ := by
    simp only [SiteContext.tariffs, flatStorage, required_number]
    rfl
  exact toProblem_of_parts htariffs (batteryModel_device_unlisted _ true) rfl oneStorage_limits rfl
    flatBattery_check

theorem flatStorage_flat : flatStorage.FlatTariff Problem.oneHour (1 / (4 : ℕ)) where
  storages d hd := by
    obtain rfl := List.mem_singleton.mp hd
    refine ⟨batteryModel, rfl, fun hourly hread v hv => ?_, rfl, rfl, rfl, rfl, rfl⟩
    obtain rfl := Except.ok.inj hread
    obtain rfl := List.eq_of_mem_replicate hv
    rfl
  fixed := rfl
  raw := rfl
  bought := ⟨_, rfl, required_number _ _ _ _⟩
  sold := fun s hs => nomatch hs
  price_nonneg := by norm_num
  consumptionBreach := rfl
  productionBreach := rfl
  consumptionPeak := rfl
  productionPeak := rfl

/-- The battery stands idle, and whatever else it did would be dearer. -/
theorem flatStorage_idle :
    ∃ p m u, (flatStorage.toProblem true).1 = .ok p ∧ p.model (num 1) = .ok m ∧
      IsLeast (m.planValues p fun _ _ => 0) 0 ∧
      (m.composed p ⟨true, num (1 / 1000), .linear⟩).Minimises u ∧ m.handles.flow u 0 0 = 0 := by
  have hidle : flatBattery.Admits fun _ _ => 0 :=
    Problem.limitedBattery_admits_idle flatBattery_check (by norm_num)
  obtain ⟨m, hm, hleast, -, hprefers⟩ :=
    Request.flat_tariff_idle flatStorage_toProblem flatStorage_flat hidle zero_le_one
  have hsooner : ∀ d ∈ flatStorage.devices, d.prefersSooner true = true := fun d hd => by
    obtain rfl := List.mem_singleton.mp hd
    rfl
  obtain ⟨u, hu, huidle, -⟩ := hprefers ⟨true, num (1 / 1000), .linear⟩ (1 / 1000) rfl rfl (by norm_num)
    hsooner
  exact ⟨flatBattery, m, u, flatStorage_toProblem, hm, hleast, hu,
    huidle 0 Nat.one_pos 0 Nat.one_pos⟩

end Dispatch
