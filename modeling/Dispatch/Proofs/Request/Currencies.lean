import Dispatch.Proofs.Request.Restated
import Dispatch.Proofs.Request.Units

/-! # The currencies of a request

* `Series.currencies`, `Request.currencies`: the currencies that a series names, and those that stand
  anywhere in the price fields of a request.
* `Request.currencies_compared`: a request that becomes a problem has tariffs that agree in the first
  currency they name; apart from that, its amounts can be restated in any currencies.
* `lamp_in_two_currencies`: a problem whose prices are in two currencies.
-/

namespace Dispatch
set_option autoImplicit false

open Exact Checked

variable {α : Type} [Scalar α]

/-! ## Currencies of a series -/

/-- Every currency that the series names, from the first on. -/
def Series.currencies (s : Series α) : List String := s.amounts.filterMap Amount.currency

theorem AlignedSeries.currency_eq (s : AlignedSeries α) :
    (Series.aligned s).currency = (Series.aligned s).amounts.findSome? Amount.currency := by
  simp only [Series.currency, Series.amounts, scaled]
  cases s.unit with
  | none => rfl
  | some unit =>
    rw [Option.toList_some, List.map_singleton, List.findSome?_singleton, Amount.currency]
    cases hone : (Quantity.ofText ("1 " ++ unit) : Checked α (Quantity α)) with
    | error e => simp only [hone]; rfl
    | ok q => simp only [hone]; rfl

/-- The currency of a series is the first that it names. -/
theorem Series.currency_eq (s : Series α) : s.currency = s.currencies.head? := by
  unfold currencies
  rw [List.head?_filterMap]
  cases s with
  | constant a =>
    unfold amounts
    rw [List.findSome?_singleton]
    rfl
  | segments items =>
    unfold amounts
    rw [List.findSome?_map]
    rfl
  | aligned a => exact a.currency_eq

/-! ## Currencies of a request -/

def StatedField.isPrice (f : StatedField α) : Bool :=
  f.admits.any fun d => d = .energyPrice ∨ d = .powerPrice

/-- Every currency that stands in a price field. -/
def Request.currencies (r : Request α) : List String :=
  (r.fields.filter StatedField.isPrice).flatMap fun f => f.series.currencies

def OneCurrency (cs : List String) : Prop := ∀ a ∈ cs, ∀ b ∈ cs, a = b

theorem SiteContext.agree_of_tariffs {c : SiteContext α} {g : Grid} {t : Tariffs α}
    (h : c.tariffs g = .ok t) : c.TariffsAgree := by
  obtain ⟨bought, hbought, -, hsold⟩ := tariffs_eq_ok.mp h
  intro b s hb hs
  rw [hbought] at hb
  cases hprice : c.productionPrice with
  | none =>
    rw [hprice] at hs
    cases hs
  | some sold =>
    rw [hprice] at hs hsold
    exact hsold.1 b s hb hs

theorem Series.currency_of_mem {s : Series α} {a : String} (ha : a ∈ s.currencies)
    (hone : OneCurrency s.currencies) : s.currency = some a := by
  rw [currency_eq]
  cases hcs : s.currencies with
  | nil =>
    rw [hcs] at ha
    cases ha
  | cons b cs =>
    rw [hcs] at ha hone
    rw [List.head?_cons, hone a ha b List.mem_cons_self]

/-- Tariffs that agree, each in one currency, are in one currency together. -/
theorem SiteContext.oneCurrency_of_agree {c : SiteContext α} (h : c.TariffsAgree)
    (hone : ∀ f ∈ c.tariffFields, OneCurrency f.series.currencies) :
    OneCurrency (c.tariffFields.flatMap fun f => f.series.currencies) := by
  have hnames : ∀ a ∈ c.tariffFields.flatMap (fun f => f.series.currencies),
      c.consumptionPrice.bind Series.currency = some a ∨
        c.productionPrice.bind Series.currency = some a := by
    intro a ha
    obtain ⟨f, hf, ha⟩ := List.mem_flatMap.mp ha
    have hcurrency := Series.currency_of_mem ha (hone f hf)
    rcases List.mem_append.mp hf with hf | hf
    · obtain ⟨s, hs, rfl⟩ := List.mem_map.mp hf
      exact .inl (Option.bind_eq_some_iff.mpr ⟨s, Option.mem_toList.mp hs, hcurrency⟩)
    · obtain ⟨s, hs, rfl⟩ := List.mem_map.mp hf
      exact .inr (Option.bind_eq_some_iff.mpr ⟨s, Option.mem_toList.mp hs, hcurrency⟩)
  intro a ha b hb
  rcases hnames a ha with hbought | hsold
  · rcases hnames b hb with hbought' | hsold'
    · exact Option.some.inj (hbought.symm.trans hbought')
    · exact h a b hbought hsold'
  · rcases hnames b hb with hbought' | hsold'
    · exact (h b a hbought' hsold).symm
    · exact Option.some.inj (hsold.symm.trans hsold')

/-- The first currencies of the tariffs agree. No other currency is looked at: a request that states the
same in other currencies becomes the same problem as long as its tariffs agree. So there is one
currency only where no other price names one and neither tariff names two. -/
theorem Request.currencies_compared {r : Request α} {sooner : Bool} {p : Problem α}
    {ws : List Warning} (h : r.toProblem sooner = (.ok p, ws)) :
    r.context.TariffsAgree ∧
      (∀ q, r.Alike q → (q.toProblem sooner = (.ok p, ws) ↔ q.context.TariffsAgree)) ∧
      ((∀ f ∈ r.fields, f.isPrice → f ∉ r.context.tariffFields → f.series.currencies = []) →
        (∀ f ∈ r.context.tariffFields, OneCurrency f.series.currencies) →
          OneCurrency r.currencies) := by
  have hagree {q : Request α} (hq : q.toProblem sooner = (.ok p, ws)) : q.context.TariffsAgree := by
    obtain ⟨tariffs, planned, fixed, siteCommitments, stated, hsteps⟩ :=
      steps_of_toProblem (Prod.ext_iff.mp hq).1
    exact SiteContext.agree_of_tariffs hsteps.prices
  refine ⟨hagree h, fun q hq => ⟨hagree, fun hq' => ?_⟩, fun hothers hone => ?_⟩
  · exact (toProblem_same hq (iff_of_true (hagree h) hq') sooner p ws).mp h
  · have htariffs := SiteContext.oneCurrency_of_agree (hagree h) hone
    have hmem : ∀ a ∈ r.currencies, a ∈ r.context.tariffFields.flatMap fun f => f.series.currencies := by
      intro a ha
      obtain ⟨f, hf, ha⟩ := List.mem_flatMap.mp ha
      obtain ⟨hfield, hprice⟩ := List.mem_filter.mp hf
      by_cases htariff : f ∈ r.context.tariffFields
      · exact List.mem_flatMap.mpr ⟨f, htariff, ha⟩
      · rw [hothers f hfield hprice htariff] at ha
        cases ha
    exact fun a ha b hb => htariffs a (hmem a ha) b (hmem b hb)

/-! ## The lamp with its fee in another currency -/

theorem quantity_dollarPerKilowattHour :
    (Amount.text "1 USD/kWh" : Amount Exact).quantity =
      .ok ⟨num 1, .energyPrice, some "USD"⟩ := by
  have htrim : Text.trim "1 USD/kWh".toList = "1 USD/kWh".toList := by decide +kernel
  have hsplit : longestNumeral 9 "1 USD/kWh".toList =
      some (.finite ⟨false, 1, 0⟩, "USD/kWh".toList) := by decide +kernel
  exact quantity_one htrim hsplit fun v => rfl

theorem Amount.Alike.refl (a : Amount α) : a.Alike a := fun _ _ => Iff.rfl

theorem lampFee_alike {price fee fee' : Amount Exact} (h : fee.Alike fee') :
    (lampFee price fee).Alike (lampFee price fee') where
  start := rfl
  stop := rfl
  duration := rfl
  resolution := rfl
  zone := rfl
  devices := .nil
  context := by
    have hnumber (x : Exact) : (Series.constant (.number x)).Alike (.constant (.number x)) :=
      .constant (.refl _)
    exact ⟨.some (.constant (.refl _)), .none, .none, .some (hnumber _), .none, .none, .none, .none,
      .none, .none, .none, .cons ⟨rfl, hnumber _⟩ .nil,
      .cons ⟨rfl, hnumber _, .constant h, hnumber _, rfl, rfl, rfl⟩ .nil⟩

/-- The fee of the lamp is restated in dollars; the tariff stays in euros. -/
theorem lamp_restated : ∃ p ws,
    (lampFee (.text "1 EUR/kWh") (.text "1 EUR/kWh")).toProblem false = (.ok p, ws) ∧
      (lampFee (.text "1 EUR/kWh") (.text "1 USD/kWh")).toProblem false = (.ok p, ws) ∧
      (lampFee (.text "1 EUR/kWh") (.text "1 EUR/kWh")).context.TariffsAgree := by
  have heuro := lampFee_toProblem quantity_euroPerKilowattHour quantity_euroPerKilowattHour
  have halike : (Amount.text "1 EUR/kWh" : Amount Exact).Alike (.text "1 USD/kWh") := by
    intro v d
    rw [quantity_euroPerKilowattHour, quantity_dollarPerKilowattHour]
    simp
  obtain ⟨hagree, hrestated, -⟩ := Request.currencies_compared (Prod.ext heuro rfl)
  have hdollar : (lampFee (.text "1 EUR/kWh") (.text "1 USD/kWh")).context.TariffsAgree :=
    fun _ _ _ hs => nomatch hs
  exact ⟨_, _, Prod.ext heuro rfl, (hrestated _ (lampFee_alike halike)).mpr hdollar, hagree⟩

theorem currency_of_quantity {s : String} {q : Quantity Exact}
    (h : (Amount.text s : Amount Exact).quantity = .ok q) :
    (Amount.text s : Amount Exact).currency = q.currency := by
  rw [Amount.quantity] at h
  rw [Amount.currency, h]

/-- Euros and dollars are priced side by side in one problem. -/
theorem lamp_in_two_currencies : ∃ p,
    ((lampFee (.text "1 EUR/kWh") (.text "1 USD/kWh")).toProblem false).1 = .ok p ∧
      p.commitments.map Commitment.upPrice = [[num 1], [num 1]] ∧
      (lampFee (.text "1 EUR/kWh") (.text "1 USD/kWh")).currencies = ["EUR", "USD"] ∧
      ¬OneCurrency (lampFee (.text "1 EUR/kWh") (.text "1 USD/kWh")).currencies := by
  have hcurrencies :
      (lampFee (.text "1 EUR/kWh") (.text "1 USD/kWh")).currencies = ["EUR", "USD"] := by
    have heuro := currency_of_quantity quantity_euroPerKilowattHour
    have hdollar := currency_of_quantity quantity_dollarPerKilowattHour
    have hnone (x : Exact) : (Amount.number x).currency = none := rfl
    rw [Request.currencies, lampFee_fields]
    simp [StatedField.isPrice, Series.currencies, Series.amounts, heuro, hdollar, hnone]
  refine ⟨_, lampFee_toProblem quantity_euroPerKilowattHour quantity_dollarPerKilowattHour, ?_,
    hcurrencies, ?_⟩
  · simp [lampProblem, Tariffs.commitment, Commitment.siteFlow, scaledBy, oneHour_hours, one_eq]
  · rw [hcurrencies]
    intro hone
    exact absurd (hone "EUR" (by decide) "USD" (by decide)) (by decide)

end Dispatch
