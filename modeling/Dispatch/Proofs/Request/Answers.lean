import Dispatch.Proofs.Series.Answers
import Dispatch.Proofs.Time.Tiling
import Dispatch.Proofs.Warned

/-! # Requests that are answered

* `StatedField.InCalendar`: the calendar has every sum of an instant and a span that is made for a field.
* `StorageModel.device_answers`, `SiteContext.limits_answers`, `ProcessModel.device_answers`,
  `StatedCommitment.commitment_answers`: a part of a request is answered if its fields are in the calendar.
* `Problem.check_answers`: the checks of a problem need no condition.
-/

namespace Dispatch
set_option autoImplicit false

variable {α β : Type} [Scalar α]

/-! ## Fields -/

/-- The calendar has every sum that is made for the field: those of its segments, and those of the shifted
grid if it is an aligned series of levels. -/
structure StatedField.InCalendar (f : StatedField α) (g : Grid) : Prop where
  pieces : ∀ x ∈ f.series.pieces, CalendarHas (x.Adds g.zone)
  shifted : f.reading = .slotEnds → (∃ a, f.series = .aligned a) → CalendarHas (g.ShiftAdds α)

def InCalendar (g : Grid) (fields : List (StatedField α)) : Prop := ∀ f ∈ fields, f.InCalendar g

theorem inCalendar_append {g : Grid} {xs ys : List (StatedField α)} :
    InCalendar g (xs ++ ys) ↔ InCalendar g xs ∧ InCalendar g ys :=
  List.forall_mem_append

theorem InCalendar.flatMap {g : Grid} {xs : List β} {f : β → List (StatedField α)}
    (h : InCalendar g (xs.flatMap f)) : ∀ x ∈ xs, InCalendar g (f x) :=
  fun x hx k hk => h k (List.mem_flatMap.mpr ⟨x, hx, hk⟩)

section Fields
variable {g : Grid} {name : String} {admits : List Dimension} {reading : Reading}

theorem InCalendar.series {k : Series α} (h : InCalendar g (seriesField name (some k) admits reading)) :
    (⟨name, k, admits, reading⟩ : StatedField α).InCalendar g :=
  h _ (List.mem_singleton.mpr rfl)

theorem optionalSeries_answers (hg : g.Representable) {s : Option (Series α)}
    (h : InCalendar g (seriesField name s admits reading)) (field : String) (expected : Dimension) :
    Checked.Answers (optionalSeries g s field expected) := by
  cases s with
  | none => exact Checked.failsWith_ok _
  | some k => exact (Series.required_answers hg h.series.pieces).bind fun _ => Checked.failsWith_ok _

theorem optionalAmount_answers (a : Option (Amount α)) (field : String) (expected : Dimension)
    (reference : Option α) : Checked.Answers (optionalAmount a field expected reference) := by
  cases a with
  | none => exact Checked.failsWith_ok _
  | some a => exact (a.resolve_answers field expected reference).bind fun _ => Checked.failsWith_ok _

namespace StorageModel

theorem seriesOr_answers (hg : g.Representable) {s : Option (Series α)}
    (h : InCalendar g (seriesField name s admits reading)) (field : String) (expected : Dimension)
    (default : α) : Checked.Answers (seriesOr g s field expected default) := by
  cases s with
  | none => exact Checked.failsWith_ok _
  | some k => exact Series.valuesOr_answers hg h.series.pieces default

theorem levels_answers (hg : g.Representable) {s : Option (Series α)}
    (h : InCalendar g (seriesField name s admits .slotEnds)) (field : String) (capacity : Option α) :
    Checked.Answers (levels g s field capacity) := by
  cases s with
  | none => exact Checked.failsWith_ok _
  | some k => exact Series.stateValues_answers hg h.series.pieces (h.series.shifted rfl)

end StorageModel

end Fields

/-! ## Storages -/

namespace StorageModel
variable {m : StorageModel α} {g : Grid} {name : String}

theorem capacity_answers (m : StorageModel α) (name : String) : Checked.Answers (m.capacity name) := by
  unfold capacity
  cases m.storageCapacity with
  | none => exact optionalAmount_answers _ _ _ _
  | some c => exact optionalAmount_answers _ _ _ _

theorem powerBand_answers (hg : g.Representable) (h : InCalendar g (m.bandFields name))
    (hwindows : ∀ w ∈ m.timeRestrictions, CalendarHas (w.Adds α g.zone)) :
    Checked.Answers (m.powerBand g name) := by
  simp only [bandFields, inCalendar_append, and_assoc] at h
  obtain ⟨hpower, hconsumption, hproduction⟩ := h
  refine Checked.FailsWith.bind (optionalSeries_answers hg hpower _ _) fun power => ?_
  refine Checked.FailsWith.bind (optionalSeries_answers hg hconsumption _ _) fun consumption => ?_
  refine Checked.FailsWith.bind (optionalSeries_answers hg hproduction _ _) fun production => ?_
  refine .ite (Checked.failsWith_error nofun) ?_
  exact (TimeWindow.mask_answers hg hwindows).bind fun _ => Checked.failsWith_ok _

theorem dynamics_answers (hg : g.Representable) (h : InCalendar g (m.dynamicsFields name)) (s : Stock α) :
    Checked.Answers (m.dynamics g name s) := by
  simp only [dynamicsFields, inCalendar_append, and_assoc] at h
  obtain ⟨-, hgain, husage, hcharging, hdischarging, hkept⟩ := h
  refine Checked.FailsWith.bind (optionalAmount_answers _ _ _ _) fun roundtrip => ?_
  refine Checked.FailsWith.bind (seriesOr_answers hg hgain _ _ _) fun gain => ?_
  refine Checked.FailsWith.bind (seriesOr_answers hg husage _ _ _) fun usage => ?_
  refine Checked.FailsWith.bind (seriesOr_answers hg hcharging _ _ _) fun etaUp => ?_
  refine Checked.FailsWith.bind (seriesOr_answers hg hdischarging _ _ _) fun etaDown => ?_
  exact Checked.FailsWith.bind (seriesOr_answers hg hkept _ _ _) fun _ => Checked.failsWith_ok _

theorem device_answers (hg : g.Representable) (h : InCalendar g (m.fields name))
    (hwindows : ∀ w ∈ m.timeRestrictions, CalendarHas (w.Adds α g.zone)) (tariffs : Tariffs α)
    (sooner : Bool) : Warned.FailsWith (· ≠ .unrepresentable) (m.device g name tariffs sooner) := by
  simp only [fields, levelFields, inCalendar_append, and_assoc] at h
  obtain ⟨-, -, -, -, hminima, hmaxima, htargets, -, hband, hdynamics⟩ := h
  have hamount (a : Option (Amount α)) (field : String) (expected : Dimension) (reference : Option α) :
      Warned.FailsWith (· ≠ .unrepresentable)
        (Warned.lift (optionalAmount a field expected reference)) :=
    Warned.failsWith_lift (optionalAmount_answers a field expected reference)
  unfold device
  extract_lets field price
  refine Warned.FailsWith.bind (Warned.failsWith_lift (m.capacity_answers name)) fun capacity => ?_
  extract_lets level rest
  -- Whether an initial level is stated or not, the same is read after it.
  have hrest : ∀ initial, Warned.FailsWith (· ≠ .unrepresentable) (rest initial) := by
    intro initial
    refine Warned.FailsWith.bind (hamount _ _ _ _) fun lowest => ?_
    refine Warned.FailsWith.bind (hamount _ _ _ _) fun highest => ?_
    refine Warned.FailsWith.bind (Warned.failsWith_lift (levels_answers hg hminima _ _)) fun minima => ?_
    refine Warned.FailsWith.bind (Warned.failsWith_lift (levels_answers hg hmaxima _ _)) fun maxima => ?_
    refine Warned.FailsWith.bind (Warned.failsWith_lift (levels_answers hg htargets _ _)) fun targets => ?_
    refine Warned.FailsWith.bind (hamount _ _ _ _) fun minimaPrice => ?_
    refine Warned.FailsWith.bind (hamount _ _ _ _) fun maximaPrice => ?_
    refine Warned.FailsWith.bind (hamount _ _ _ _) fun storedPrice => ?_
    refine Warned.FailsWith.bind (Warned.failsWith_lift (dynamics_answers hg hdynamics _)) fun stock => ?_
    exact Warned.FailsWith.bind (Warned.failsWith_lift (powerBand_answers hg hband hwindows)) fun _ =>
      Warned.failsWith_pure _
  refine Warned.FailsWith.bind (hamount _ _ _ _) fun initial => ?_
  cases initial with
  | some soc => exact hrest soc
  | none => exact (Warned.failsWith_warn _).bind fun _ => hrest 0

end StorageModel

/-! ## Sites -/

namespace SiteContext
variable {c : SiteContext α} {g : Grid}

theorem tariffs_answers (hg : g.Representable) (h : InCalendar g c.tariffFields) :
    Checked.Answers (c.tariffs g) := by
  simp only [tariffFields, inCalendar_append] at h
  obtain ⟨hbought, hsold⟩ := h
  unfold tariffs
  cases hconsumption : c.consumptionPrice with
  | none => exact Checked.failsWith_error nofun
  | some bought =>
    rw [hconsumption] at hbought
    refine (Series.required_answers hg hbought.series.pieces).bind fun consumption => ?_
    cases hproduction : c.productionPrice with
    | none => exact Checked.failsWith_ok _
    | some sold =>
      rw [hproduction] at hsold
      have hrest : Checked.Answers (do
          let production ← sold.required g "production-price" .energyPrice
          return (⟨consumption, production⟩ : Tariffs α)) :=
        (Series.required_answers hg hsold.series.pieces).bind fun _ => Checked.failsWith_ok _
      dsimp only
      cases bought.currency with
      | none => exact hrest
      | some b =>
        cases sold.currency with
        | none => exact hrest
        | some s => exact .ite ((Checked.failsWith_error nofun).bind fun _ => hrest) hrest

theorem peak_answers (hg : g.Representable) {peak price : Option (Series α)} {name priceName : String}
    {reading reading' : Reading} (hpeak : InCalendar g (seriesField name peak [.power] reading))
    (hprice : InCalendar g (seriesField priceName price [.powerPrice] reading'))
    (f : Option (List α) → List α → List (Commitment α)) :
    Checked.Answers (do
      match ← optionalSeries g price priceName .powerPrice with
      | none => return []
      | some price =>
        let peak ← optionalSeries g peak name .power
        return f peak price : Checked α (List (Commitment α))) := by
  refine Checked.FailsWith.bind (optionalSeries_answers hg hprice _ _) fun prices => ?_
  cases prices with
  | none => exact Checked.failsWith_ok _
  | some prices =>
    exact Checked.FailsWith.bind (optionalSeries_answers hg hpeak _ _) fun _ => Checked.failsWith_ok _

/-- A capacity is a limit, or it may be breached at a price. -/
theorem breach_answers (hg : g.Representable) {capacity price : Option (Series α)}
    {name priceName : String} {reading reading' : Reading}
    (hcapacity : InCalendar g (seriesField name capacity [.power] reading))
    (hprice : InCalendar g (seriesField priceName price [.powerPrice] reading'))
    (limits : SiteLimits α) (tightened : List α → SiteLimits α)
    (breached : List α → List α → List (Commitment α)) (ignored : Warning) :
    Warned.FailsWith (· ≠ .unrepresentable) (do
      let cap ← Warned.lift (optionalSeries g capacity name .power)
      let price ← Warned.lift (optionalSeries g price priceName .powerPrice)
      match cap, price with
      | some cap, some price => return (limits, breached cap price)
      | some cap, none => return (tightened cap, [])
      | none, some _ => do
        Warned.warn ignored
        return (limits, [])
      | none, none => return (limits, []) : Warned (Fault α) (SiteLimits α × List (Commitment α))) := by
  refine (Warned.failsWith_lift (optionalSeries_answers hg hcapacity _ _)).bind fun cap => ?_
  refine (Warned.failsWith_lift (optionalSeries_answers hg hprice _ _)).bind fun price => ?_
  cases cap with
  | none =>
    cases price with
    | none => exact Warned.failsWith_pure _
    | some price => exact (Warned.failsWith_warn _).bind fun _ => Warned.failsWith_pure _
  | some cap => cases price <;> exact Warned.failsWith_pure _

theorem limits_answers (hg : g.Representable) (h : InCalendar g c.limitFields) :
    Warned.FailsWith (· ≠ .unrepresentable) (c.limits g) := by
  simp only [limitFields, inCalendar_append, and_assoc] at h
  obtain ⟨hpower, hconsumption, hproduction, hconsumptionBreach, hproductionBreach, hconsumptionPeak,
    hconsumptionPeakPrice, hproductionPeak, hproductionPeakPrice⟩ := h
  have hcapacity : Checked.Answers (c.powerLimits g) := by
    refine Checked.FailsWith.bind (optionalSeries_answers hg hpower _ _) fun cap => ?_
    cases cap with
    | none => exact Checked.failsWith_ok _
    | some cap => exact Checked.failsWith_ok _
  refine (Warned.failsWith_lift hcapacity).bind fun limits => ?_
  refine (breach_answers hg hconsumption hconsumptionBreach limits _ _ _).bind fun bought => ?_
  refine (breach_answers hg hproduction hproductionBreach bought.1 _ _ _).bind fun sold => ?_
  refine (Warned.failsWith_lift (peak_answers hg hconsumptionPeak hconsumptionPeakPrice _)).bind fun _ => ?_
  exact (Warned.failsWith_lift (peak_answers hg hproductionPeak hproductionPeakPrice _)).bind fun _ =>
    Warned.failsWith_pure _

end SiteContext

/-! ## Processes, fixed devices and stated commitments -/

/-- The failure can be told. -/
def Failure.Told (f : Failure α) : Prop := f ≠ .invalid .unrepresentable

omit [Scalar α] in
theorem Checked.Answers.told {x : Checked α β} (h : Checked.Answers x) :
    Checked.FailsWith Failure.Told (x.mapError Failure.invalid) :=
  Checked.FailsWith.mapError h fun _ he heq => he (Failure.invalid.inj heq)

theorem ProcessModel.device_told {m : ProcessModel α} {g : Grid} (hg : g.Representable)
    (hwindows : ∀ w ∈ m.timeRestrictions, CalendarHas (w.Adds α g.zone)) (name : String)
    (prices : List α) : Checked.FailsWith Failure.Told (m.device g name prices) := by
  unfold ProcessModel.device
  refine (m.power.resolve_answers _ _ _).told.bind fun power => ?_
  refine (Checked.Answers.inField (Duration.ofText_answers m.duration) _).told.bind fun duration => ?_
  refine (TimeWindow.mask_answers hg hwindows).told.bind fun restricted => ?_
  extract_lets p
  cases p.place prices with
  | ok power => exact Checked.failsWith_ok _
  | error cause => exact Checked.failsWith_error nofun

theorem FixedDevice.device_answers {d : FixedDevice α} {g : Grid} (hg : g.Representable)
    (h : InCalendar g d.fields) : Checked.Answers (d.device g) :=
  (Series.required_answers hg (InCalendar.series h).pieces).bind fun _ => Checked.failsWith_ok _

namespace StatedCommitment
variable {c : StatedCommitment α} {g : Grid}

theorem prices_answers (hg : g.Representable) {name : String} {s : Series α} {admits : List Dimension}
    {reading : Reading} (h : InCalendar g (seriesField name (some s) admits reading)) (field : String)
    (kind : CommitmentKind) : Checked.Answers (prices g s field kind) :=
  s.dimension_answers.bind fun _ => (Series.valuesOr_answers hg h.series.pieces 0).bind fun _ =>
    .ite (Checked.failsWith_ok _) (Checked.failsWith_ok _)

theorem commitment_answers (hg : g.Representable) (h : InCalendar g c.fields) :
    Checked.Answers (c.commitment g) := by
  simp only [fields, inCalendar_append, and_assoc] at h
  obtain ⟨hbaseline, hup, hdown⟩ := h
  unfold commitment
  extract_lets field rest
  have hrest : ∀ quantity, Checked.Answers (rest quantity) := by
    intro quantity
    refine Checked.FailsWith.bind (prices_answers hg hup _ _) fun up => ?_
    exact Checked.FailsWith.bind (prices_answers hg hdown _ _) fun down => Checked.failsWith_ok _
  cases hkind : c.kind with
  | flow =>
    rw [hkind] at hbaseline
    exact (Series.flowValues_answers hg hbaseline.series.pieces).bind hrest
  | stock =>
    rw [hkind] at hbaseline
    exact (Series.stateValues_answers hg hbaseline.series.pieces (hbaseline.series.shifted rfl)).bind hrest

end StatedCommitment

/-! ## Checks -/

namespace Problem

theorem checkDevices_answers (len : ℕ) (seen : List String) (devices : List (Device α)) :
    Checked.Answers (checkDevices len seen devices) := by
  induction devices generalizing seen with
  | nil => exact Checked.failsWith_ok ()
  | cons d rest ih =>
    refine .ite (Checked.failsWith_error nofun) ?_
    exact (Checked.answers_mapError nofun).bind fun _ => ih _

theorem check_answers (p : Problem α) : Checked.Answers p.check := by
  refine .ite (Checked.failsWith_error nofun) (.ite (Checked.failsWith_error nofun) ?_)
  refine (checkDevices_answers _ _ _).bind fun _ => ?_
  refine (Checked.answers_mapError nofun).bind fun _ => Checked.FailsWith.forM (fun c => ?_) _
  refine (Checked.answers_mapError nofun).bind fun _ => ?_
  unfold checkReference
  split
  · exact Checked.failsWith_ok ()
  · split
    · exact Checked.failsWith_error nofun
    · exact .ite (Checked.failsWith_error nofun) (Checked.failsWith_ok ())

end Problem

end Dispatch
