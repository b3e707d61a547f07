import Dispatch.Proofs.Plan.Backing
import Dispatch.Proofs.Plan.Rounding
import Dispatch.Proofs.Run.Gate

/-! # What schedules report

* `outcome_eq_ok`: which schedule an answer in time becomes.
* `reported_level_near_replay`: the levels that are reported follow the flows that are reported, as far
  as the levels of the answer do.
* `reported_cost_backed`: the costs that are reported cover what the plan deviates from its commitments,
  where the deviations of the answer are proper pairs.

No check compares the levels of the answer with its flows, and none looks at the signs and selectors of
its deviations; the battery of one hour has answers that pass all the same.
-/

namespace Dispatch
set_option autoImplicit false

open Exact Scalar

/-! ## Schedules of answers -/

/-- The schedule that an answer becomes if it passes. -/
noncomputable def Model.told (m : Model Exact) (p : Problem Exact) (t : ℝ) (a : Answer)
    (o : Objective Exact) (version : String) : Schedule Exact :=
  Schedule.told p (m.handles.told p t a)
    ((p.devices.zip m.handles.devices).map fun x => (toldBoth p t a x).2)
    (o.evaluate m.handles fun i => (a.values i).getD 0) version

section
variable {σ : Type} {settings : SolveSettings Exact} {t : ℝ} {solver : Solver Exact σ}
  {p : Problem Exact} {world : World σ} {state : Option RunState} {a : Answer} {m : Model Exact}

/-- An answer in time becomes its schedule just when it passes, on a grid that is representable. -/
theorem outcome_eq_ok (htolerance : settings.tolerance = num t)
    (hm : p.model settings.margin = .ok m)
    (hback : HandsBack settings solver world
      (m.program (Objective.compose p m.handles settings.tieBreak)) a.values)
    {s : Schedule Exact} :
    outcome settings solver p state world = .ok s ↔
      (a.Passes p m.handles t ∧ p.grid.Representable) ∧
        s = m.told p t a (Objective.compose p m.handles settings.tieBreak) ("milp/" ++ solver.name) := by
  obtain ⟨hp, hb⟩ := Problem.sound_of_model hm
  rw [outcome_of_ok hm, outcomeOf_of_handsBack hback, htolerance]
  exact hb.readAnswer_eq_ok hp

theorem outcome_refused (htolerance : settings.tolerance = num t)
    (hm : p.model settings.margin = .ok m)
    (hback : HandsBack settings solver world
      (m.program (Objective.compose p m.handles settings.tieBreak)) a.values)
    (hgrid : p.grid.Representable) (hfails : ¬a.Passes p m.handles t) :
    ∃ e, outcome settings solver p state world = .error e ∧ e.IsRefusal := by
  obtain ⟨hp, -⟩ := Problem.sound_of_model hm
  cases hs : outcome settings solver p state world with
  | ok s => exact absurd ((outcome_eq_ok htolerance hm hback).mp hs).1.1 hfails
  | error e =>
    rw [outcome_of_ok hm, outcomeOf_of_handsBack hback] at hs
    exact ⟨e, rfl, Model.Built.readAnswer_fails hp hgrid _ _ _ e hs⟩

end

namespace Model.Built
variable {p : Problem Exact} {margin t : ℝ} {m : Model Exact} {a : Answer} {o : Objective Exact}
  {version : String}

theorem told_device (hb : m.Built p (num margin)) {i : ℕ} {d : Device Exact}
    (hd : p.devices[i]? = some d) :
    (m.told p t a o version).devices[i]? = some (Schedule.toldDevice p.grid d
      (toldDevice p t a (m.handles.devices.getD i .empty))) := by
  have hi : i < m.handles.devices.length :=
    hb.devices.length_eq ▸ (List.getElem?_eq_some_iff.mp hd).1
  have hpair : (p.devices.zip m.handles.devices)[i]? = some (d, m.handles.devices.getD i .empty) := by
    rw [List.getElem?_zip_eq_some, List.getD_eq_getElem _ _ hi]
    exact ⟨hd, List.getElem?_eq_getElem hi⟩
  rw [Model.told, Schedule.told, List.getElem?_map, hpair, Option.map_some]
  rfl

/-- The levels that are reported are those of the answer. -/
theorem told_stock (hb : m.Built p (num margin)) {i : ℕ} {d : Device Exact} {s : Stock Exact}
    (hd : p.devices[i]? = some d) (hs : d.stock = some s) :
    ∃ levels, (toldDevice p t a (m.handles.devices.getD i .empty)).stock = some levels ∧
      levels.length = p.len ∧
      ∀ j < p.len, valueAt levels j = num (cleaned t (m.handles.level a.filled i j)) := by
  have hshape := hb.shape hd
  obtain ⟨columns, hcolumns⟩ := Option.isSome_iff_exists.mp (hshape.stock.trans (by rw [hs]; rfl))
  have hlen := hshape.stock_length columns hcolumns
  refine ⟨_, by rw [toldDevice, hcolumns, Option.map_some], by rw [List.length_map, hlen],
    fun j hj => ?_⟩
  have hlt : j < columns.length := hlen.symm ▸ hj
  rw [valueAt, List.getD_eq_getElem _ _ (by rwa [List.length_map]), List.getElem_map, Handles.level,
    DeviceColumns.levelAt, hcolumns, Option.getD_some, List.getD_eq_getElem _ _ hlt]

/-- The cost that is reported of a commitment. -/
theorem told_cost (hb : m.Built p (num margin)) (hp : p.Sound) {k : ℕ} {c : Commitment Exact}
    {columns : CommitmentColumns Exact} (hk : p.commitments[k]? = some c)
    (hcolumns : m.handles.commitments[k]? = some columns) :
    ∃ cost, (m.told p t a o version).costs.commitments[k]? = some cost ∧ cost.name = c.name ∧
      cost.cost = num (columns.groups.map fun g =>
        g.upPrice.toReal * a.filled g.up + g.downPrice.toReal * a.filled g.down).sum := by
  have hmem : (c, columns) ∈ p.commitments.zip m.handles.commitments :=
    List.mem_of_getElem? (List.getElem?_zip_eq_some.mpr ⟨hk, hcolumns⟩)
  refine ⟨Handles.commitmentCost (fun i => (a.values i).getD 0) columns, ?_, ?_, ?_⟩
  · rw [Model.told, Schedule.told, Objective.evaluate, List.getElem?_map, hcolumns, Option.map_some]
  · exact (hb.commitment_shape hmem).name
  · rw [← sum_map_num]
    refine congrArg Scalar.sum (List.map_congr_left fun g hg => ?_)
    obtain ⟨hup, hdown⟩ := hb.prices_eq hp hmem hg
    simp only [getD_values]
    rw [hup, hdown, num_mul, num_mul, num_add, toReal_num, toReal_num]

end Model.Built

/-! ## Answers for the battery -/

/-- The answer that lists the values of the columns. -/
def Answer.ofList (values : List ℝ) : Answer := fun i => values[i]?

/-- A solver that at once hands back an answer. -/
def answering (a : Answer) : Solver Exact Unit :=
  ⟨"answering", fun _ _ => pure ⟨.zero, some (.ok a.values)⟩⟩

theorem answering_handsBack {settings : SolveSettings Exact} (a : Answer) (program : Program Exact)
    (hpatience : Span.zero ≤ settings.budget + settings.grace)
    (hclock : settings.budget + settings.grace < Watch.clockEnd) :
    HandsBack settings (answering a) (.ofSlots .unlimited ()) program a.values :=
  handsBack_at_once hpatience hclock rfl

namespace Problem

noncomputable def importReward : Commitment Exact :=
  .siteFlow "import" [some (num 0)] [num 0] [num (-1)] .each

noncomputable def importColumns : GroupColumns Exact := ⟨[0], 4, 5, num 0, num (-1), some 6⟩

/-- The columns of the battery, in the order in which they are built. -/
noncomputable def batteryHandles : Handles Exact :=
  ⟨[⟨[0], [1], [some 2], some [3]⟩], [⟨"import", [importColumns]⟩], [0]⟩

theorem oneBattery_handles {margin : Exact} {m : Model Exact}
    (hm : oneBattery.model margin = .ok m) : m.handles = batteryHandles := by
  obtain ⟨-, -, rfl⟩ := model_eq_ok.mp hm
  have hslots : oneBattery.grid.slots = [0] := rfl
  have hdevices : oneBattery.devices = [battery] := rfl
  have hstock : battery.stock = some batteryStock := rfl
  have hboth : battery.isBidirectional 0 = true := by
    simp [Device.isBidirectional, battery, valueAt, zero_eq]
  have hlow : gt (valueAt battery.powerMin 0) 0 = false := by simp [battery, valueAt, zero_eq]
  have hhigh : Scalar.lt (valueAt battery.powerMax 0) 0 = false := by
    simp [battery, valueAt, zero_eq]
  have hmembers : oneBattery.siteMembers = [0] := rfl
  have hmin : Scalar.isFinite (valueAt oneBattery.site.min 0) = false := rfl
  have hmax : Scalar.isFinite (valueAt oneBattery.site.max 0) = true := rfl
  have hcommitments : oneBattery.commitments = [importReward] := rfl
  have hgrouping : importReward.grouping = .each := rfl
  have hgroups : importReward.groups = [⟨[0], num 0, num (-1)⟩] := rfl
  have hselector : (⟨[0], num 0, num (-1)⟩ : DeviationGroup Exact).needsSelector = true := by
    simp [DeviationGroup.needsSelector, zero_eq]
  simp [buildHandles, buildDevice, buildSlot, buildSite, buildCommitment, buildGroup, buildLink, hslots,
    hdevices, hstock, hboth, hlow, hhigh, hmembers, hmin, hmax, hcommitments, hgrouping, hgroups,
    hselector, Build.column, Build.binary, Build.row, Build.rowWhen, Draft.empty, modify, modifyGet,
    MonadStateOf.modifyGet, StateT.modifyGet, pure, bind, StateT.run, StateT.bind]
  rfl

/-- The battery stands still, at whatever level, and both deviations are the same. -/
def standstill (level both : ℝ) : Answer := .ofList [0, 0, 0, level, both, both, 0]

theorem standstill_power (t level both : ℝ) :
    batteryHandles.power t (standstill level both) 0 = fun _ => 0 := by
  funext j
  have hflow : (batteryHandles.devices.getD 0 .empty).flowAt (standstill level both).filled j = 0 := by
    cases j with
    | zero => exact add_zero 0
    | succ j => exact add_zero 0
  show cleaned t _ = 0
  rw [hflow, cleaned, ite_self]

theorem standstill_sitePower (t level both : ℝ) (j : ℕ) :
    batteryHandles.sitePower oneBattery t (standstill level both) j = 0 := by
  have hsum : oneBattery.siteFlow (batteryHandles.power t (standstill level both)) j = 0 := by
    show batteryHandles.power t (standstill level both) 0 j + 0 = 0
    rw [standstill_power, add_zero]
  rw [Handles.sitePower, hsum, cleaned, ite_self]

theorem standstill_measured (t level both : ℝ) :
    batteryHandles.measured oneBattery t (standstill level both) importReward = fun _ => 0 :=
  funext (standstill_sitePower t level both)

theorem standstill_devicePasses {t : ℝ} (ht : 0 < t) (level both : ℝ) :
    DevicePasses oneBattery t battery ⟨[0], [1], [some 2], some [3]⟩ (standstill level both) := by
  have hp := sound_of_check oneBattery_check
  have hroom : 0 ≤ battery.flowRoom t :=
    mul_nonneg ht.le (by linarith [(hp.device_of_get (i := 0) rfl).bound_nonneg])
  have hpower : (⟨[0], [1], [some 2], some [3]⟩ : DeviceColumns).powerAt t (standstill level both) =
      fun _ => 0 := standstill_power t level both
  refine ⟨fun j hj => ?_, fun levels hlevels k hk => ?_, fun s hs j hj => ?_⟩
  · obtain rfl : j = 0 := Nat.lt_one_iff.mp hj
    refine ⟨rfl, rfl, neg_nonpos.mpr hroom, hroom, ?_, ?_, ?_⟩
    · show min (0 : ℝ) (-0) ≤ _
      rwa [neg_zero, min_self]
    · rw [hpower]
      show (-1 : ℝ) - _ ≤ 0
      linarith
    · rw [hpower]
      show (0 : ℝ) ≤ 1 + _
      linarith
  · obtain rfl := Option.some.inj hlevels
    rw [List.mem_singleton.mp hk]
    rfl
  · obtain rfl : j = 0 := Nat.lt_one_iff.mp hj
    obtain rfl := Option.some.inj hs
    have hroom' : 0 ≤ battery.levelRoom t oneBattery.realHours oneBattery.len :=
      le_max_of_le_right (by positivity)
    rw [hpower, hp.valueAt_replay (i := 0) (d := battery) rfl rfl _ hj, toReal_num,
      batteryStock_path_idle]
    refine ⟨?_, Bool.false_ne_true, fun e he => nomatch he⟩
    show ¬num (1 - 1) < num (-1) - num _
    rw [num_sub, num_lt_num]
    linarith

/-- However high the level and the deviations are said to be, the answer passes. -/
theorem standstill_passes {t : ℝ} (ht : 0 < t) (level : ℝ) {both : ℝ} (hboth : 0 ≤ both) :
    (standstill level both).Passes oneBattery batteryHandles t := by
  refine ⟨fun i d hd => ?_, fun _ j hj => ?_, fun c columns hmem g hg j hj => ?_⟩
  · obtain rfl : i = 0 := Nat.lt_one_iff.mp (List.getElem?_eq_some_iff.mp hd).1
    obtain rfl : d = battery := List.mem_singleton.mp (List.mem_of_getElem? hd)
    exact standstill_devicePasses ht level both
  · obtain rfl : j = 0 := Nat.lt_one_iff.mp hj
    have hroom := (sound_of_check oneBattery_check).siteRoom_nonneg ht.le
    rw [standstill_sitePower]
    refine ⟨negInf_le_num 0, ?_⟩
    show num 0 ≤ num 1 + num _
    rw [num_add, num_le_num]
    linarith
  · obtain ⟨rfl, rfl⟩ : c = importReward ∧ columns = ⟨"import", [importColumns]⟩ :=
      Prod.mk.inj (List.mem_singleton.mp hmem)
    obtain rfl := List.mem_singleton.mp hg
    obtain rfl := List.mem_singleton.mp hj
    rw [standstill_measured]
    show |(0 : ℝ) - 0 - both + both| ≤ linkRoom t 0 0 both both
    rw [linkRoom]
    have : |(0 : ℝ) - 0 - both + both| = 0 := by simp
    rw [this]
    positivity

/-- All these answers are scheduled. -/
theorem standstill_scheduled (level : ℝ) {both : ℝ} (hboth : 0 ≤ both) :
    ∃ m, oneBattery.model (SolveSettings.standard : SolveSettings Exact).margin = .ok m ∧
      HandsBack .standard (answering (standstill level both)) (.ofSlots .unlimited ())
        (m.program (Objective.compose oneBattery m.handles TieBreak.standard))
        (standstill level both).values ∧
      outcome .standard (answering (standstill level both)) oneBattery none (.ofSlots .unlimited ()) =
        .ok (m.told oneBattery (1 / 10 ^ 6) (standstill level both)
          (Objective.compose oneBattery m.handles TieBreak.standard) "milp/answering") := by
  obtain ⟨m, hm, -⟩ := exists_built oneBattery_check (show (0 : ℝ) ≤ 1 / 10 ^ 1 by norm_num)
  rw [← standard_margin] at hm
  have hback : HandsBack .standard (answering (standstill level both)) (.ofSlots .unlimited ())
      (m.program (Objective.compose oneBattery m.handles TieBreak.standard))
      (standstill level both).values := answering_handsBack _ _ (by decide) (by decide)
  refine ⟨m, hm, hback, (outcome_eq_ok standard_tolerance hm hback).mpr ⟨⟨?_, by decide⟩, rfl⟩⟩
  rw [oneBattery_handles hm]
  exact standstill_passes (by norm_num) level hboth

end Problem

/-! ## Levels -/

/-- A reported level is off the replay of the reported flows by the tolerance and by what the levels of
the answer miss the recurrence; so where they miss it by no more than the room of the check, the levels
and the flows tell the same. -/
theorem reported_level_near_replay {σ : Type} {settings : SolveSettings Exact} {t : ℝ} (ht : 0 < t)
    (htolerance : settings.tolerance = num t) {solver : Solver Exact σ} {p : Problem Exact}
    {world : World σ} {state : Option RunState} {a : Answer} {m : Model Exact}
    (hm : p.model settings.margin = .ok m)
    (hback : HandsBack settings solver world
      (m.program (Objective.compose p m.handles settings.tieBreak)) a.values)
    {s : Schedule Exact} (hs : outcome settings solver p state world = .ok s) {i : ℕ}
    {d : Device Exact} (hd : p.devices[i]? = some d) {stock : Stock Exact}
    (hstock : d.stock = some stock) :
    ∃ own levels, s.devices[i]? = some own ∧ own.stock = some levels ∧ levels.length = p.len ∧
      ∀ j < p.len, ∃ x y : ℝ, valueAt levels j = num x ∧
        valueAt (stock.replay own.powers p.hours) j = num y ∧
        let missed := stock.imbalance p.realHours (m.handles.power t a i) (m.handles.level a.filled i)
          (j + 1)
        |x - y| ≤ t + missed ∧
          (missed ≤ d.levelRoom t p.realHours p.len → |x - y| ≤ t + d.levelRoom t p.realHours p.len) := by
  obtain ⟨hp, hb⟩ := Problem.sound_of_model hm
  obtain ⟨-, rfl⟩ := (outcome_eq_ok htolerance hm hback).mp hs
  obtain ⟨levels, hlevels, hlen, hvalue⟩ := hb.told_stock (a := a) (t := t) hd hstock
  refine ⟨_, levels, hb.told_device hd, hlevels, hlen, fun j hj => ?_⟩
  set flow := m.handles.power t a i with hflow
  have hpowers : (Schedule.toldDevice p.grid d
      (toldDevice p t a (m.handles.devices.getD i .empty))).powers = p.series flow :=
    Schedule.toldDevice_powers d (by simp [toldDevice, Problem.series])
  refine ⟨_, stock.path p.realHours flow (j + 1), hvalue j hj, ?_, ?_⟩
  · rw [hpowers, hp.valueAt_replay hd hstock flow hj]
  · intro missed
    have hclose : |cleaned t (m.handles.level a.filled i j) - stock.path p.realHours flow (j + 1)| ≤
        t + missed := by
      refine (abs_sub_le _ (m.handles.level a.filled i j) _).trans (add_le_add ?_ ?_)
      · rw [abs_sub_comm]
        exact (abs_sub_cleaned_le ht.le le_rfl).trans (min_le_left _ _)
      · exact ((hp.device_of_get hd).stock stock hstock).abs_before_sub_path_le p.realHours flow
          (m.handles.level a.filled i) hj
    exact ⟨hclose, fun hmissed => hclose.trans (add_le_add le_rfl hmissed)⟩

namespace Problem

theorem oneBattery_realHours : oneBattery.realHours = 1 := by
  show ((oneHour.resolution.wholeSeconds : ℤ) : ℝ) / 3600 = 1
  rw [show oneHour.resolution.wholeSeconds = 3600 by decide]
  norm_num

theorem battery_levelRoom :
    battery.levelRoom (1 / 10 ^ 6) oneBattery.realHours oneBattery.len = 3 / 10 ^ 6 := by
  have hsound := (sound_of_check oneBattery_check).device_of_get (i := 0) rfl
  have hreach : battery.reach batteryStock 1 1 = 2 := by
    show |(1 : ℝ)| + max (max (1 : ℝ) 0 * (1 / (2 : ℕ))) (max (-(-1 : ℝ)) 0 / 1) * 1 + |0| = 2
    norm_num
  rw [Device.levelRoom, oneBattery_realHours, hsound.stockBound_eq rfl]
  show max (1 / 10 ^ 6 * (1 + battery.reach batteryStock 1 1) * ((1 : ℕ) : ℝ))
    ((1 : ℝ) / ((10 : ℕ) : ℝ) ^ 6) = _
  rw [hreach]
  norm_num

theorem standstill_imbalance (t hours level both : ℝ) :
    batteryStock.imbalance hours (batteryHandles.power t (standstill level both) 0)
      (batteryHandles.level (standstill level both).filled 0) 1 = |level - 1| := by
  rw [standstill_power, Stock.imbalance_succ]
  show (0 : ℝ) + |level - batteryStock.path hours (fun _ => 0) 1| = _
  rw [batteryStock_path_idle, zero_add]

/-- With the level where it is, the battery reports what the flows lead to. -/
theorem standstill_level_replayed : ∃ s own levels,
    outcome .standard (answering (standstill 1 0)) oneBattery none (.ofSlots .unlimited ()) = .ok s ∧
    s.devices[0]? = some own ∧ own.stock = some levels ∧
    ∃ x y : ℝ, valueAt levels 0 = num x ∧
      valueAt (batteryStock.replay own.powers oneBattery.hours) 0 = num y ∧
      |x - y| ≤ 1 / 10 ^ 6 + 3 / 10 ^ 6 := by
  obtain ⟨m, hm, hback, hs⟩ := standstill_scheduled 1 le_rfl
  have hstock : battery.stock = some batteryStock := rfl
  obtain ⟨own, levels, hown, hlevels, -, hclose⟩ := reported_level_near_replay (by norm_num)
    standard_tolerance hm hback hs (i := 0) (d := battery) rfl hstock
  obtain ⟨x, y, hx, hy, -, hsame⟩ := hclose 0 Nat.one_pos
  refine ⟨_, own, levels, hs, hown, hlevels, x, y, hx, hy, ?_⟩
  rw [battery_levelRoom, oneBattery_handles hm, standstill_imbalance] at hsame
  exact hsame (by norm_num)

/-- The level may be said to be anything: four kWh more than the flows lead to are reported. -/
theorem standstill_level_made_up : ∃ s own,
    outcome .standard (answering (standstill 5 0)) oneBattery none (.ofSlots .unlimited ()) = .ok s ∧
    s.devices[0]? = some own ∧ own.stock = some [num 5] ∧
    batteryStock.replay own.powers oneBattery.hours = [num 1] ∧
    1 / 10 ^ 6 + battery.levelRoom (1 / 10 ^ 6) oneBattery.realHours oneBattery.len <
      |(5 : ℝ) - 1| := by
  obtain ⟨m, hm, -, hs⟩ := standstill_scheduled 5 le_rfl
  obtain ⟨hp, hb⟩ := sound_of_model hm
  have hown : (m.told oneBattery (1 / 10 ^ 6) (standstill 5 0)
      (Objective.compose oneBattery m.handles TieBreak.standard) "milp/answering").devices[0]? = _ :=
    hb.told_device (i := 0) (d := battery) rfl
  rw [oneBattery_handles hm] at hown
  refine ⟨_, _, hs, hown, ?_, ?_, ?_⟩
  · have hkept : ¬|(5 : ℝ)| < 1 / 10 ^ 6 := by norm_num
    show some [num (cleaned (1 / 10 ^ 6) 5)] = some [num 5]
    rw [cleaned, if_neg hkept]
  · have hpowers : (Schedule.toldDevice oneBattery.grid battery (toldDevice oneBattery (1 / 10 ^ 6)
        (standstill 5 0) (batteryHandles.devices.getD 0 .empty))).powers =
          oneBattery.series fun _ => 0 := by
      rw [Schedule.toldDevice_powers battery rfl, ← standstill_power (1 / 10 ^ 6) 5 0]
      rfl
    have hstock := (hp.device_of_get (i := 0) (d := battery) rfl).stock batteryStock rfl
    rw [hpowers, hours_eq]
    refine (Stock.replay_eq hstock oneBattery.realHours fun _ => 0).trans ?_
    show [num (batteryStock.path oneBattery.realHours (fun _ => 0) 1)] = [num 1]
    rw [batteryStock_path_idle]
  · rw [battery_levelRoom]
    norm_num

end Problem

/-! ## Costs -/

/-- A schedule reports the cost of every commitment by its name. Where its deviations are pairs up to
the tolerance, the cost covers what the reported plan deviates from the commitment, up to the room of
the links. -/
theorem reported_cost_backed {σ : Type} {settings : SolveSettings Exact} {t : ℝ} (ht : 0 < t)
    (htolerance : settings.tolerance = num t) {solver : Solver Exact σ} {p : Problem Exact}
    {world : World σ} {state : Option RunState} {a : Answer} {m : Model Exact}
    (hm : p.model settings.margin = .ok m)
    (hback : HandsBack settings solver world
      (m.program (Objective.compose p m.handles settings.tieBreak)) a.values)
    {s : Schedule Exact} (hs : outcome settings solver p state world = .ok s) {k : ℕ}
    {c : Commitment Exact} (hc : p.commitments[k]? = some c) :
    s.Reports p (m.handles.power t a) (m.handles.sitePower p t a) ∧
      ∃ columns cost x, m.handles.commitments[k]? = some columns ∧
        s.costs.commitments[k]? = some cost ∧ cost.name = c.name ∧ cost.cost = num x ∧
        ((∀ g ∈ columns.groups, a.Pairs t g) →
          c.costOf (m.handles.measured p t a c) -
            (columns.groups.map fun g => g.costRoom t a (m.handles.measured p t a c) c.level).sum ≤
              x) := by
  obtain ⟨hp, hb⟩ := Problem.sound_of_model hm
  obtain ⟨⟨hpass, -⟩, rfl⟩ := (outcome_eq_ok htolerance hm hback).mp hs
  obtain ⟨hk, -⟩ := List.getElem?_eq_some_iff.mp hc
  obtain ⟨columns, hcolumns⟩ : ∃ columns, m.handles.commitments[k]? = some columns :=
    ⟨_, List.getElem?_eq_getElem (hb.commitments.length_eq ▸ hk)⟩
  obtain ⟨cost, hcost, hname, hvalue⟩ := hb.told_cost hp hc hcolumns
  refine ⟨hb.told_reports _ _, columns, cost, _, hcolumns, hcost, hname, hvalue, fun hpairs => ?_⟩
  have hmem : (c, columns) ∈ p.commitments.zip m.handles.commitments :=
    List.mem_of_getElem? (List.getElem?_zip_eq_some.mpr ⟨hc, hcolumns⟩)
  have hsound := hp.commitment c (List.mem_of_getElem? hc)
  have hshape := (hb.commitment_shape hmem).groups
  rw [sub_le_iff_le_add, ← hsound.sum_groups, ← List.sum_map_add]
  refine sum_map_zip_le hshape.length_eq fun group g hzip => ?_
  have hg := (List.of_mem_zip hzip).2
  have hle := cost_le_of_linkPasses ht.le hsound (List.of_mem_zip hzip).1
    ((List.forall₂_iff_zip.mp hshape).2 hzip) (hpairs g hg) (hpass.link c columns hmem g hg)
  linarith

namespace Problem

/-- A battery that stands still deviates by nothing. -/
theorem importReward_costOf : importReward.costOf (fun _ => 0) = 0 := by
  show (0 : ℝ) * max (0 - 0) 0 + -1 * max (0 - 0) 0 + 0 = 0
  norm_num

theorem importColumns_costRoom (level : ℝ) {both : ℝ} (hboth : 0 ≤ both) :
    importColumns.costRoom (1 / 10 ^ 6) (standstill level both) (fun _ => 0) importReward.level =
      (11 + 20 * both) / 10 ^ 6 := by
  have hroom : linkRoom (1 / 10 ^ 6) 0 0 both both = (10 + 20 * both) / 10 ^ 6 := by
    rw [linkRoom, abs_zero]
    ring
  show (|(0 : ℝ)| + |(-1 : ℝ)|) * (1 / 10 ^ 6 + peak [linkRoom (1 / 10 ^ 6) 0 0 both both]) = _
  rw [peak_singleton, hroom, max_eq_left (by positivity), abs_zero, abs_neg, abs_one]
  ring

/-- Without deviations, no cost is made up. -/
theorem standstill_cost_backed : ∃ s cost x,
    outcome .standard (answering (standstill 1 0)) oneBattery none (.ofSlots .unlimited ()) = .ok s ∧
    s.costs.commitments[0]? = some cost ∧ cost.name = "import" ∧ cost.cost = num x ∧
    -(11 / 10 ^ 6) ≤ x := by
  obtain ⟨m, hm, hback, hs⟩ := standstill_scheduled 1 le_rfl
  obtain ⟨-, columns, cost, x, hcolumns, hcost, hname, hx, hbacked⟩ := reported_cost_backed
    (by norm_num) standard_tolerance hm hback hs (k := 0) (c := importReward) rfl
  rw [oneBattery_handles hm] at hcolumns hbacked
  obtain rfl : ⟨"import", [importColumns]⟩ = columns := Option.some.inj hcolumns
  refine ⟨_, cost, x, hs, hcost, hname, hx, ?_⟩
  have hle := hbacked fun g hg => by
    obtain rfl := List.mem_singleton.mp hg
    refine ⟨?_, ?_, fun _ => .inl ?_⟩
    · show -(1 / 10 ^ 6) ≤ (0 : ℝ)
      norm_num
    · show -(1 / 10 ^ 6) ≤ (0 : ℝ)
      norm_num
    · show (0 : ℝ) ≤ 1 / 10 ^ 6
      norm_num
  rw [standstill_measured, importReward_costOf, List.map_singleton, List.sum_singleton,
    importColumns_costRoom 1 le_rfl] at hle
  linarith

/-- Both deviations may be said to be anything: a profit of 100 is reported where nothing deviates. -/
theorem standstill_profit_made_up : ∃ s cost,
    outcome .standard (answering (standstill 1 100)) oneBattery none (.ofSlots .unlimited ()) = .ok s ∧
    s.sitePowers = [num 0] ∧ s.costs.commitments[0]? = some cost ∧ cost.name = "import" ∧
    cost.cost = num (-100) ∧ -100 < importReward.costOf (fun _ => 0) -
      importColumns.costRoom (1 / 10 ^ 6) (standstill 1 100) (fun _ => 0) importReward.level := by
  obtain ⟨m, hm, -, hs⟩ := standstill_scheduled 1 (show (0 : ℝ) ≤ 100 by norm_num)
  obtain ⟨hp, hb⟩ := sound_of_model hm
  have hcolumns : m.handles.commitments[0]? = some ⟨"import", [importColumns]⟩ := by
    rw [oneBattery_handles hm]
    rfl
  obtain ⟨cost, hcost, hname, hx⟩ := hb.told_cost hp (k := 0) (c := importReward) rfl hcolumns
  refine ⟨_, cost, hs, ?_, hcost, hname, ?_, ?_⟩
  · show [num (m.handles.sitePower oneBattery (1 / 10 ^ 6) (standstill 1 100) 0)] = [num 0]
    rw [oneBattery_handles hm, standstill_sitePower]
  · rw [hx]
    show num ((0 : ℝ) * 100 + -1 * 100 + 0) = num (-100)
    norm_num
  · rw [importReward_costOf, importColumns_costRoom 1 (by norm_num)]
    norm_num

end Problem

end Dispatch
