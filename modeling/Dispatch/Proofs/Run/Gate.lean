import Dispatch.Proofs.Program.Exactness
import Dispatch.Proofs.Plan.Reading
import Dispatch.Proofs.Run.ReadBack

/-! # Which answers become schedules

* `Schedule.Reports`: a schedule tells these powers.
* `schedule_iff_passes`: an answer in time becomes a schedule just when it passes every check, on a
  grid whose boundaries are all in the calendar.

The answer is any real numbers for any of the columns; nothing is taken from the solver but them.
-/

namespace Dispatch
set_option autoImplicit false

open Exact Scalar

/-! ## What is reported -/

structure Schedule.Reports (s : Schedule Exact) (p : Problem Exact) (power : ℕ → ℕ → ℝ)
    (sitePower : ℕ → ℝ) : Prop where
  device : ∀ i d, p.devices[i]? = some d →
    ∃ own, s.devices[i]? = some own ∧ own.device = d.id ∧ own.powers = p.series (power i)
  site : s.sitePowers = p.series sitePower

/-! ## What becomes of the answer for a device -/

/-- The run failed because the answer is incomplete or fails a check. -/
def Failure.IsRefusal {α : Type} (f : Failure α) : Prop :=
  ∃ e : SolveFault α, e.IsRefusal ∧ f = .solver e

theorem SolveFault.IsRefusal.failure {α : Type} {e : SolveFault α} (h : e.IsRefusal) :
    (Failure.ofSolve e).IsRefusal := by
  refine ⟨e, h, ?_⟩
  rcases h with rfl | ⟨cause, rfl⟩
  · rfl
  · rfl

theorem Failure.IsRefusal.retryable {α : Type} {f : Failure α} (h : f.IsRefusal) :
    f.retryable = true := by
  obtain ⟨e, he, rfl⟩ := h
  rcases he with rfl | ⟨cause, rfl⟩
  · rfl
  · rfl

theorem Failure.IsRefusal.endState? {α : Type} {f : Failure α} (h : f.IsRefusal) :
    endState? (.error f) = some .solverError := by
  obtain ⟨e, -, rfl⟩ := h
  rfl

section
variable {p : Problem Exact} {t : ℝ} {a : Answer}

/-- What a device does, and how it is told. -/
noncomputable def toldBoth (p : Problem Exact) (t : ℝ) (a : Answer)
    (x : Device Exact × DeviceColumns) : DevicePlan Exact × DeviceSchedule Exact :=
  (toldDevice p t a x.2, Schedule.toldDevice p.grid x.1 (toldDevice p t a x.2))

theorem tellDevice_eq_ok {d : Device Exact} (h : d.Sound p.len) (hlen : 0 < p.len) {c : DeviceColumns}
    (hshape : DeviceShape p d c) {x : DevicePlan Exact × DeviceSchedule Exact} :
    tellDevice p (num t) a.values d c = .ok x ↔
      (DevicePasses p t d c a ∧ p.grid.Representable) ∧
        x = toldBoth p t a (d, c) := by
  rw [tellDevice_eq_ok_iff hlen, readDevice_eq_ok h hshape]
  constructor
  · rintro ⟨⟨hpass, hplan⟩, hgrid, htold⟩
    rw [hplan] at htold
    exact ⟨⟨hpass, hgrid⟩, Prod.ext hplan htold⟩
  · rintro ⟨⟨hpass, hgrid⟩, rfl⟩
    exact ⟨⟨hpass, rfl⟩, hgrid, rfl⟩

/-- On a grid of which every boundary is in the calendar, devices are told or refused. -/
theorem tellDevice_fails (hlen : 0 < p.len) (hgrid : p.grid.Representable) (tolerance : Exact)
    (values : Assignment Exact) (x : Device Exact × DeviceColumns) :
    Checked.FailsWith Failure.IsRefusal (tellDevice p tolerance values x.1 x.2) := by
  refine ((Plan.readDevice_fails p tolerance values x.1 x.2).mapError fun e he =>
    he.failure).bind fun plan => ?_
  rw [(Schedule.device_eq_ok hlen).mpr ⟨hgrid, rfl⟩]
  exact Checked.failsWith_ok _

theorem tellDevice_of_not_representable {d : Device Exact} (h : d.Sound p.len) (hlen : 0 < p.len)
    {c : DeviceColumns} (hshape : DeviceShape p d c) (hpass : DevicePasses p t d c a)
    (hgrid : ¬p.grid.Representable) :
    tellDevice p (num t) a.values d c = .error (.invalid .unrepresentable) := by
  rw [tellDevice, (readDevice_eq_ok h hshape).mpr ⟨hpass, rfl⟩]
  cases htold : Schedule.device p.grid d (toldDevice p t a c) with
  | ok s => exact absurd ((Schedule.device_eq_ok hlen).mp htold).1 hgrid
  | error e =>
    obtain rfl := Schedule.device_fails _ _ _ e htold
    simp only [Except.mapError, bind, Except.bind, htold]

end

namespace Model.Built
variable {p : Problem Exact} {margin t : ℝ} {m : Model Exact} {a : Answer}

theorem zip_ne_nil (hb : m.Built p (num margin)) (hp : p.Sound) :
    p.devices.zip m.handles.devices ≠ [] := by
  refine List.ne_nil_of_length_pos ?_
  rw [List.length_zip, ← hb.devices.length_eq, min_self]
  exact List.length_pos_iff.mpr hp.devices_ne

theorem told_reports (hb : m.Built p (num margin)) (costs : Costs Exact) (version : String) :
    (Schedule.told p (m.handles.told p t a)
      ((p.devices.zip m.handles.devices).map fun x => (toldBoth p t a x).2) costs version).Reports p
        (m.handles.power t a) (m.handles.sitePower p t a) := by
  refine ⟨fun i d hd => ?_, rfl⟩
  have hi : i < m.handles.devices.length :=
    hb.devices.length_eq ▸ (List.getElem?_eq_some_iff.mp hd).1
  have hpair : (p.devices.zip m.handles.devices)[i]? = some (d, m.handles.devices.getD i .empty) := by
    rw [List.getElem?_zip_eq_some, List.getD_eq_getElem _ _ hi]
    exact ⟨hd, List.getElem?_eq_getElem hi⟩
  refine ⟨(toldBoth p t a (d, m.handles.devices.getD i .empty)).2, ?_, rfl, ?_⟩
  · rw [Schedule.told, List.getElem?_map, hpair, Option.map_some]
  · exact Schedule.toldDevice_powers d (by simp [toldDevice, Problem.series])

/-! ## What becomes of an answer -/

section
variable {o : Objective Exact} {version : String}

theorem readAnswer_eq_ok (hb : m.Built p (num margin)) (hp : p.Sound) {s : Schedule Exact} :
    readAnswer p m.handles o (num t) version a.values = .ok s ↔
      (a.Passes p m.handles t ∧ p.grid.Representable) ∧
        s = Schedule.told p (m.handles.told p t a)
          ((p.devices.zip m.handles.devices).map fun x => (toldBoth p t a x).2)
          (o.evaluate m.handles fun i => (a.values i).getD 0) version := by
  have htell : ∀ x ∈ p.devices.zip m.handles.devices, ∀ y,
      tellDevice p (num t) a.values x.1 x.2 = .ok y ↔
        (DevicePasses p t x.1 x.2 a ∧ p.grid.Representable) ∧ y = toldBoth p t a x :=
    fun x hx y => tellDevice_eq_ok (hp.device x.1 (List.of_mem_zip hx).1) hp.len_pos
      ((List.forall₂_iff_zip.mp hb.devices).2 hx)
  -- One device is enough to see that every boundary is in the calendar.
  obtain ⟨x, hx⟩ := List.exists_mem_of_ne_nil _ (hb.zip_ne_nil hp)
  have hplans : ((p.devices.zip m.handles.devices).map (toldBoth p t a)).map Prod.fst =
      (p.devices.zip m.handles.devices).map fun x => toldDevice p t a x.2 := by
    rw [List.map_map]
    rfl
  have hschedules : ((p.devices.zip m.handles.devices).map (toldBoth p t a)).map Prod.snd =
      (p.devices.zip m.handles.devices).map fun x => (toldBoth p t a x).2 := by
    rw [List.map_map]
    rfl
  rw [readAnswer, Checked.bind_eq_ok]
  simp only [Checked.mapM_eq_ok_of_forall htell, Checked.bind_eq_ok, Checked.mapError_eq_ok]
  constructor
  · rintro ⟨_, ⟨hdevices, rfl⟩, _, hcheck, hs⟩
    have hgrid := (hdevices x hx).2
    rw [hplans, hb.ofDevices_told] at hcheck hs
    rw [hschedules, Schedule.ofPlan_of_representable hgrid] at hs
    obtain ⟨hsite, hlinks⟩ := (hb.check_eq_ok hp).mp hcheck
    exact ⟨⟨⟨hb.forall_devices.mp fun y hy => (hdevices y hy).1, hsite, hlinks⟩, hgrid⟩,
      (Except.ok.inj hs).symm⟩
  · rintro ⟨⟨⟨hdevices, hsite, hlinks⟩, hgrid⟩, rfl⟩
    refine ⟨_, ⟨fun y hy => ⟨hb.forall_devices.mpr hdevices y hy, hgrid⟩, rfl⟩, (), ?_, ?_⟩
    · rw [hplans, hb.ofDevices_told]
      exact (hb.check_eq_ok hp).mpr ⟨hsite, hlinks⟩
    · rw [hplans, hb.ofDevices_told, hschedules]
      exact Schedule.ofPlan_of_representable hgrid _ _ _ _

theorem readAnswer_fails (hp : p.Sound) (hgrid : p.grid.Representable) (h : Handles Exact)
    (tolerance : Exact) (values : Assignment Exact) :
    Checked.FailsWith Failure.IsRefusal (readAnswer p h o tolerance version values) := by
  refine (Checked.FailsWith.mapM (tellDevice_fails hp.len_pos hgrid tolerance values) _).bind
    fun devices => ?_
  refine ((Plan.check_fails p h tolerance values _).mapError fun e he => he.failure).bind fun _ => ?_
  simp only [Schedule.ofPlan_of_representable hgrid]
  exact Checked.failsWith_ok _

theorem readAnswer_of_not_representable (hb : m.Built p (num margin)) (hp : p.Sound)
    (hpass : a.Passes p m.handles t) (hgrid : ¬p.grid.Representable) :
    readAnswer p m.handles o (num t) version a.values = .error (.invalid .unrepresentable) := by
  obtain ⟨⟨d, c⟩, rest, hzip⟩ := List.exists_cons_of_ne_nil (hb.zip_ne_nil hp)
  have hx : (d, c) ∈ p.devices.zip m.handles.devices := hzip ▸ List.mem_cons_self
  -- Telling the first device fails already.
  have hfirst := tellDevice_of_not_representable (hp.device d (List.of_mem_zip hx).1) hp.len_pos
    ((List.forall₂_iff_zip.mp hb.devices).2 hx) (hb.forall_devices.mpr hpass.device _ hx) hgrid
  simp only [readAnswer, hzip, List.mapM_cons, hfirst]
  rfl

end

end Model.Built

/-! ## The gate -/

/-- An answer in time becomes a schedule just when it passes every check, on a grid whose boundaries
are all in the calendar; the schedule then tells the powers of the answer. Any other answer is
refused, and the run may be tried again. -/
theorem schedule_iff_passes {σ : Type} {settings : SolveSettings Exact} {t : ℝ}
    (htolerance : settings.tolerance = num t) {solver : Solver Exact σ} {p : Problem Exact}
    {world : World σ} {a : Answer}
    (hback : ∀ m, p.model settings.margin = .ok m → HandsBack settings solver world
      (m.program (Objective.compose p m.handles settings.tieBreak)) a.values)
    (state : Option RunState) :
    ((∃ s, outcome settings solver p state world = .ok s) ↔
      ∃ m, p.model settings.margin = .ok m ∧ a.Passes p m.handles t ∧ p.grid.Representable) ∧
    (∀ m s, p.model settings.margin = .ok m → outcome settings solver p state world = .ok s →
      s.Reports p (m.handles.power t a) (m.handles.sitePower p t a) ∧
        finalState settings solver p state world = some .optimal) ∧
    (∀ fault, p.model settings.margin = .error fault →
      outcome settings solver p state world = .error (.invalid fault)) ∧
    (∀ m, p.model settings.margin = .ok m → p.grid.Representable → ¬a.Passes p m.handles t →
      ∃ e, outcome settings solver p state world = .error e ∧ e.IsRefusal ∧ e.retryable = true ∧
        finalState settings solver p state world = some .solverError) ∧
    ∀ m, p.model settings.margin = .ok m → a.Passes p m.handles t → ¬p.grid.Representable →
      outcome settings solver p state world = .error (.invalid .unrepresentable) := by
  -- With a model, the run comes to what is read of the answer.
  have hmodel : ∀ m, p.model settings.margin = .ok m → ∃ margin : ℝ, m.Built p (num margin) ∧
      p.Sound ∧ outcome settings solver p state world =
        readAnswer p m.handles (Objective.compose p m.handles settings.tieBreak) (num t)
          ("milp/" ++ solver.name) a.values := by
    intro m hm
    obtain ⟨hp, hb⟩ := Problem.sound_of_model hm
    refine ⟨settings.margin.toReal, hb, hp, ?_⟩
    rw [outcome_of_ok hm, outcomeOf_of_handsBack (hback m hm), htolerance]
  refine ⟨⟨fun ⟨s, hs⟩ => ?_, fun ⟨m, hm, hpass, hgrid⟩ => ?_⟩, fun m s hm hs => ?_,
    fun fault hfault => outcome_of_error hfault, fun m hm hgrid hpass => ?_,
    fun m hm hpass hgrid => ?_⟩
  · cases hm : p.model settings.margin with
    | error fault =>
      rw [outcome_of_error hm] at hs
      cases hs
    | ok m =>
      obtain ⟨margin, hb, hp, hout⟩ := hmodel m hm
      obtain ⟨⟨hpass, hgrid⟩, -⟩ := (hb.readAnswer_eq_ok hp).mp (hout.symm.trans hs)
      exact ⟨m, rfl, hpass, hgrid⟩
  · obtain ⟨margin, hb, hp, hout⟩ := hmodel m hm
    exact ⟨_, hout.trans ((hb.readAnswer_eq_ok hp).mpr ⟨⟨hpass, hgrid⟩, rfl⟩)⟩
  · obtain ⟨margin, hb, hp, hout⟩ := hmodel m hm
    obtain ⟨-, rfl⟩ := (hb.readAnswer_eq_ok hp).mp (hout.symm.trans hs)
    refine ⟨hb.told_reports _ _, ?_⟩
    rw [finalState_of_ok hm, hs, endState?, Option.getD_some]
  · obtain ⟨margin, hb, hp, hout⟩ := hmodel m hm
    cases hs : outcome settings solver p state world with
    | ok s => exact absurd ((hb.readAnswer_eq_ok hp).mp (hout.symm.trans hs)).1.1 hpass
    | error e =>
      have he := Model.Built.readAnswer_fails hp hgrid _ _ _ e (hout.symm.trans hs)
      refine ⟨e, rfl, he, he.retryable, ?_⟩
      rw [finalState_of_ok hm, hs, he.endState?, Option.getD_some]
  · obtain ⟨margin, hb, hp, hout⟩ := hmodel m hm
    exact hout.trans (hb.readAnswer_of_not_representable hp hpass hgrid)

/-! ## The idle battery -/

theorem standard_tolerance :
    (SolveSettings.standard : SolveSettings Exact).tolerance = num (1 / 10 ^ 6) :=
  (lit_eq 1 6).trans (by rw [Nat.cast_one])

theorem standard_margin :
    (SolveSettings.standard : SolveSettings Exact).margin = num (1 / 10 ^ 1) :=
  (lit_eq 1 1).trans (by rw [Nat.cast_one])

def Answer.idle : Answer := fun _ => some 0

/-- A solver that at once hands back zeros. -/
def idleSolver : Solver Exact Unit :=
  ⟨"idle", fun _ _ => pure ⟨.zero, some (.ok Answer.idle.values)⟩⟩

theorem idleSolver_handsBack {settings : SolveSettings Exact} (program : Program Exact)
    (hpatience : Span.zero ≤ settings.budget + settings.grace)
    (hclock : settings.budget + settings.grace < Watch.clockEnd) :
    HandsBack settings idleSolver (.ofSlots .unlimited ()) program Answer.idle.values :=
  handsBack_at_once hpatience hclock rfl

theorem Stock.ideal_passes {n j : ℕ} (hj : j < n) (x room level : ℝ) :
    LevelPasses (Stock.ideal (num x) n) room j level := by
  have hmin : valueAt (Stock.ideal (num x) n).min j = negInf := valueAt_replicate hj _
  have hmax : valueAt (Stock.ideal (num x) n).max j = inf := valueAt_replicate hj _
  have hequals : givenAt (Stock.ideal (num x) n).equals j = none := givenAt_replicate hj none
  refine ⟨?_, ?_, fun e he => ?_⟩
  · rw [hmin]
    intro h
    cases h
  · rw [hmax]
    intro h
    cases h
  · rw [hequals] at he
    cases he

namespace Problem
variable {g : Grid}

theorem filled_idle (i : ℕ) : Answer.idle.filled i = 0 := rfl

theorem powerAt_idle (c : DeviceColumns) (t : ℝ) : c.powerAt t Answer.idle = fun _ => 0 := by
  funext j
  rw [DeviceColumns.powerAt, DeviceColumns.flowAt, filled_idle, filled_idle, add_zero, cleaned,
    ite_self]

theorem sitePower_idle (p : Problem Exact) (h : Handles Exact) (t : ℝ) (j : ℕ) :
    h.sitePower p t Answer.idle j = 0 := by
  have hdevice : ∀ i, h.power t Answer.idle i j = 0 := fun i => congrFun (powerAt_idle _ t) j
  have hsum : p.siteFlow (h.power t Answer.idle) j = 0 := by
    rw [siteFlow]
    simp [hdevice]
  rw [Handles.sitePower, hsum, cleaned, ite_self]

theorem idle_devicePasses (hp : (idle g).Sound) {t : ℝ} (ht : 0 < t) (c : DeviceColumns) :
    DevicePasses (idle g) t (idleBattery g.len) c Answer.idle := by
  have hsound := hp.device_of_get (i := 0) rfl
  have hroom : 0 ≤ (idleBattery g.len).flowRoom t :=
    mul_nonneg ht.le (by linarith [hsound.bound_nonneg])
  refine ⟨fun j hj => ?_, fun _ _ _ _ => rfl, fun s hs j hj => ?_⟩
  · have hlow : (idleBattery g.len).low j = -1 := congrArg toReal (valueAt_replicate hj _)
    have hhigh : (idleBattery g.len).high j = 1 := congrArg toReal (valueAt_replicate hj _)
    refine ⟨rfl, rfl, ?_, ?_, ?_, ?_, ?_⟩
    · rw [filled_idle]
      exact neg_nonpos.mpr hroom
    · rwa [filled_idle]
    · rwa [filled_idle, filled_idle, neg_zero, min_self]
    · rw [powerAt_idle, hlow]
      linarith
    · rw [powerAt_idle, hhigh]
      linarith
  · obtain rfl : s = Stock.ideal (num 1) g.len := (Option.some.inj hs).symm
    exact Stock.ideal_passes hj 1 _ _

theorem idle_passes (hp : (idle g).Sound) {t : ℝ} (ht : 0 < t) (h : Handles Exact) :
    Answer.idle.Passes (idle g) h t := by
  refine ⟨fun i d hd => ?_, fun _ j hj => ?_, fun c columns hmem group _ j _ => ?_⟩
  · obtain rfl : d = idleBattery g.len := List.mem_singleton.mp (List.mem_of_getElem? hd)
    exact idle_devicePasses hp ht _
  · rw [sitePower_idle]
    have hmin : valueAt (idle g).site.min j = negInf := valueAt_replicate hj _
    have hmax : valueAt (idle g).site.max j = inf := valueAt_replicate hj _
    refine ⟨?_, ?_⟩
    · rw [hmin]
      rfl
    · rw [hmax]
      rfl
  · obtain rfl : c = importPrice g.len := List.mem_singleton.mp (List.of_mem_zip hmem).1
    have hlevel : (importPrice g.len).level j = 0 := by
      have hgiven : ((importPrice g.len).quantity.getD j none).getD 0 = num 0 := by
        rw [importPrice, Commitment.siteFlow, List.getD_eq_getElem?_getD, List.getElem?_replicate]
        split_ifs with hj
        · rfl
        · rfl
      rw [Commitment.level, Commitment.baseline, givenAt, hgiven, toReal_num]
    have hmeasured : h.measured (idle g) t Answer.idle (importPrice g.len) j = 0 :=
      sitePower_idle _ _ _ _
    rw [hmeasured, hlevel, filled_idle, filled_idle]
    show |(0 : ℝ) - 0 - 0 + 0| ≤ linkRoom t 0 0 0 0
    rw [linkRoom]
    simp [ht.le]

theorem idle_model (hlen : 0 < g.len) :
    ∃ m, (idle g).model (SolveSettings.standard : SolveSettings Exact).margin = .ok m := by
  obtain ⟨m, hm, -⟩ := exists_built (idle_check hlen) (show (0 : ℝ) ≤ 1 / 10 ^ 1 by norm_num)
  exact ⟨m, standard_margin ▸ hm⟩

end Problem

/-- For an hour the idle battery is scheduled. -/
theorem idle_scheduled : ∃ s, outcome .standard idleSolver (Problem.idle Problem.oneHour) none
    (.ofSlots .unlimited ()) = .ok s ∧ s.sitePowers = [num 0] := by
  obtain ⟨m, hm⟩ := Problem.idle_model (g := Problem.oneHour) Nat.one_pos
  have hpass := Problem.idle_passes (Problem.sound_of_check
    (Problem.idle_check (g := Problem.oneHour) Nat.one_pos)) (t := 1 / 10 ^ 6) (by norm_num) m.handles
  obtain ⟨hiff, hreports, -⟩ := schedule_iff_passes (p := Problem.idle Problem.oneHour)
    standard_tolerance (fun m _ => idleSolver_handsBack _ (by decide) (by decide)) none
  obtain ⟨s, hs⟩ := hiff.mpr ⟨m, hm, hpass, by decide⟩
  refine ⟨s, hs, ?_⟩
  rw [(hreports m s hm hs).1.site]
  show [num (m.handles.sitePower _ _ _ 0)] = _
  rw [Problem.sitePower_idle]

/-- The idle battery is not scheduled in these slots, though the answer passes every check. -/
theorem idle_lost_late : lateGrid.Made ∧ ∃ m,
    (Problem.idle lateGrid).model (SolveSettings.standard : SolveSettings Exact).margin = .ok m ∧
    HandsBack .standard idleSolver (.ofSlots .unlimited ())
      (m.program (Objective.compose (Problem.idle lateGrid) m.handles TieBreak.standard))
      Answer.idle.values ∧
    Answer.idle.Passes (Problem.idle lateGrid) m.handles (1 / 10 ^ 6) ∧
    outcome .standard idleSolver (Problem.idle lateGrid) none (.ofSlots .unlimited ()) =
      .error (.invalid .unrepresentable) := by
  obtain ⟨m, hm⟩ := Problem.idle_model (g := lateGrid) Nat.two_pos
  have hcheck := Problem.idle_check (g := lateGrid) Nat.two_pos
  have hp := Problem.sound_of_check hcheck
  have hpass := Problem.idle_passes hp (t := 1 / 10 ^ 6) (by norm_num) m.handles
  have hback : HandsBack .standard idleSolver (.ofSlots .unlimited ())
      (m.program (Objective.compose (Problem.idle lateGrid) m.handles TieBreak.standard))
      Answer.idle.values := idleSolver_handsBack _ (by decide) (by decide)
  refine ⟨lateGrid_made, m, hm, hback, hpass, ?_⟩
  obtain ⟨-, hb⟩ := Problem.sound_of_model hm
  rw [outcome_of_ok hm, outcomeOf_of_handsBack hback, standard_tolerance]
  exact hb.readAnswer_of_not_representable hp hpass (by decide)

end Dispatch
