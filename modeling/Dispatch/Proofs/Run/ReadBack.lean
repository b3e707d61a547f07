import Dispatch.Proofs.Plan.Telling
import Dispatch.Proofs.Problem.Sound
import Dispatch.Proofs.Program.Layout
import Dispatch.Proofs.Run.Attempt

/-! # What a schedule was read from

* `Plan.powers_of_readDevice`, `Plan.levels_of_readDevice`: what reading a device has read.
* `Plan.readDevice_other_levels`: it reads other levels as well.
* `Schedule.ReadFrom`: a schedule tells what an assignment means for the devices, all of it checked.
* `exists_readFrom`: every schedule that a run returns was read from the values that the solver handed
  back in time.

The numbers may be any, and so may the values: nothing here says that they are finite.
-/

namespace Dispatch
set_option autoImplicit false

variable {α σ : Type} [Scalar α]

/-! ## Devices -/

namespace Plan
variable {p : Problem α} {tolerance : α} {values : Assignment α} {d : Device α} {c : DeviceColumns}
  {plan : DevicePlan α}

omit [Scalar α] in
theorem valueOf_eq_ok {column : ℕ} {x : α} :
    valueOf values column = .ok x ↔ values column = some x := by
  rw [valueOf]
  cases values column with
  | none => simp
  | some y => simp

theorem powers_of_readDevice (h : readDevice p tolerance values d c = .ok plan) :
    plan.powers.length = p.len ∧
      ∀ j < p.len, readFlow tolerance d c values j = .ok (valueAt plan.powers j) := by
  rw [readDevice, Checked.bind_eq_ok] at h
  obtain ⟨powers, hpowers, h⟩ := h
  obtain rfl : plan.powers = powers := by
    cases hs : d.stock with
    | none =>
      rw [hs] at h
      rw [← Checked.pure_eq_ok.mp h]
    | some s =>
      cases hc : c.stock with
      | none =>
        rw [hs, hc] at h
        rw [← Checked.pure_eq_ok.mp h]
      | some levels =>
        rw [hs, hc] at h
        obtain ⟨stock, -, h⟩ := Checked.bind_eq_ok.mp h
        rw [← Checked.pure_eq_ok.mp h]
  obtain ⟨hlen, hslot⟩ := forall₂_slots.mp (Checked.mapM_eq_ok.mp hpowers)
  refine ⟨hlen, fun j hj => hslot j _ ?_⟩
  have hlt : j < plan.powers.length := hlen ▸ hj
  rw [valueAt, List.getD_eq_getElem _ _ hlt, List.getElem?_eq_getElem hlt]

theorem levels_of_readDevice (h : readDevice p tolerance values d c = .ok plan) {s : Stock α}
    {levels : List ℕ} (hs : d.stock = some s) (hc : c.stock = some levels) :
    ∃ stock, plan.stock = some stock ∧
      readStock p tolerance d s levels values plan.powers = .ok stock := by
  rw [readDevice, Checked.bind_eq_ok, hs, hc] at h
  obtain ⟨powers, -, h⟩ := h
  obtain ⟨stock, hstock, h⟩ := Checked.bind_eq_ok.mp h
  rw [← Checked.pure_eq_ok.mp h]
  exact ⟨stock, rfl, hstock⟩

/-- The levels are told as the columns have them; what is held against the limits is what the flows
lead to. -/
theorem readStock_eq_ok {s : Stock α} {columns : List ℕ} {powers stock : List α} :
    readStock p tolerance d s columns values powers = .ok stock ↔
      (∃ solved, List.Forall₂ (fun k x => values k = some x) columns solved ∧
        stock = solved.map (clean tolerance)) ∧
      s.violations (s.replay powers p.hours) (stockSlack tolerance p.hours d p.len) = [] := by
  rw [readStock, Checked.bind_eq_ok]
  simp only [Checked.mapM_eq_ok, valueOf_eq_ok]
  cases hviolations : s.violations (s.replay powers p.hours) (stockSlack tolerance p.hours d p.len) with
  | nil =>
    simp only [Checked.pure_eq_ok, and_true]
    exact exists_congr fun solved => and_congr_right fun _ => eq_comm
  | cons j js =>
    refine iff_of_false ?_ fun h => List.cons_ne_nil j js h.2
    rintro ⟨_, -, ⟨⟩⟩

/-- Other levels in place of those that were read are read as well. -/
theorem readDevice_other_levels {values' : Assignment α} {s : Stock α} {levels : List ℕ}
    {solved : List α} (h : readDevice p tolerance values d c = .ok plan) (hs : d.stock = some s)
    (hc : c.stock = some levels)
    (hflow : ∀ j < p.len, readFlow tolerance d c values' j = readFlow tolerance d c values j)
    (hsolved : List.Forall₂ (fun k x => values' k = some x) levels solved) :
    readDevice p tolerance values' d c = .ok ⟨plan.powers, some (solved.map (clean tolerance))⟩ := by
  rw [readDevice, Checked.bind_eq_ok, hs, hc] at h ⊢
  obtain ⟨powers, hpowers, h⟩ := h
  obtain ⟨stock, hstock, h⟩ := Checked.bind_eq_ok.mp h
  rw [← Checked.pure_eq_ok.mp h]
  obtain ⟨hlen, hslot⟩ := forall₂_slots.mp (Checked.mapM_eq_ok.mp hpowers)
  have hpowers' : p.grid.slots.mapM (readFlow tolerance d c values') = .ok powers := by
    refine Checked.mapM_eq_ok.mpr (forall₂_slots.mpr ⟨hlen, fun j x hx => ?_⟩)
    exact (hflow j ((List.getElem?_eq_some_iff.mp hx).1.trans_eq hlen)).trans (hslot j x hx)
  refine ⟨powers, hpowers', Checked.bind_eq_ok.mpr ⟨_, readStock_eq_ok.mpr ⟨?_, ?_⟩, rfl⟩⟩
  · exact ⟨solved, hsolved, rfl⟩
  · exact (readStock_eq_ok.mp hstock).2

theorem no_levels_of_readDevice (h : readDevice p tolerance values d c = .ok plan)
    (hs : d.stock = none) : plan.stock = none := by
  rw [readDevice, Checked.bind_eq_ok, hs] at h
  obtain ⟨powers, -, h⟩ := h
  rw [← Checked.pure_eq_ok.mp h]

end Plan

/-! ## Schedules -/

theorem Model.Built.device_shape {p : Problem α} {margin : α} {m : Model α} (hb : m.Built p margin)
    {i : ℕ} {d : Device α} {c : DeviceColumns} (hd : p.devices[i]? = some d)
    (hc : m.handles.devices[i]? = some c) : DeviceShape p d c :=
  (List.forall₂_iff_zip.mp hb.devices).2
    (List.mem_of_getElem? (List.getElem?_zip_eq_some.mpr ⟨hd, hc⟩))

/-- The schedule tells what the values mean for the devices, checked against every limit. -/
structure Schedule.ReadFrom (s : Schedule α) (p : Problem α) (h : Handles α) (o : Objective α)
    (tolerance : α) (values : Assignment α) (plans : List (DevicePlan α)) : Prop where
  read : List.Forall₂ (fun x plan => Plan.readDevice p tolerance values x.1 x.2 = .ok plan)
    (p.devices.zip h.devices) plans
  checked : (Plan.ofDevices p tolerance plans).check p h tolerance values = .ok ()
  representable : p.grid.Representable
  told : ∃ version, s = Schedule.told p (Plan.ofDevices p tolerance plans)
    (List.zipWith (Schedule.toldDevice p.grid) p.devices plans)
    (o.evaluate h fun i => (values i).getD 0) version

theorem tellDevice_eq_ok_iff {p : Problem α} (hlen : 0 < p.len) {tolerance : α}
    {values : Assignment α} {d : Device α} {c : DeviceColumns}
    {x : DevicePlan α × DeviceSchedule α} :
    tellDevice p tolerance values d c = .ok x ↔
      Plan.readDevice p tolerance values d c = .ok x.1 ∧ p.grid.Representable ∧
        x.2 = Schedule.toldDevice p.grid d x.1 := by
  rw [tellDevice, Checked.bind_eq_ok]
  simp only [Checked.bind_eq_ok, Checked.mapError_eq_ok, Schedule.device_eq_ok hlen,
    Checked.pure_eq_ok]
  constructor
  · rintro ⟨plan, hread, told, htold, rfl⟩
    exact ⟨hread, htold⟩
  · rintro ⟨hread, htold⟩
    exact ⟨x.1, hread, x.2, htold, rfl⟩

/-- Of pairs whose second parts come from the first, the first parts leave the second to show. -/
theorem map_snd_of_forall₂ {ι β γ : Type} {f : ι → β → γ} {xs : List ι} {ys : List (β × γ)}
    (h : List.Forall₂ (fun x y => y.2 = f x y.1) xs ys) :
    ys.map Prod.snd = List.zipWith f xs (ys.map Prod.fst) := by
  induction h with
  | nil => rfl
  | cons hy _ ih => rw [List.map_cons, List.map_cons, List.zipWith_cons_cons, ih, hy]

theorem readFrom_of_readAnswer {p : Problem α} {h : Handles α} (hlen : 0 < p.len)
    (hdevices : p.devices ≠ []) (hcount : h.devices.length = p.devices.length) {o : Objective α}
    {tolerance : α} {version : String} {values : Assignment α} {s : Schedule α}
    (hs : readAnswer p h o tolerance version values = .ok s) :
    ∃ plans, s.ReadFrom p h o tolerance values plans := by
  rw [readAnswer, Checked.bind_eq_ok] at hs
  obtain ⟨xs, hxs, hs⟩ := hs
  obtain ⟨_, hcheck, hs⟩ := Checked.bind_eq_ok.mp hs
  have htold : List.Forall₂ (fun x y => Plan.readDevice p tolerance values x.1 x.2 = .ok y.1 ∧
      p.grid.Representable ∧ y.2 = Schedule.toldDevice p.grid x.1 y.1)
      (p.devices.zip h.devices) xs :=
    (Checked.mapM_eq_ok.mp hxs).imp fun _ _ hx => (tellDevice_eq_ok_iff hlen).mp hx
  obtain ⟨x, zs, hzip⟩ : ∃ x zs, p.devices.zip h.devices = x :: zs := by
    refine List.exists_cons_of_length_pos ?_
    rw [List.length_zip, hcount, Nat.min_self]
    exact List.length_pos_of_ne_nil hdevices
  have hgrid : p.grid.Representable := by
    rw [hzip] at htold
    obtain ⟨_, _, ⟨-, hgrid, -⟩, -, -⟩ := List.forall₂_cons_left_iff.mp htold
    exact hgrid
  have hschedules : xs.map Prod.snd =
      List.zipWith (Schedule.toldDevice p.grid) p.devices (xs.map Prod.fst) := by
    have hfirst : (p.devices.zip h.devices).map Prod.fst = p.devices :=
      List.map_fst_zip hcount.ge
    conv_rhs => rw [← hfirst, List.zipWith_map_left]
    exact map_snd_of_forall₂ (f := fun x => Schedule.toldDevice p.grid x.1)
      (htold.imp fun _ _ hx => hx.2.2)
  refine ⟨xs.map Prod.fst, ?_, Checked.mapError_eq_ok.mp hcheck, hgrid, version, ?_⟩
  · exact List.forall₂_map_right_iff.mpr (htold.imp fun _ _ hx => hx.1)
  · rw [Checked.mapError_eq_ok, Schedule.ofPlan_of_representable hgrid, hschedules] at hs
    exact (Except.ok.inj hs).symm

/-- What is read for a single device, if it passes, is told. -/
theorem readAnswer_singleton {p : Problem α} {h : Handles α} (hlen : 0 < p.len) (o : Objective α)
    {tolerance : α} (version : String) {values : Assignment α} {d : Device α} {c : DeviceColumns}
    {plan : DevicePlan α} (hzip : p.devices.zip h.devices = [(d, c)])
    (hplan : Plan.readDevice p tolerance values d c = .ok plan)
    (hcheck : (Plan.ofDevices p tolerance [plan]).check p h tolerance values = .ok ())
    (hgrid : p.grid.Representable) :
    readAnswer p h o tolerance version values = .ok (Schedule.told p (Plan.ofDevices p tolerance [plan])
      [Schedule.toldDevice p.grid d plan] (o.evaluate h fun i => (values i).getD 0) version) := by
  have htell : tellDevice p tolerance values d c = .ok (plan, Schedule.toldDevice p.grid d plan) :=
    (tellDevice_eq_ok_iff hlen).mpr ⟨hplan, hgrid, rfl⟩
  rw [readAnswer, hzip, Checked.bind_eq_ok]
  refine ⟨[(plan, Schedule.toldDevice p.grid d plan)], Checked.mapM_eq_ok.mpr ?_, ?_⟩
  · exact .cons htell .nil
  · rw [Checked.bind_eq_ok]
    refine ⟨(), Checked.mapError_eq_ok.mpr hcheck, Checked.mapError_eq_ok.mpr ?_⟩
    exact Schedule.ofPlan_of_representable hgrid _ _ _ _

section
variable {s : Schedule α} {p : Problem α} {h : Handles α} {o : Objective α} {tolerance : α}
  {values : Assignment α} {plans : List (DevicePlan α)}

/-- Where a device of the problem stands in the schedule, and what it was read as. -/
theorem Schedule.ReadFrom.device (hread : s.ReadFrom p h o tolerance values plans)
    (hcount : h.devices.length = p.devices.length) {i : ℕ} {d : Device α}
    (hd : p.devices[i]? = some d) :
    ∃ c plan, h.devices[i]? = some c ∧ plans[i]? = some plan ∧
      Plan.readDevice p tolerance values d c = .ok plan ∧
      s.devices[i]? = some (Schedule.toldDevice p.grid d plan) := by
  obtain ⟨version, rfl⟩ := hread.told
  have hlt := (List.getElem?_eq_some_iff.mp hd).1
  have hc := List.getElem?_eq_getElem (hcount.symm ▸ hlt : i < h.devices.length)
  have hzip : (p.devices.zip h.devices)[i]? = some (d, h.devices[i]) :=
    List.getElem?_zip_eq_some.mpr ⟨hd, hc⟩
  have hplans : i < plans.length := by
    rw [← hread.read.length_eq]
    exact (List.getElem?_eq_some_iff.mp hzip).1
  have hplan := List.getElem?_eq_getElem hplans
  refine ⟨_, plans[i], hc, hplan, ?_, ?_⟩
  · exact (List.forall₂_iff_zip.mp hread.read).2
      (List.mem_of_getElem? (List.getElem?_zip_eq_some.mpr ⟨hzip, hplan⟩))
  · rw [Schedule.told, List.getElem?_zipWith, hd, hplan]

theorem Schedule.ReadFrom.length (hread : s.ReadFrom p h o tolerance values plans)
    (hcount : h.devices.length = p.devices.length) : s.devices.length = p.devices.length := by
  obtain ⟨version, rfl⟩ := hread.told
  rw [Schedule.told, List.length_zipWith, ← hread.read.length_eq, List.length_zip, hcount, Nat.min_self,
    Nat.min_self]

end

/-! ## Runs -/

section
variable {settings : SolveSettings α} {solver : Solver α σ} {p : Problem α}
  {state : Option RunState} {world : World σ} {s : Schedule α}

theorem exists_handsBack {m : Model α} (hs : outcomeOf settings solver p world m = .ok s) :
    ∃ values, HandsBack settings solver world
      (m.program (Objective.compose p m.handles settings.tieBreak)) values := by
  obtain ⟨values, hvalues⟩ : ∃ values, ((solveWatched solver
      (m.program (Objective.compose p m.handles settings.tieBreak)) settings.budget
      settings.grace).run world).1 = .ok (.ok values) := by
    rw [outcomeOf] at hs
    rcases hanswer : ((solveWatched solver
      (m.program (Objective.compose p m.handles settings.tieBreak)) settings.budget
      settings.grace).run world).1 with fault | fault | values
    · rw [hanswer] at hs
      cases hs
    · rw [hanswer] at hs
      cases hs
    · exact ⟨values, rfl⟩
  rw [solveWatched_fst] at hvalues
  rcases hwait : world.watch.awaitSlot settings.budget settings.grace with _ | ⟨_ | held, later⟩
  · rw [hwait] at hvalues
    cases hvalues
  · rw [hwait] at hvalues
    cases hvalues
  · rw [hwait] at hvalues
    simp only [Except.ok.injEq] at hvalues
    split_ifs at hvalues with hlate
    cases hresult : (solver.solve (m.program (Objective.compose p m.handles settings.tieBreak))
        settings.budget world.solver).1.result with
    | none =>
      rw [hresult] at hvalues
      cases hvalues
    | some result =>
      rw [hresult] at hvalues
      exact ⟨values, ⟨held, later, hwait, hlate⟩, hresult.trans (congrArg some hvalues)⟩

/-- Behind every schedule stand a model of the problem and the values handed back for it. -/
theorem exists_readFrom (hs : outcome settings solver p state world = .ok s) :
    ∃ m values plans, p.model settings.margin = .ok m ∧
      HandsBack settings solver world
        (m.program (Objective.compose p m.handles settings.tieBreak)) values ∧
      s.ReadFrom p m.handles (Objective.compose p m.handles settings.tieBreak) settings.tolerance
        values plans := by
  cases hm : p.model settings.margin with
  | error fault =>
    rw [outcome_of_error hm] at hs
    cases hs
  | ok m =>
    rw [outcome_of_ok hm] at hs
    obtain ⟨values, hback⟩ := exists_handsBack hs
    rw [outcomeOf_of_handsBack hback] at hs
    obtain ⟨hcheck, hb⟩ := Problem.built_of_model_eq_ok hm
    obtain ⟨hlen, hdevices, -⟩ := Problem.check_eq_ok.mp hcheck
    obtain ⟨plans, hread⟩ := readFrom_of_readAnswer (Nat.pos_of_ne_zero hlen) hdevices
      hb.devices.length_eq.symm hs
    exact ⟨m, values, plans, rfl, hback, hread⟩

end

end Dispatch
