import Dispatch.Proofs.Program.Preference

/-! # What the preference may cost

* `Program.Minimises`: feasible values whose objective no feasible values undercut.
* `Handles.movedEnergy`: the energy that the storages with a preference charge and discharge.
* `Model.Built.le_preference`, `Model.Built.preference_le`: the preference adds at least its step, and
  at most twice its step, per unit of moved energy.
* `Problem.preference_costs_at_most`: so it makes the cheapest plan dearer by no more than that.

Whatever minimises the objective with the preference costs, without it, at least as much as the
cheapest values, and at most what the preference adds to these.
-/

namespace Dispatch
set_option autoImplicit false

open Exact Scalar

/-- Feasible values whose objective no feasible values undercut. -/
def Program.Minimises (q : Program Exact) (v : ℕ → ℝ) : Prop :=
  q.feasible (fun i => num (v i)) = true ∧
    ∀ w : ℕ → ℝ, q.feasible (fun i => num (w i)) = true →
      q.objective.value (fun i => num (v i)) ≤ q.objective.value fun i => num (w i)

/-! ## The preference, device by device -/

/-- A storage whose plans are told apart by charging sooner. -/
def Device.hasPreference (d : Device Exact) : Bool := d.stock.isSome && d.chargeSooner

theorem zip_eq_zipIdx {β γ : Type} {xs : List β} {ys : List γ} (h : xs.length = ys.length) (y : γ) :
    xs.zip ys = xs.zipIdx.map fun x => (x.1, ys.getD x.2 y) := by
  apply List.ext_getElem
  · simp [h]
  · intro i h₁ h₂
    have hi : i < ys.length := by
      simp only [List.length_zip] at h₁
      omega
    simp [hi]

namespace Handles

/-- The sum of what every device with a preference has at each slot. -/
noncomputable def overPreferring (p : Problem Exact) (f : ℕ → ℕ → ℝ) : ℝ :=
  (p.devices.zipIdx.map fun x =>
    if x.1.hasPreference then (p.grid.slots.map (f x.2)).sum else 0).sum

/-- The energy that the storages with a preference charge and discharge. -/
noncomputable def movedEnergy (h : Handles Exact) (p : Problem Exact) (v : ℕ → ℝ) : ℝ :=
  overPreferring p fun i j => p.realHours * (h.up v i j - h.down v i j)

variable {p : Problem Exact} {f g : ℕ → ℕ → ℝ}

theorem overPreferring_le (h : ∀ i < p.devices.length, ∀ j < p.len, f i j ≤ g i j) :
    overPreferring p f ≤ overPreferring p g := by
  refine List.sum_le_sum fun x hx => ?_
  have hi : x.2 < p.devices.length := by
    have := List.snd_lt_of_mem_zipIdx hx
    simpa using this
  split_ifs
  · exact List.sum_le_sum fun j hj => h x.2 hi j (List.mem_range.mp hj)
  · exact le_rfl

theorem overPreferring_congr (h : ∀ i < p.devices.length, ∀ j < p.len, f i j = g i j) :
    overPreferring p f = overPreferring p g := by
  apply le_antisymm
  · exact overPreferring_le fun i hi j hj => (h i hi j hj).le
  · exact overPreferring_le fun i hi j hj => (h i hi j hj).ge

theorem overPreferring_pos (h : ∀ i < p.devices.length, ∀ j < p.len, 0 ≤ f i j) {i : ℕ}
    {d : Device Exact} (hd : p.devices[i]? = some d) (hprefers : d.hasPreference = true) {j : ℕ}
    (hj : j < p.len) (hpos : 0 < f i j) : 0 < overPreferring p f := by
  have hslots : ∀ i < p.devices.length, ∀ x ∈ p.grid.slots.map (f i), 0 ≤ x := by
    intro i hi x hx
    obtain ⟨j, hj, rfl⟩ := List.mem_map.mp hx
    exact h i hi j (List.mem_range.mp hj)
  have hi := (List.getElem?_eq_some_iff.mp hd).1
  have hslot : f i j ≤ (p.grid.slots.map (f i)).sum :=
    List.single_le_sum (hslots i hi) _ (List.mem_map.mpr ⟨j, List.mem_range.mpr hj, rfl⟩)
  have hdevices : ∀ y ∈ p.devices.zipIdx.map fun x =>
      if x.1.hasPreference then (p.grid.slots.map (f x.2)).sum else 0, 0 ≤ y := by
    intro y hy
    obtain ⟨x, hx, rfl⟩ := List.mem_map.mp hy
    have hi : x.2 < p.devices.length := by
      have := List.snd_lt_of_mem_zipIdx hx
      simpa using this
    split_ifs
    · exact List.sum_nonneg (hslots x.2 hi)
    · exact le_rfl
  have hdevice : (p.grid.slots.map (f i)).sum ≤ overPreferring p f := by
    refine List.single_le_sum hdevices _ (List.mem_map.mpr
      ⟨(d, i), List.mem_zipIdx_iff_getElem?.mpr hd, ?_⟩)
    rw [if_pos hprefers]
  exact hpos.trans_le (hslot.trans hdevice)

theorem overPreferring_mul (k : ℝ) (f : ℕ → ℕ → ℝ) :
    (overPreferring p fun i j => k * f i j) = k * overPreferring p f := by
  unfold overPreferring
  rw [← List.sum_map_mul_left]
  congr 1
  refine List.map_congr_left fun x _ => ?_
  by_cases hx : x.1.hasPreference = true
  · simp only [hx, if_true]
    exact List.sum_map_mul_left _ _ _
  · simp [hx]

theorem preference_eq {h : Handles Exact} (hlen : p.devices.length = h.devices.length)
    (t : TieBreak Exact) (b : ℝ) (v : ℕ → ℝ) :
    h.preference p t b v =
      overPreferring p fun i j => p.slotPreference t b j (h.up v i j) (h.down v i j) := by
  unfold preference overPreferring
  rw [zip_eq_zipIdx hlen .empty, List.map_map]
  rfl

end Handles

/-! ## Bounds of the preference -/

/-- No slot weighs a half of the flow by more than twice the step. -/
theorem Problem.slotPreference_le {p : Problem Exact} (hhours : 0 ≤ p.realHours) (t : TieBreak Exact)
    {b : ℝ} (hb : 0 ≤ b) {j : ℕ} (hj : j < p.len) {up down : ℝ} (hup : 0 ≤ up) (hdown : down ≤ 0) :
    p.slotPreference t b j up down ≤ 2 * b * (p.realHours * (up - down)) := by
  obtain ⟨h0, h1⟩ := p.ramp_mem t hj
  have hcharge : (1 + p.ramp t j) * up ≤ 2 * up := mul_le_mul_of_nonneg_right (by linarith) hup
  have hdischarge : 2 * down ≤ (2 - p.ramp t j) * down :=
    mul_le_mul_of_nonpos_right (by linarith) hdown
  have hweights : (1 + p.ramp t j) * up - (2 - p.ramp t j) * down ≤ 2 * (up - down) := by
    linarith
  rw [slotPreference, Nat.cast_ofNat]
  calc b * ((1 + p.ramp t j) * up - (2 - p.ramp t j) * down) * p.realHours
      ≤ b * (2 * (up - down)) * p.realHours :=
        mul_le_mul_of_nonneg_right (mul_le_mul_of_nonneg_left hweights hb) hhours
    _ = 2 * b * (p.realHours * (up - down)) := by ring

/-- And by no less than the step. -/
theorem Problem.le_slotPreference {p : Problem Exact} (hhours : 0 ≤ p.realHours) (t : TieBreak Exact)
    {b : ℝ} (hb : 0 ≤ b) {j : ℕ} (hj : j < p.len) {up down : ℝ} (hup : 0 ≤ up) (hdown : down ≤ 0) :
    b * (p.realHours * (up - down)) ≤ p.slotPreference t b j up down := by
  obtain ⟨h0, h1⟩ := p.ramp_mem t hj
  have hcharge : 0 ≤ p.ramp t j * up := mul_nonneg h0 hup
  have hdischarge : (1 - p.ramp t j) * down ≤ 0 :=
    mul_nonpos_of_nonneg_of_nonpos (by linarith) hdown
  have hweights : up - down ≤ (1 + p.ramp t j) * up - (2 - p.ramp t j) * down := by
    linarith
  rw [slotPreference, Nat.cast_ofNat]
  calc b * (p.realHours * (up - down)) = b * (up - down) * p.realHours := by ring
    _ ≤ b * ((1 + p.ramp t j) * up - (2 - p.ramp t j) * down) * p.realHours :=
        mul_le_mul_of_nonneg_right (mul_le_mul_of_nonneg_left hweights hb) hhours

namespace Model.Built
variable {p : Problem Exact} {margin : ℝ} {m : Model Exact} {v : ℕ → ℝ} {t : TieBreak Exact}

theorem signs (hb : m.Built p (num margin)) (hp : p.Sound)
    (held : DevicesHeld p (num margin) m.handles fun i => num (v i)) {i : ℕ}
    (hi : i < p.devices.length) {j : ℕ} (hj : j < p.len) :
    0 ≤ m.handles.up v i j ∧ m.handles.down v i j ≤ 0 := by
  obtain ⟨hup, hdown⟩ := hb.halves hp held (List.getElem?_eq_getElem hi) hj
  rw [hup, hdown]
  exact ⟨upHalf_nonneg _, downHalf_nonpos _⟩

theorem preference_le (hb : m.Built p (num margin)) (hp : p.Sound) (hhours : 0 ≤ p.realHours)
    (t : TieBreak Exact) {b : ℝ} (hb0 : 0 ≤ b)
    (held : DevicesHeld p (num margin) m.handles fun i => num (v i)) :
    m.handles.preference p t b v ≤ 2 * b * m.handles.movedEnergy p v := by
  rw [Handles.preference_eq hb.devices.length_eq, Handles.movedEnergy, ← Handles.overPreferring_mul]
  refine Handles.overPreferring_le fun i hi j hj => ?_
  obtain ⟨hup, hdown⟩ := hb.signs hp held hi hj
  exact Problem.slotPreference_le hhours t hb0 hj hup hdown

theorem le_preference (hb : m.Built p (num margin)) (hp : p.Sound) (hhours : 0 ≤ p.realHours)
    (t : TieBreak Exact) {b : ℝ} (hb0 : 0 ≤ b)
    (held : DevicesHeld p (num margin) m.handles fun i => num (v i)) :
    b * m.handles.movedEnergy p v ≤ m.handles.preference p t b v := by
  rw [Handles.preference_eq hb.devices.length_eq, Handles.movedEnergy, ← Handles.overPreferring_mul]
  refine Handles.overPreferring_le fun i hi j hj => ?_
  obtain ⟨hup, hdown⟩ := hb.signs hp held hi hj
  exact Problem.le_slotPreference hhours t hb0 hj hup hdown

/-- Energy is moved as far as flows are not zero. -/
theorem movedEnergy_eq (hb : m.Built p (num margin)) (hp : p.Sound)
    (held : DevicesHeld p (num margin) m.handles fun i => num (v i)) :
    m.handles.movedEnergy p v =
      Handles.overPreferring p fun i j => p.realHours * |m.handles.flow v i j| := by
  refine Handles.overPreferring_congr fun i hi j hj => ?_
  obtain ⟨hup, hdown⟩ := hb.halves hp held (List.getElem?_eq_getElem hi) hj
  rw [hup, hdown, upHalf, downHalf, max_sub_min_eq_abs, zero_sub, abs_neg]

theorem movedEnergy_idle (hb : m.Built p (num margin)) (hp : p.Sound)
    (held : DevicesHeld p (num margin) m.handles fun i => num (v i))
    (hidle : ∀ i < p.devices.length, ∀ j < p.len, m.handles.flow v i j = 0) :
    m.handles.movedEnergy p v = 0 := by
  have hzero : (Handles.overPreferring p fun _ _ => 0 * 0) = 0 :=
    (Handles.overPreferring_mul 0 fun _ _ => 0).trans (zero_mul _)
  rw [hb.movedEnergy_eq hp held, ← hzero]
  refine Handles.overPreferring_congr fun i hi j hj => ?_
  rw [hidle i hi j hj, abs_zero, mul_zero, mul_zero]

theorem movedEnergy_pos (hb : m.Built p (num margin)) (hp : p.Sound) (hhours : 0 < p.realHours)
    (held : DevicesHeld p (num margin) m.handles fun i => num (v i)) {i : ℕ} {d : Device Exact}
    (hd : p.devices[i]? = some d) (hprefers : d.hasPreference = true) {j : ℕ} (hj : j < p.len)
    (hflow : m.handles.flow v i j ≠ 0) : 0 < m.handles.movedEnergy p v := by
  rw [hb.movedEnergy_eq hp held]
  exact Handles.overPreferring_pos (fun _ _ _ _ => mul_nonneg hhours.le (abs_nonneg _)) hd hprefers hj
    (mul_pos hhours (abs_pos.mpr hflow))

end Model.Built

theorem Problem.Sound.realStep_eq {p : Problem Exact} (hp : p.Sound) (hhours : p.realHours ≠ 0)
    {t : TieBreak Exact} (henabled : t.enabled = true) {r : ℝ} (hr : t.relative = num r)
    (hpos : 0 < r) : p.realStep t = r * p.biasScale / 2 := by
  have hstep : p.biasStep t = num (r * p.biasScale / 2) := by
    rw [hp.biasStep_eq hhours henabled, hr, num_mul, num_div _ two_ne_zero]
  have hbeta : 0 < r * p.biasScale / 2 := half_pos (mul_pos hpos p.biasScale_pos)
  rw [realStep, if_pos (by rw [hstep, zero_eq, num_gt]; exact decide_eq_true hbeta), hstep, toReal_num]

/-! ## The price of a preference -/

namespace Problem

/-- The preference makes the plan dearer than the cheapest one by no more than its share of the price
scale for every kWh that the cheapest one moves. -/
theorem preference_costs_at_most {p : Problem Exact} (hgrid : p.grid.Made) (hcheck : p.check = .ok ())
    {margin : ℝ} (hmargin : 0 ≤ margin) {t : TieBreak Exact} (henabled : t.enabled = true) {r : ℝ}
    (hr : t.relative = num r) (hpos : 0 < r) :
    ∃ m, p.model (num margin) = .ok m ∧
      let cost := fun v : ℕ → ℝ => (m.plain p).objective.value fun i => num (v i)
      ∀ x y : ℕ → ℝ, (m.composed p t).Minimises x → (m.plain p).Minimises y →
        cost y ≤ cost x ∧ cost x ≤ cost y + num (r * p.biasScale * m.handles.movedEnergy p y) := by
  have hp := sound_of_check hcheck
  have hhours := hgrid.realHours_pos
  obtain ⟨m, hm, hb⟩ := exists_built hcheck hmargin
  refine ⟨m, hm, ?_⟩
  intro cost x y hx hy
  obtain ⟨hfeasible, hleast⟩ := hx
  obtain ⟨hfeasible', hleast'⟩ := hy
  have held : DevicesHeld p (num margin) m.handles fun i => num (x i) :=
    ((hb.feasible_iff _ _).mp hfeasible).1
  have held' : DevicesHeld p (num margin) m.handles fun i => num (y i) :=
    ((hb.feasible_iff _ _).mp hfeasible').1
  -- Both programs have the same feasible values, so each minimiser competes with the other one.
  have hx_plain : (m.plain p).feasible (fun i => num (x i)) = true := hfeasible
  have hy_composed : (m.composed p t).feasible (fun i => num (y i)) = true := hfeasible'
  have hcost : ∀ v : ℕ → ℝ, cost v = num (m.handles.deviationCost v) :=
    fun v => hb.objective_value hp
  have hbiased := hleast y hy_composed
  have hrelative : t.relative ≠ inf := fun h => nomatch hr.symm.trans h
  rw [hb.composed_value hp hhours.ne' hrelative, hb.composed_value hp hhours.ne' hrelative,
    num_le_num] at hbiased
  have hnonneg := hb.preference_nonneg hp hhours.le t (p.realStep_nonneg t) held
  have hbound := hb.preference_le hp hhours.le t (p.realStep_nonneg t) held'
  have hscale : 2 * p.realStep t = r * p.biasScale := by
    rw [hp.realStep_eq hhours.ne' henabled hr hpos]
    ring
  rw [hscale] at hbound
  refine ⟨hleast' x hx_plain, ?_⟩
  rw [hcost, hcost, num_add, num_le_num]
  linarith

end Problem

/-! ## A battery with one plan -/

namespace Model.Built
variable {p : Problem Exact} {margin : ℝ} {m : Model Exact} {t : TieBreak Exact}

theorem preference_congr (hb : m.Built p (num margin)) (hp : p.Sound) {v w : ℕ → ℝ} (b : ℝ)
    (heldv : DevicesHeld p (num margin) m.handles fun i => num (v i))
    (heldw : DevicesHeld p (num margin) m.handles fun i => num (w i))
    (h : ∀ i < p.devices.length, ∀ j < p.len, m.handles.flow v i j = m.handles.flow w i j) :
    m.handles.preference p t b v = m.handles.preference p t b w := by
  have hslots : ∀ i < p.devices.length, ∀ j < p.len,
      p.slotPreference t b j (m.handles.up v i j) (m.handles.down v i j) =
        p.slotPreference t b j (m.handles.up w i j) (m.handles.down w i j) := by
    intro i hi j hj
    obtain ⟨hup, hdown⟩ := hb.halves hp heldv (List.getElem?_eq_getElem hi) hj
    obtain ⟨hup', hdown'⟩ := hb.halves hp heldw (List.getElem?_eq_getElem hi) hj
    rw [hup, hdown, hup', hdown', h i hi j hj]
  rw [Handles.preference_eq hb.devices.length_eq, Handles.preference_eq hb.devices.length_eq]
  exact Handles.overPreferring_congr hslots

/-- The only admitted plan minimises the objective with every preference, and without one. -/
theorem exists_minimiser (hb : m.Built p (num margin)) (hp : p.Sound) (hbounds : p.ProperBounds)
    (hhours : 0 < p.realHours) (hmargin : 0 ≤ margin) (ht : t.relative ≠ inf) {flow : ℕ → ℕ → ℝ}
    (hflow : p.Admits flow) (honly : ∀ flow', p.Admits flow' →
      ∀ i < p.devices.length, ∀ j < p.len, flow' i j = flow i j) :
    ∃ v : ℕ → ℝ, (∀ i < p.devices.length, ∀ j < p.len, m.handles.flow v i j = flow i j) ∧
      DevicesHeld p (num margin) m.handles (fun i => num (v i)) ∧
      (m.plain p).Minimises v ∧ (m.composed p t).Minimises v := by
  obtain ⟨u, heldu, siteu, hu⟩ := hb.exists_held hp hmargin hflow
  obtain ⟨v, hagree, hfeasible, hcost⟩ := hb.exists_completion hp hhours.le hmargin heldu siteu
  have hv : ∀ i < p.devices.length, ∀ j < p.len, m.handles.flow v i j = flow i j :=
    fun i hi j hj => (hb.flow_congr hagree hi hj).trans (hu i hi j hj)
  have heldv : DevicesHeld p (num margin) m.handles fun i => num (v i) :=
    ((hb.feasible_iff _ _).mp (hfeasible (Objective.compose p m.handles t))).1
  -- Other feasible values carry out the same plan, so they differ in their deviations only.
  have hless : ∀ w : ℕ → ℝ, (m.plain p).feasible (fun i => num (w i)) = true →
      m.handles.deviationCost v ≤ m.handles.deviationCost w ∧
        m.handles.preference p t (p.realStep t) v = m.handles.preference p t (p.realStep t) w := by
    intro w hw
    obtain ⟨heldw, sitew, commitmentsw⟩ := (hb.feasible_iff _ _).mp hw
    have hsame : ∀ i < p.devices.length, ∀ j < p.len,
        m.handles.flow v i j = m.handles.flow w i j := fun i hi j hj =>
      (hv i hi j hj).trans (honly _ (hb.admits hp hbounds heldw sitew) i hi j hj).symm
    refine ⟨?_, hb.preference_congr hp _ heldv heldw hsame⟩
    have hplan : p.planCost (m.handles.flow u) (m.handles.level u) =
        p.planCost (m.handles.flow w) (m.handles.level w) := by
      refine hp.planCost_congr (fun i hi j hj => ?_) fun i d s hd hs j hj => ?_
      · rw [hu i hi j hj, ← hv i hi j hj, hsame i hi j hj]
      · rw [hb.level_eq hp heldu hd hs hj, hb.level_eq hp heldw hd hs hj]
        have hi := (List.getElem?_eq_some_iff.mp hd).1
        refine s.path_congr p.realHours fun k hk => ?_
        rw [hu i hi k (by omega), ← hv i hi k (by omega), hsame i hi k (by omega)]
    rw [hcost, hplan]
    exact hb.planCost_le hp commitmentsw
  refine ⟨v, hv, heldv, ⟨hfeasible _, fun w hw => ?_⟩, hfeasible _, fun w hw => ?_⟩
  · have hplain : ∀ x : ℕ → ℝ, (m.plain p).objective.value (fun i => num (x i)) =
        num (m.handles.deviationCost x) := fun x => hb.objective_value hp
    rw [hplain, hplain, num_le_num]
    exact (hless w hw).1
  · obtain ⟨hdeviations, hpreference⟩ := hless w hw
    rw [hb.composed_value hp hhours.ne' ht, hb.composed_value hp hhours.ne' ht, num_le_num,
      hpreference]
    linarith

end Model.Built

namespace Problem

/-- A battery with a target, which it reaches only by charging at half its power. -/
noncomputable def targetStock : Stock Exact := { batteryStock with equals := [some (num (1 / 4))] }

noncomputable def eagerBattery : Device Exact :=
  { battery with stock := some targetStock, chargeSooner := true }

noncomputable def oneTarget : Problem Exact :=
  { oneBattery with
    devices := [eagerBattery]
    commitments := [.siteFlow "import" [some (num 0)] [num (1 / 4)] [num 0] .each] }

theorem oneTarget_check : oneTarget.check = .ok () := by
  refine oneHour_check (limitedBattery_check (-1) (some (1 / 4)) true) fun c hc => ?_
  rw [List.mem_singleton.mp hc]
  exact ⟨oneSlot_check rfl rfl rfl rfl nofun, rfl⟩

theorem oneTarget_realHours : oneTarget.realHours = 1 := by
  have hseconds : oneHour.resolution.wholeSeconds = 3600 := rfl
  show oneHour.realHours = 1
  rw [Grid.realHours, hseconds]
  norm_num

theorem targetStock_path (flow : ℕ → ℝ) :
    targetStock.path 1 flow 1 = 1 + upHalf (flow 0) / 2 + downHalf (flow 0) := by
  have hcoefficients : targetStock.coefficients 0 = (num 1, num 1) := by
    simp [Stock.coefficients, Decay.coefficients, losslessMargin, targetStock, batteryStock, valueAt,
      one_eq]
  have hup : targetStock.upShare 0 = 1 / (2 : ℕ) := rfl
  have hdown : targetStock.downShare 0 = 1 := rfl
  have hdrift : targetStock.drift 0 = 0 := rfl
  have hstart : targetStock.start = 1 := rfl
  rw [Stock.path, Stock.path, Stock.step, Stock.carry, Stock.intake, hcoefficients, Stock.realChange,
    hup, hdown, hdrift, hstart, toReal_num, Nat.cast_ofNat]
  ring

theorem oneTarget_properBounds : oneTarget.ProperBounds := by
  refine ⟨fun d hd s hs j hj => ?_, fun j hj => ?_⟩
  · obtain rfl := List.mem_singleton.mp hd
    obtain rfl := Option.some.inj hs
    obtain rfl : j = 0 := Nat.lt_one_iff.mp hj
    exact ⟨.inl rfl, .inr rfl⟩
  · obtain rfl : j = 0 := Nat.lt_one_iff.mp hj
    exact ⟨.inr rfl, .inl rfl⟩

theorem oneTarget_admits : oneTarget.Admits fun _ _ => 1 / 2 := by
  have hp := sound_of_check oneTarget_check
  refine ⟨fun i d hd j hj => ?_, fun i d s hd hs j hj => ?_, fun _ j hj => ?_⟩
  · obtain rfl : j = 0 := Nat.lt_one_iff.mp hj
    obtain rfl : d = eagerBattery := List.mem_singleton.mp (List.mem_of_getElem? hd)
    refine ⟨(num_le_num (-1) _).mpr ?_, (num_le_num _ 1).mpr ?_⟩ <;> norm_num
  · rw [hp.valueAt_replay hd hs _ hj]
    obtain rfl : j = 0 := Nat.lt_one_iff.mp hj
    obtain rfl : d = eagerBattery := List.mem_singleton.mp (List.mem_of_getElem? hd)
    obtain rfl := Option.some.inj hs
    rw [oneTarget_realHours, targetStock_path, upHalf, downHalf]
    refine ⟨(num_le_num (1 + -1) _).mpr ?_, num_le_inf _, fun e he => ?_⟩
    · norm_num
    · obtain rfl : num (1 / 4) = e := Option.some.inj he
      show num _ = num 1 + num (1 / 4)
      rw [num_add, num_inj]
      norm_num
  · obtain rfl : j = 0 := Nat.lt_one_iff.mp hj
    have hsite : oneTarget.siteFlow (fun _ _ => 1 / 2) 0 = 1 / 2 := by
      show [(1 / 2 : ℝ)].sum = 1 / 2
      simp
    rw [hsite]
    exact ⟨negInf_le_num _, (num_le_num _ 1).mpr (by norm_num)⟩

theorem oneTarget_flow {flow : ℕ → ℕ → ℝ} (h : oneTarget.Admits flow) : flow 0 0 = 1 / 2 := by
  have hp := sound_of_check oneTarget_check
  have hget : oneTarget.devices[0]? = some eagerBattery := rfl
  have hkeeps := h.stock 0 eagerBattery targetStock hget rfl 0 Nat.one_pos
  rw [hp.valueAt_replay hget rfl _ Nat.one_pos, oneTarget_realHours, zero_add,
    targetStock_path] at hkeeps
  have htarget : num (1 + upHalf (flow 0 0) / 2 + downHalf (flow 0 0)) = num (1 + 1 / 4) :=
    hkeeps.target _ rfl
  rw [num_inj, upHalf, downHalf] at htarget
  rcases le_total 0 (flow 0 0) with h0 | h0
  · rw [max_eq_left h0, min_eq_right h0] at htarget
    linarith
  · rw [max_eq_right h0, min_eq_left h0] at htarget
    linarith

/-- A preference of a thousandth makes the plan that reaches the target dearer by no more than a
thousandth of the half kWh that it charges. -/
theorem oneTarget_preference_cost :
    ∃ m x y, oneTarget.model (num 1) = .ok m ∧
      (m.composed oneTarget ⟨true, num (1 / 1000), .linear⟩).Minimises x ∧
      (m.plain oneTarget).Minimises y ∧ m.handles.movedEnergy oneTarget y = 1 / 2 ∧
      ((m.plain oneTarget).objective.value fun i => num (x i)) ≤
        ((m.plain oneTarget).objective.value fun i => num (y i)) + num (1 / 1000 * 1 * (1 / 2)) := by
  have hp := sound_of_check oneTarget_check
  have hpos : (0 : ℝ) < oneTarget.realHours := by rw [oneTarget_realHours]; exact one_pos
  obtain ⟨m, hm, hcosts⟩ := preference_costs_at_most (t := ⟨true, num (1 / 1000), .linear⟩)
    oneHour_made oneTarget_check zero_le_one rfl rfl (by norm_num : (0 : ℝ) < 1 / 1000)
  have hb := built_of_model hm
  obtain ⟨v, hv, held, hplain, hcomposed⟩ :=
    hb.exists_minimiser (t := ⟨true, num (1 / 1000), .linear⟩) hp oneTarget_properBounds hpos
      zero_le_one (fun h => nomatch h) oneTarget_admits fun flow hflow i hi j hj => by
        obtain rfl : i = 0 := Nat.lt_one_iff.mp hi
        obtain rfl : j = 0 := Nat.lt_one_iff.mp hj
        exact oneTarget_flow hflow
  have hmoved : m.handles.movedEnergy oneTarget v = 1 / 2 := by
    obtain ⟨hup, hdown⟩ := hb.halves hp held (i := 0) (d := eagerBattery) rfl (j := 0) Nat.one_pos
    have hflow := hv 0 Nat.one_pos 0 Nat.one_pos
    have henergy : m.handles.movedEnergy oneTarget v =
        oneTarget.realHours * (m.handles.up v 0 0 - m.handles.down v 0 0) := by
      show [[_].sum].sum = _
      rw [List.sum_singleton, List.sum_singleton]
    rw [henergy, hup, hdown, hflow, oneTarget_realHours, upHalf, downHalf]
    norm_num
  have hscale : oneTarget.biasScale = 1 := by
    have hprices : oneTarget.unitPrices = [1 / 4] := by
      show [(1 / 4 : ℝ) / oneTarget.realHours] = [1 / 4]
      rw [oneTarget_realHours, div_one]
    rw [biasScale, hprices]
    norm_num
  obtain ⟨-, hle⟩ := hcosts v v hcomposed hplain
  rw [hmoved, hscale] at hle
  exact ⟨m, v, v, hm, hcomposed, hplain, hmoved, hle⟩

end Problem

end Dispatch
