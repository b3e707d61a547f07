import Dispatch.Proofs.Exact.Bounded
import Dispatch.Proofs.Plan.Reading
import Dispatch.Proofs.Program.CostSplit
import Dispatch.Proofs.Run.ReadBack

/-! # Answers with infinities, and with values that are no numbers

* `Plan.readFlow_bounded`, `Plan.readFlow_nan`: no flow is read from an infinity, but `nan` is.
* `Plan.linked_eq_true`, `Plan.linked_inf`: which values the check of a link lets pass.
* `Screened`: what the checks leave of the values of an answer.
* `Schedule.ReadFrom.screened`: the values of every schedule are so.

A comparison with `nan` answers `false`, so a check that asks for a violation lets it pass, and a check
that asks for the limit to hold does not.
-/

namespace Dispatch
set_option autoImplicit false

open Exact Scalar

namespace Plan

/-- Only real numbers are ever taken for zero. -/
theorem clean_cases (t : ℝ) (x : Exact) :
    clean (num t) x = x ∨ Scalar.isFinite x = true ∧ clean (num t) x = 0 := by
  cases x with
  | num y =>
    rw [clean]
    split_ifs
    · exact .inr ⟨rfl, rfl⟩
    · exact .inl rfl
  | inf | negInf | nan => exact .inl rfl

theorem isFinite_clean (t : ℝ) (x : Exact) :
    Scalar.isFinite (clean (num t) x) = Scalar.isFinite x := by
  rcases clean_cases t x with h | ⟨h, h0⟩
  · rw [h]
  · rw [h, h0]
    rfl

theorem bounded_clean (t : ℝ) {x : Exact} (h : x.Bounded) : (clean (num t) x).Bounded := by
  rcases clean_cases t x with hclean | ⟨-, hclean⟩
  · rwa [hclean]
  · rw [hclean]
    exact ⟨nofun, nofun⟩

theorem clean_eq_nan {t : ℝ} {x : Exact} : clean (num t) x = nan ↔ x = nan := by
  rcases clean_cases t x with h | ⟨h, h0⟩
  · rw [h]
  · rw [h0]
    refine iff_of_false nofun ?_
    rintro rfl
    cases h

/-! ## Flows -/

/-- No infinity passes the checks of a flow: one of the wrong sign is refused at once, one of the right
sign beside an infinity or beside `nan` counts as both halves flowing, and beside a number it leaves
the band. -/
theorem bounded_of_flow {up down : Exact} {t a b slack low high : ℝ}
    (hup : Scalar.lt up (num a) = false) (hdown : gt down (num b) = false)
    (hboth : gt (minNum up (-down)) (num slack) = false)
    (hlow : Scalar.lt (clean (num t) (up + down)) (num low) = false)
    (hhigh : gt (clean (num t) (up + down)) (num high) = false) : up.Bounded ∧ down.Bounded := by
  have hinf : clean (num t) inf = inf := rfl
  have hnegInf : clean (num t) negInf = negInf := rfl
  cases up with
  | num x =>
    cases down with
    | num y => exact ⟨⟨nofun, nofun⟩, nofun, nofun⟩
    | inf => cases hdown
    | negInf =>
      rw [num_add_negInf, hnegInf] at hlow
      cases hlow
    | nan => exact ⟨⟨nofun, nofun⟩, nofun, nofun⟩
  | inf =>
    cases down with
    | num y =>
      rw [Exact.add_comm, num_add_inf, hinf] at hhigh
      cases hhigh
    | inf => cases hdown
    | negInf | nan => cases hboth
  | negInf => cases hup
  | nan =>
    cases down with
    | num y => exact ⟨⟨nofun, nofun⟩, nofun, nofun⟩
    | inf => cases hdown
    | negInf => cases hboth
    | nan => exact ⟨⟨nofun, nofun⟩, nofun, nofun⟩

/-- A flow was read from halves that are no infinities. -/
theorem readFlow_bounded {d : Device Exact} {len j : ℕ} (h : d.Sound len) (hj : j < len) {t : ℝ}
    {c : DeviceColumns} {values : Assignment Exact} {x : Exact}
    (hread : readFlow (num t) d c values j = .ok x) :
    ∃ up down, values (c.up.getD j 0) = some up ∧ values (c.down.getD j 0) = some down ∧
      up.Bounded ∧ down.Bounded ∧ x = clean (num t) (up + down) := by
  rw [readFlow] at hread
  simp only [Checked.bind_eq_ok, valueOf_eq_ok, flowSlack_eq h, reject, Checked.guardThen_eq_ok,
    Checked.pure_eq_ok] at hread
  obtain ⟨up, hup, down, hdown, hsign, hboth, hband, rfl⟩ := hread
  rw [h.powerMin_eq j hj, h.powerMax_eq j hj, num_sub, num_add] at hband
  rw [num_neg] at hsign
  rw [Bool.or_eq_true, not_or, Bool.not_eq_true, Bool.not_eq_true] at hsign hband
  obtain ⟨hupBounded, hdownBounded⟩ := bounded_of_flow hsign.1 hsign.2
    (Bool.not_eq_true _ ▸ hboth) hband.1 hband.2
  exact ⟨up, down, hup, hdown, hupBounded, hdownBounded, rfl⟩

/-- No check of a flow finds fault with `nan`. -/
theorem readFlow_nan {tolerance : Exact} {d : Device Exact} {c : DeviceColumns}
    {values : Assignment Exact} {j : ℕ} (hup : values (c.up.getD j 0) = some nan)
    (hdown : values (c.down.getD j 0) = some nan) : readFlow tolerance d c values j = .ok nan := by
  have hlt (x : Exact) : Scalar.lt nan x = false := by cases x <;> rfl
  have hgt (x : Exact) : gt nan x = false := by cases x <;> rfl
  have hclean : clean tolerance nan = nan := by
    show (if Scalar.lt nan tolerance = true then 0 else nan) = nan
    rw [hlt, if_neg Bool.false_ne_true]
  have hmin : minNum nan (-nan) = nan := rfl
  rw [readFlow]
  simp only [Checked.bind_eq_ok, valueOf_eq_ok, reject, Checked.guardThen_eq_ok, Checked.pure_eq_ok]
  refine ⟨nan, hup, nan, hdown, ?_⟩
  rw [nan_add, hclean, hmin]
  simp only [hlt, hgt, Bool.or_self, Bool.false_eq_true, not_false_eq_true, true_and]

/-! ## Links -/

/-- The slack of a link for values that add up to `total`. -/
noncomputable def linkSlack (t : ℝ) (total : Exact) : Exact := num t * total * Scalar.ofNat 10

theorem linkSlack_nan (t : ℝ) : linkSlack t nan = nan := rfl

theorem linkSlack_negInf {t : ℝ} (ht : 0 < t) : linkSlack t negInf = negInf := by
  rw [linkSlack, scale_negInf ht, ofNat_eq]
  exact negInf_mul_num (by norm_num)

/-- A link holds only within a slack that is a number or infinity. -/
theorem linked_total {t : ℝ} (ht : 0 < t) {grouping : Grouping} {scope up down : Exact} {q : ℝ}
    (h : linked (num t) grouping scope (num q) up down = true) {total : Exact}
    (htotal : 1 + Scalar.abs scope + Scalar.abs (num q) + up + down = total) :
    total ≠ nan ∧ total ≠ negInf := by
  cases grouping with
  | each =>
    change Scalar.abs (scope - num q - up + down) ≤ linkSlack t _ at h
    rw [htotal] at h
    constructor
    · rintro rfl
      exact not_le_nan _ h
    · rintro rfl
      rw [linkSlack_negInf ht] at h
      exact not_abs_le_negInf _ h
  | any =>
    obtain ⟨hover, hunder⟩ := Bool.and_eq_true_iff.mp h
    change scope - num q ≤ up + linkSlack t _ at hover
    change num q - scope ≤ down + linkSlack t _ at hunder
    rw [htotal] at hover hunder
    constructor
    · rintro rfl
      rw [linkSlack_nan, add_nan] at hover
      exact not_le_nan _ hover
    · rintro rfl
      rw [linkSlack_negInf ht] at hover hunder
      -- What is measured cannot lie infinitely far both below and above the baseline.
      have hbelow := eq_negInf_of_le_add hover
      have habove := eq_negInf_of_le_add hunder
      cases scope with
      | num x | inf | nan => cases hbelow
      | negInf => cases habove

/-- A deviation of infinity passes where numbers are measured. -/
theorem linked_inf {t : ℝ} (ht : 0 < t) (x q down : ℝ) :
    linked (num t) .each (num x) (num q) inf (num down) = true := by
  have hslack : num t * inf * Scalar.ofNat 10 = inf := by
    rw [scale_inf ht, ofNat_eq]
    exact inf_mul_num (by norm_num)
  show Scalar.le inf (num t * inf * Scalar.ofNat 10) = true
  rw [hslack]
  rfl

/-- Neither `nan` nor a deviation of minus infinity passes the check of a link. -/
theorem linked_eq_true {t : ℝ} (ht : 0 < t) {grouping : Grouping} {scope up down : Exact} {q : ℝ}
    (h : linked (num t) grouping scope (num q) up down = true) :
    scope ≠ nan ∧ (up ≠ nan ∧ up ≠ negInf) ∧ down ≠ nan ∧ down ≠ negInf := by
  obtain ⟨hnan, hneg⟩ := linked_total ht h rfl
  have hends (x : Exact) (hx : x + negInf = negInf ∨ x + negInf = nan)
      (heq : x + negInf = 1 + Scalar.abs scope + Scalar.abs (num q) + up + down) : False :=
    hx.elim (fun hx => hneg (heq ▸ hx)) fun hx => hnan (heq ▸ hx)
  refine ⟨?_, ⟨?_, ?_⟩, ?_, ?_⟩
  · rintro rfl
    refine hnan ?_
    show 1 + nan + Scalar.abs (num q) + up + down = nan
    rw [add_nan, nan_add, nan_add, nan_add]
  · rintro rfl
    exact hnan (by rw [add_nan, nan_add])
  · rintro rfl
    refine hends (1 + Scalar.abs scope + Scalar.abs (num q) + down) (add_negInf _) ?_
    rw [Exact.add_assoc, Exact.add_comm down, ← Exact.add_assoc]
  · rintro rfl
    exact hnan (add_nan _)
  · rintro rfl
    exact hends _ (add_negInf _) rfl

end Plan

/-! ## Whole answers -/

/-- A commitment is on the flow of this device, or on its level, in this slot. -/
def Problem.Measures {α : Type} (p : Problem α) (kind : CommitmentKind) (i j : ℕ) : Prop :=
  ∃ c ∈ p.commitments, c.kind = kind ∧ p.committed? c = some i ∧ j ∈ c.activeSlots

/-- What the checks leave of the values of an answer. -/
structure Screened (p : Problem Exact) (h : Handles Exact) (values : Assignment Exact) : Prop where
  half : ∀ (i : ℕ) (d : Device Exact) (c : DeviceColumns), p.devices[i]? = some d →
    h.devices[i]? = some c → ∀ j < p.len, ∀ column, column = c.up.getD j 0 ∨ column = c.down.getD j 0 →
    ∃ x, values column = some x ∧ x.Bounded ∧ (d.onSite = true ∨ p.Measures .flow i j → x ≠ nan)
  level : ∀ (i : ℕ) (c : DeviceColumns) (levels : List ℕ), h.devices[i]? = some c →
    c.stock = some levels → ∀ (j column : ℕ), levels[j]? = some column →
    ∃ x, values column = some x ∧ (p.Measures .stock i j → x ≠ nan)
  deviation : ∀ column ∈ h.deviations,
    (values column).getD 0 ≠ nan ∧ (values column).getD 0 ≠ negInf

theorem SiteLimits.ne_nan_of_contains {s : SiteLimits Exact} {j : ℕ} {flow room : Exact}
    (h : s.contains j flow room = true) : flow ≠ nan := by
  rintro rfl
  exact not_le_nan _ (Bool.and_eq_true_iff.mp h).1

namespace Schedule.ReadFrom
variable {s : Schedule Exact} {p : Problem Exact} {m : Model Exact} {margin t : ℝ}
  {o : Objective Exact} {values : Assignment Exact} {plans : List (DevicePlan Exact)}

theorem halves (hread : s.ReadFrom p m.handles o (num t) values plans) (hp : p.Sound)
    (hb : m.Built p (num margin)) {i : ℕ} {d : Device Exact} {c : DeviceColumns}
    (hd : p.devices[i]? = some d) (hc : m.handles.devices[i]? = some c) {j : ℕ} (hj : j < p.len) :
    ∃ up down, values (c.up.getD j 0) = some up ∧ values (c.down.getD j 0) = some down ∧
      up.Bounded ∧ down.Bounded ∧ Plan.powerOf plans i j = Plan.clean (num t) (up + down) := by
  obtain ⟨c', plan, hc', hplan, htold, -⟩ := hread.device hb.devices.length_eq.symm hd
  obtain rfl := Option.some.inj (hc.symm.trans hc')
  obtain ⟨up, down, hup, hdown, hupBounded, hdownBounded, hpower⟩ :=
    Plan.readFlow_bounded (hp.device_of_get hd) hj ((Plan.powers_of_readDevice htold).2 j hj)
  refine ⟨up, down, hup, hdown, hupBounded, hdownBounded, ?_⟩
  rw [Plan.powerOf, hplan]
  exact hpower

/-- Every level that is told was given, and is told as it was given. -/
theorem levels (hread : s.ReadFrom p m.handles o (num t) values plans)
    (hb : m.Built p (num margin)) {i : ℕ} {c : DeviceColumns} {levels : List ℕ}
    (hc : m.handles.devices[i]? = some c) (hlevels : c.stock = some levels) :
    ∃ plan solved, plans[i]? = some plan ∧ plan.stock = some (solved.map (Plan.clean (num t))) ∧
      List.Forall₂ (fun k x => values k = some x) levels solved := by
  have hi := hb.devices.length_eq ▸ (List.getElem?_eq_some_iff.mp hc).1
  have hd := List.getElem?_eq_getElem hi
  obtain ⟨c', plan, hc', hplan, htold, -⟩ := hread.device hb.devices.length_eq.symm hd
  obtain rfl := Option.some.inj (hc.symm.trans hc')
  have hstock := (hb.device_shape hd hc).stock
  rw [hlevels] at hstock
  obtain ⟨stock, hs⟩ := Option.isSome_iff_exists.mp hstock.symm
  obtain ⟨told, htoldStock, hreadStock⟩ := Plan.levels_of_readDevice htold hs hlevels
  obtain ⟨⟨solved, hsolved, rfl⟩, -⟩ := Plan.readStock_eq_ok.mp hreadStock
  exact ⟨plan, solved, hplan, htoldStock, hsolved⟩

theorem power_bounded (hread : s.ReadFrom p m.handles o (num t) values plans) (hp : p.Sound)
    (hb : m.Built p (num margin)) {i j : ℕ} (hi : i < p.devices.length) (hj : j < p.len) :
    (Plan.powerOf plans i j).Bounded := by
  have hc := List.getElem?_eq_getElem (hb.devices.length_eq ▸ hi)
  obtain ⟨up, down, -, -, hup, hdown, hpower⟩ :=
    hread.halves hp hb (List.getElem?_eq_getElem hi) hc hj
  rw [hpower]
  exact Plan.bounded_clean t (hup.add hdown)

/-- The flow of the site is a number, and with it the flow of every device on site. -/
theorem site_finite (hread : s.ReadFrom p m.handles o (num t) values plans) (hp : p.Sound)
    (hb : m.Built p (num margin)) {j : ℕ} (hj : j < p.len) :
    AllFinite (p.siteMembers.map fun i => Plan.powerOf plans i j) := by
  rw [← isFinite_sum, ← Plan.isFinite_clean t]
  have hbounded : (Plan.clean (num t)
      (Scalar.sum (p.siteMembers.map fun i => Plan.powerOf plans i j))).Bounded := by
    refine Plan.bounded_clean t (bounded_sum fun x hx => ?_)
    obtain ⟨i, hi, rfl⟩ := List.mem_map.mp hx
    obtain ⟨d, hd, -⟩ := Problem.mem_siteMembers.mp hi
    exact hread.power_bounded hp hb (List.getElem?_eq_some_iff.mp hd).1 hj
  refine hbounded.finite ?_
  by_cases hempty : p.siteMembers = []
  · rw [hempty, Ne, Plan.clean_eq_nan]
    nofun
  · have hinside := Plan.checkSite_iff.mp (Plan.check_iff.mp hread.checked).1 hempty j hj
    have hflow : valueAt (Plan.siteFlows p (num t) plans) j = Plan.clean (num t)
        (Scalar.sum (p.siteMembers.map fun i => Plan.powerOf plans i j)) := valueAt_range hj _
    rw [← hflow]
    exact SiteLimits.ne_nan_of_contains hinside

/-- What a commitment measures is not `nan`, where it has a baseline. -/
theorem scope_ne_nan (hread : s.ReadFrom p m.handles o (num t) values plans) (ht : 0 < t)
    (hp : p.Sound) (hb : m.Built p (num margin)) {c : Commitment Exact} (hc : c ∈ p.commitments)
    {j : ℕ} (hj : j ∈ c.activeSlots) :
    Plan.scope p m.handles values (Plan.ofDevices p (num t) plans) c j ≠ nan := by
  obtain ⟨columns, hmem, hcolumns⟩ := exists_of_mem_left hb.commitments hc
  obtain ⟨group, hgroup, hslot⟩ := Commitment.exists_group_of_active hj
  obtain ⟨g, hg, hshape⟩ := exists_of_mem_left hcolumns.groups hgroup
  have hlinked := Plan.checkLinks_iff.mp (Plan.check_iff.mp hread.checked).2 c columns hmem g
    (List.of_mem_zip hg).2 j (hshape.slots.symm ▸ hslot)
  rw [(hp.commitment c hc).baseline_eq j hj] at hlinked
  exact (Plan.linked_eq_true ht hlinked).1

/-- The flow of a device is a number where it counts towards the site or is committed. -/
theorem power_finite (hread : s.ReadFrom p m.handles o (num t) values plans) (ht : 0 < t)
    (hp : p.Sound) (hb : m.Built p (num margin)) {i : ℕ} {d : Device Exact}
    (hd : p.devices[i]? = some d) {j : ℕ} (hj : j < p.len)
    (h : d.onSite = true ∨ p.Measures .flow i j) :
    Scalar.isFinite (Plan.powerOf plans i j) = true := by
  rcases h with hsite | ⟨c, hc, hkind, hdevice, hactive⟩
  · exact hread.site_finite hp hb hj _
      (List.mem_map.mpr ⟨i, Problem.mem_siteMembers.mpr ⟨d, hd, hsite⟩, rfl⟩)
  · have hscope := hread.scope_ne_nan ht hp hb hc hactive
    rw [Plan.scope, hkind, hdevice] at hscope
    exact (hread.power_bounded hp hb (List.getElem?_eq_some_iff.mp hd).1 hj).finite hscope

theorem deviation (hread : s.ReadFrom p m.handles o (num t) values plans) (ht : 0 < t)
    (hp : p.Sound) (hb : m.Built p (num margin)) {column : ℕ} (h : column ∈ m.handles.deviations) :
    (values column).getD 0 ≠ nan ∧ (values column).getD 0 ≠ negInf := by
  obtain ⟨x, hx, rfl⟩ := List.mem_map.mp h
  obtain ⟨columns, hcolumns, hgroups⟩ := List.mem_flatMap.mp hx
  obtain ⟨g, hg, hpair⟩ := List.mem_flatMap.mp hgroups
  obtain ⟨c, hmem, -⟩ := exists_of_mem_right hb.commitments hcolumns
  have hsound := hp.commitment c (List.of_mem_zip hmem).1
  obtain ⟨group, hgroup, hshape⟩ := hb.exists_group hmem hg
  have hgroup := (List.of_mem_zip hgroup).1
  obtain ⟨j, hj⟩ := List.exists_mem_of_ne_nil _ (hsound.slots_ne_nil hgroup)
  have hlinked := Plan.checkLinks_iff.mp (Plan.check_iff.mp hread.checked).2 c _ hmem g hg j
    (hshape.slots.symm ▸ hj)
  rw [hsound.baseline_eq j (hsound.mem_activeSlots_of_group hgroup hj)] at hlinked
  obtain ⟨-, hup, hdown⟩ := Plan.linked_eq_true ht hlinked
  rcases List.mem_cons.mp hpair with rfl | hpair
  · exact hup
  · obtain rfl := List.mem_singleton.mp hpair
    exact hdown

/-- No value of an answer that became a schedule is other than this. -/
theorem screened (hread : s.ReadFrom p m.handles o (num t) values plans) (ht : 0 < t)
    (hp : p.Sound) (hb : m.Built p (num margin)) : Screened p m.handles values := by
  refine ⟨fun i d c hd hc j hj column hcolumn => ?_, fun i c levels hc hlevels j k hk => ?_,
    fun column => hread.deviation ht hp hb⟩
  · obtain ⟨up, down, hup, hdown, hupBounded, hdownBounded, hpower⟩ := hread.halves hp hb hd hc hj
    have hfinite (h : d.onSite = true ∨ p.Measures .flow i j) :
        Scalar.isFinite up = true ∧ Scalar.isFinite down = true := by
      rw [← isFinite_add, ← Plan.isFinite_clean t, ← hpower]
      exact hread.power_finite ht hp hb hd hj h
    rcases hcolumn with rfl | rfl
    · refine ⟨up, hup, hupBounded, fun h => ?_⟩
      rintro rfl
      exact Bool.false_ne_true (hfinite h).1
    · refine ⟨down, hdown, hdownBounded, fun h => ?_⟩
      rintro rfl
      exact Bool.false_ne_true (hfinite h).2
  · obtain ⟨plan, solved, -, -, hsolved⟩ := hread.levels hb hc hlevels
    obtain ⟨hlen, hsolved⟩ := List.forall₂_iff_get.mp hsolved
    obtain ⟨hj, rfl⟩ := List.getElem?_eq_some_iff.mp hk
    refine ⟨_, hsolved j hj (hlen ▸ hj), ?_⟩
    rintro ⟨commitment, hcommitment, hkind, hdevice, hactive⟩ hnan
    refine hread.scope_ne_nan ht hp hb hcommitment hactive ?_
    have hlevel : (m.handles.devices.getD i .empty).stock = some levels := by
      rw [List.getD_eq_getElem?_getD, hc, Option.getD_some, hlevels]
    have hvalue : values levels[j] = some nan := hnan ▸ hsolved j hj (hlen ▸ hj)
    simp only [Plan.scope, hkind, hdevice, hlevel, List.getD_eq_getElem _ _ hj, hvalue,
      Option.getD_some]

end Schedule.ReadFrom

end Dispatch
