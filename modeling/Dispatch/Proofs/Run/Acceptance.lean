import Dispatch.Proofs.Program.Exactness
import Dispatch.Proofs.Run.Reported

/-! # Feasible answers become schedules

* `feasible_scheduled`: values that fit the program exactly are scheduled, where the room of the checks
  absorbs what rounding loses.
* `lamps`: eleven devices that draw less than the tolerance; together they draw more than the room of a
  commitment on the site, and the answer is refused though it fits.

The room of the site grows with its devices, that of the commitments on its flow does not.
-/

namespace Dispatch
set_option autoImplicit false

open Exact Scalar

/-- Values that fit the program exactly become a schedule, if no limit of the problem is out of reach and
the room of the checks absorbs what rounding loses. -/
theorem feasible_scheduled {σ : Type} {settings : SolveSettings Exact} {t margin : ℝ} (ht : 0 ≤ t)
    (htolerance : settings.tolerance = num t) (hmargin : 0 ≤ margin)
    (hsettings : settings.margin = num margin) {p : Problem Exact} (hgrid : p.grid.Made)
    (hrepresentable : p.grid.Representable) (hcheck : p.check = .ok ()) (hopen : p.Attainable)
    (habsorbs : p.Absorbs t) :
    ∃ m, p.model settings.margin = .ok m ∧
      let program := m.program (Objective.compose p m.handles settings.tieBreak)
      ∀ v : ℕ → ℝ, program.feasible (fun i => num (v i)) = true →
        ∀ (solver : Solver Exact σ) (world : World σ) (state : Option RunState),
          HandsBack settings solver world program (fun i => some (num (v i))) →
          ∃ s, outcome settings solver p state world = .ok s := by
  have hp := Problem.sound_of_check hcheck
  obtain ⟨m, hm, hb⟩ := Problem.exists_built hcheck hmargin
  rw [← hsettings] at hm
  refine ⟨m, hm, ?_⟩
  intro program v hv solver world state hback
  obtain ⟨held, site, commitments⟩ := (hb.feasible_iff _ _).mp hv
  have hpass := hb.passes_of_held hp hgrid.realHours_pos.le ht hopen habsorbs held site commitments
  exact ⟨_, (outcome_eq_ok htolerance hm hback).mpr ⟨⟨hpass, hrepresentable⟩, rfl⟩⟩

namespace Problem

theorem battery_wide : ∀ d ∈ oneBattery.devices, d.Wide oneBattery.len := by
  intro d hd j hj
  obtain rfl : d = battery := List.mem_singleton.mp hd
  obtain rfl : j = 0 := Nat.lt_one_iff.mp hj
  exact ⟨.inr (le_refl (1 : ℝ)), .inr (le_refl (-1 : ℝ))⟩

theorem oneBattery_attainable : oneBattery.Attainable := by
  refine ⟨fun d hd s hs j hj => ?_, fun _ j hj => ?_⟩
  · obtain rfl : d = battery := List.mem_singleton.mp hd
    obtain rfl : batteryStock = s := Option.some.inj hs
    obtain rfl : j = 0 := Nat.lt_one_iff.mp hj
    exact ⟨nofun, nofun⟩
  · obtain rfl : j = 0 := Nat.lt_one_iff.mp hj
    exact ⟨nofun, nofun⟩

/-- What a battery that stands still makes feasible is scheduled. -/
theorem oneBattery_scheduled : ∃ m v s,
    oneBattery.model (SolveSettings.standard : SolveSettings Exact).margin = .ok m ∧
    (m.program (Objective.compose oneBattery m.handles TieBreak.standard)).feasible
      (fun i => num (v i)) = true ∧
    outcome .standard (answering (.full v)) oneBattery none (.ofSlots .unlimited ()) = .ok s := by
  have hp := sound_of_check oneBattery_check
  have hhours := oneHour_made.realHours_pos.le
  have hmargin : (0 : ℝ) ≤ 1 / 10 ^ 1 := by norm_num
  have htolerance : (0 : ℝ) ≤ 1 / 10 ^ 6 := by norm_num
  obtain ⟨m, hm, hscheduled⟩ := feasible_scheduled (σ := Unit) htolerance standard_tolerance hmargin
    standard_margin oneHour_made (by decide) oneBattery_check oneBattery_attainable
    (hp.absorbs_of_wide hhours htolerance battery_wide (by decide))
  have hb := built_of_model hm
  rw [standard_margin] at hb
  obtain ⟨v, held, site, -⟩ := hb.exists_held hp hmargin oneBattery_admits_idle
  obtain ⟨w, -, hfeasible, -⟩ := hb.exists_completion hp hhours hmargin held site
  obtain ⟨s, hs⟩ := hscheduled w (hfeasible _) (answering (.full w)) (.ofSlots .unlimited ()) none
    (answering_handsBack (.full w) _ (by decide) (by decide))
  exact ⟨m, w, s, hm, hfeasible _, hs⟩

/-! ## Eleven lamps -/

/-- A device that draws up to 1. -/
noncomputable def lamp (id : String) : Device Exact := .flexible id [num 0] [num 1]

noncomputable def lamps : Problem Exact where
  grid := oneHour
  devices := ["a", "b", "c", "d", "e", "f", "g", "h", "i", "j", "k"].map lamp
  commitments := [importPrice 1]
  site := .unbounded 1

theorem lamp_check (id : String) : (lamp id).check 1 = .ok () := by
  refine Device.check_eq_ok.mpr ⟨⟨rfl, rfl⟩, fun j hj => ?_, nofun⟩
  have hle : ¬(1 : ℝ) < 0 := by norm_num
  simp [Nat.lt_one_iff.mp hj, Device.checkSlot, lamp, Device.flexible, valueAt, hle]

theorem lamps_check : lamps.check = .ok () := by
  refine check_eq_ok.mpr ⟨one_ne_zero, List.cons_ne_nil _ _, checkDevices_eq_ok.mpr
    ⟨fun _ _ => List.not_mem_nil, ?_, fun d hd => ?_⟩, SiteLimits.unbounded_check 1, fun c hc => ?_⟩
  · rw [lamps, List.map_map]
    decide
  · obtain ⟨id, -, rfl⟩ := List.mem_map.mp hd
    exact lamp_check id
  · rw [List.mem_singleton.mp hc]
    exact ⟨importPrice_check 1, rfl⟩

theorem lamps_attainable : lamps.Attainable := by
  refine ⟨fun d hd s hs => ?_, fun _ j hj => ?_⟩
  · obtain ⟨id, -, rfl⟩ := List.mem_map.mp hd
    cases hs
  · obtain rfl : j = 0 := Nat.lt_one_iff.mp hj
    exact ⟨nofun, nofun⟩

/-- Every lamp draws a little less than a millionth. -/
theorem lamps_admits : lamps.Admits fun _ _ => 95 / 10 ^ 8 := by
  refine ⟨fun i d hd j hj => ?_, fun i d s hd hs => ?_, fun _ j hj => ?_⟩
  · obtain ⟨id, -, rfl⟩ := List.mem_map.mp (List.mem_of_getElem? hd)
    obtain rfl : j = 0 := Nat.lt_one_iff.mp hj
    exact ⟨(num_le_num 0 _).mpr (by norm_num), (num_le_num _ 1).mpr (by norm_num)⟩
  · obtain ⟨id, -, rfl⟩ := List.mem_map.mp (List.mem_of_getElem? hd)
    cases hs
  · obtain rfl : j = 0 := Nat.lt_one_iff.mp hj
    exact ⟨negInf_le_num _, num_le_inf _⟩

theorem lamps_siteFlow {flow : ℕ → ℕ → ℝ} {x : ℝ}
    (h : ∀ i < lamps.devices.length, flow i 0 = x) : lamps.siteFlow flow 0 = 11 * x := by
  have hsame : lamps.siteFlow flow 0 = lamps.siteFlow (fun _ _ => x) 0 := siteFlow_congr h
  rw [hsame]
  show x + (x + (x + (x + (x + (x + (x + (x + (x + (x + (x + 0)))))))))) = _
  ring

theorem lamps_sitePower {m : Model Exact} {v : ℕ → ℝ}
    (h : ∀ i < lamps.devices.length, m.handles.flow v i 0 = 95 / 10 ^ 8) :
    m.handles.sitePower lamps (1 / 10 ^ 6) (.full v) 0 = 0 := by
  have hsum : lamps.siteFlow (m.handles.power (1 / 10 ^ 6) (.full v)) 0 = 11 * 0 :=
    lamps_siteFlow fun i hi => by
      refine cleaned_of_lt ?_
      show |m.handles.flow v i 0| < 1 / 10 ^ 6
      rw [h i hi]
      norm_num
  rw [Handles.sitePower, hsum, mul_zero, cleaned, ite_self]

/-- The lamps have one pair of deviations. At the cost of the plan it holds what they draw. -/
theorem lamps_pair {margin : ℝ} {m : Model Exact} (hb : m.Built lamps (num margin)) (hp : lamps.Sound)
    {v : ℕ → ℝ} (hflow : ∀ i < lamps.devices.length, m.handles.flow v i 0 = 95 / 10 ^ 8)
    (held : CommitmentsHeld lamps (num margin) m.handles fun i => num (v i))
    (hcost : m.handles.deviationCost v = 1045 / 10 ^ 8) :
    ∃ cols g, (importPrice 1, cols) ∈ lamps.commitments.zip m.handles.commitments ∧ g ∈ cols.groups ∧
      0 ∈ g.slots ∧ v g.up = 1045 / 10 ^ 8 ∧ v g.down = 0 := by
  obtain ⟨cols, rest, hshape, hrest, hcols⟩ := List.forall₂_cons_left_iff.mp hb.commitments
  obtain rfl := List.forall₂_nil_left_iff.mp hrest
  obtain ⟨g, rest, hgshape, hrest, hg⟩ := List.forall₂_cons_left_iff.mp hshape.groups
  obtain rfl := List.forall₂_nil_left_iff.mp hrest
  have hmem : (importPrice 1, cols) ∈ lamps.commitments.zip m.handles.commitments := by
    rw [hcols]
    exact List.mem_cons_self
  have hzip : (⟨[0], num 1, num 1⟩, g) ∈ (importPrice 1).groups.zip cols.groups := by
    rw [hg]
    exact List.mem_cons_self
  have fits := (hb.commitmentsHeld_iff hp).mp held _ cols hmem _ g hzip
  have haccounts : lamps.siteFlow (m.handles.flow v) 0 - v g.up + v g.down = 0 :=
    fits.accounts 0 (List.mem_singleton_self 0)
  rw [lamps_siteFlow hflow] at haccounts
  have hsum : m.handles.deviationCost v = v g.up + v g.down := by
    rw [Handles.deviationCost, hcols, List.map_singleton, hg, List.map_singleton, hgshape.upPrice,
      hgshape.downPrice]
    show 1 * v g.up + 1 * v g.down + 0 + 0 = _
    ring
  refine ⟨cols, g, hmem, hg ▸ List.mem_singleton_self g, ?_, ?_, ?_⟩
  · rw [hgshape.slots]
    exact List.mem_singleton_self 0
  · linarith
  · linarith

/-- Rounded, the lamps draw nothing, which their deviations do not account for. -/
theorem lamps_not_passes {margin : ℝ} {m : Model Exact} (hb : m.Built lamps (num margin))
    (hp : lamps.Sound) {v : ℕ → ℝ}
    (hflow : ∀ i < lamps.devices.length, m.handles.flow v i 0 = 95 / 10 ^ 8)
    (held : CommitmentsHeld lamps (num margin) m.handles fun i => num (v i))
    (hcost : m.handles.deviationCost v = 1045 / 10 ^ 8) :
    ¬(Answer.full v).Passes lamps m.handles (1 / 10 ^ 6) := by
  intro hpass
  obtain ⟨cols, g, hmem, hg, hslot, hup, hdown⟩ := lamps_pair hb hp hflow held hcost
  have hlink := hpass.link _ cols hmem g hg 0 hslot
  have hmeasured : m.handles.measured lamps (1 / 10 ^ 6) (.full v) (importPrice 1) 0 = 0 :=
    lamps_sitePower hflow
  rw [hmeasured, Answer.filled_full, hup, hdown] at hlink
  have hclose : |(0 : ℝ) - 0 - 1045 / 10 ^ 8 + 0| ≤ linkRoom (1 / 10 ^ 6) 0 0 (1045 / 10 ^ 8) 0 := hlink
  rw [linkRoom] at hclose
  norm_num [abs_of_neg] at hclose

theorem lamps_planCost {flow level : ℕ → ℕ → ℝ}
    (h : ∀ i < lamps.devices.length, flow i 0 = 95 / 10 ^ 8) :
    lamps.planCost flow level = 1045 / 10 ^ 8 := by
  show (1 * max (lamps.siteFlow flow 0 - 0) 0 + 1 * max (0 - lamps.siteFlow flow 0) 0 + 0) + 0 = _
  rw [lamps_siteFlow h, max_eq_left (by norm_num), max_eq_right (by norm_num)]
  norm_num

/-- Values that fit the program of the lamps exactly are refused. -/
theorem lamps_refused :
    lamps.grid.Made ∧ lamps.grid.Representable ∧ lamps.check = .ok () ∧ lamps.Attainable ∧
      ∃ m v e, lamps.model (SolveSettings.standard : SolveSettings Exact).margin = .ok m ∧
        (m.program (Objective.compose lamps m.handles TieBreak.standard)).feasible
          (fun i => num (v i)) = true ∧
        outcome .standard (answering (.full v)) lamps none (.ofSlots .unlimited ()) = .error e ∧
        e.IsRefusal := by
  have hp := sound_of_check lamps_check
  have hmargin : (0 : ℝ) ≤ 1 / 10 ^ 1 := by norm_num
  obtain ⟨m, hm, hb⟩ := exists_built lamps_check hmargin
  obtain ⟨v, held, site, hflow⟩ := hb.exists_held hp hmargin lamps_admits
  obtain ⟨w, hagree, hfeasible, hcost⟩ :=
    hb.exists_completion hp oneHour_made.realHours_pos.le hmargin held site
  have hflow' : ∀ i < lamps.devices.length, m.handles.flow w i 0 = 95 / 10 ^ 8 :=
    fun i hi => (hb.flow_congr hagree hi Nat.one_pos).trans (hflow i hi 0 Nat.one_pos)
  obtain ⟨-, -, commitments⟩ :=
    (hb.feasible_iff (Objective.compose lamps m.handles .standard) _).mp (hfeasible _)
  have hfails := lamps_not_passes hb hp hflow' commitments
    (hcost.trans (lamps_planCost fun i hi => hflow i hi 0 Nat.one_pos))
  rw [← standard_margin] at hm
  have hrefused : ∃ e, outcome .standard (answering (.full w)) lamps none
      (.ofSlots .unlimited ()) = .error e ∧ e.IsRefusal :=
    outcome_refused standard_tolerance hm (answering_handsBack (.full w) _ (by decide) (by decide)) (by decide)
      hfails
  obtain ⟨e, he, hrefusal⟩ := hrefused
  exact ⟨oneHour_made, by decide, lamps_check, lamps_attainable, m, w, e, hm,
    hfeasible _, he, hrefusal⟩

end Problem

end Dispatch
