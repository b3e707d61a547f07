import Dispatch.Program.Build
import Dispatch.Proofs.Problem.Plans

/-! # What a plan costs

* `Problem.measured`: what a commitment measures, under given flows and levels.
* `Commitment.costOf`: what the deviations from a commitment cost, each in its own slot or the worst
  one on either side.
* `Problem.planCost`: the costs of all commitments together.
* `DeviationGroup.cost`: the cost of one group; those of a commitment add up to its cost.
* `Sound.abs_measured_le`: nothing measured is larger than the bound that selectors are built with.
* `Problem.costFloor`: no plan within the bands of the devices costs less.
-/

namespace Dispatch
set_option autoImplicit false

open Exact Scalar

/-! ## Costs of a commitment -/

namespace Commitment

noncomputable def meanRate (c : Commitment Exact) (rate : ℕ → ℝ) : ℝ :=
  (c.activeSlots.map rate).sum / c.activeSlots.length

/-- The cost of measuring `x`. -/
noncomputable def costOf (c : Commitment Exact) (x : ℕ → ℝ) : ℝ :=
  match c.grouping with
  | .each => (c.activeSlots.map fun j =>
      c.upRate j * max (x j - c.level j) 0 + c.downRate j * max (c.level j - x j) 0).sum
  | .any =>
    c.meanRate c.upRate * peak (c.activeSlots.map fun j => x j - c.level j) +
      c.meanRate c.downRate * peak (c.activeSlots.map fun j => c.level j - x j)

theorem costOf_congr {c : Commitment Exact} {x y : ℕ → ℝ} (h : ∀ j ∈ c.activeSlots, x j = y j) :
    c.costOf x = c.costOf y := by
  have hmap {β : Type} (f : ℝ → ℕ → β) :
      (c.activeSlots.map fun j => f (x j) j) = c.activeSlots.map fun j => f (y j) j :=
    List.map_congr_left fun j hj => by rw [h j hj]
  rw [costOf, costOf]
  cases c.grouping with
  | each => exact congrArg List.sum (hmap fun x j =>
      c.upRate j * max (x - c.level j) 0 + c.downRate j * max (c.level j - x) 0)
  | any =>
    simp only
    rw [hmap fun x j => x - c.level j, hmap fun x j => c.level j - x]

end Commitment

/-! ## Costs of a group -/

namespace DeviationGroup

noncomputable def excess (g : DeviationGroup Exact) (c : Commitment Exact) (x : ℕ → ℝ) : ℝ :=
  peak (g.slots.map fun j => x j - c.level j)

noncomputable def shortfall (g : DeviationGroup Exact) (c : Commitment Exact) (x : ℕ → ℝ) : ℝ :=
  peak (g.slots.map fun j => c.level j - x j)

noncomputable def cost (g : DeviationGroup Exact) (c : Commitment Exact) (x : ℕ → ℝ) : ℝ :=
  g.upPrice.toReal * g.excess c x + g.downPrice.toReal * g.shortfall c x

end DeviationGroup

namespace Commitment

theorem meanOver_eq {c : Commitment Exact} {prices : List Exact} {rate : ℕ → ℝ}
    (hne : c.activeSlots ≠ []) (h : ∀ j ∈ c.activeSlots, valueAt prices j = num (rate j)) :
    meanOver c.activeSlots prices = num (c.meanRate rate) := by
  have hlen : (c.activeSlots.length : ℝ) ≠ 0 := by
    simpa [List.length_eq_zero_iff] using hne
  rw [meanOver, List.map_congr_left h, sum_map_num, ofNat_eq, num_div _ hlen, meanRate]

/-- A group of its own slot, or the one group of all slots, with its prices in real numbers. -/
theorem Sound.groups_cases {c : Commitment Exact} {len : ℕ} (h : c.Sound len)
    {g : DeviationGroup Exact} (hg : g ∈ c.groups) :
    (c.grouping = .each ∧ ∃ j ∈ c.activeSlots, g = ⟨[j], num (c.upRate j), num (c.downRate j)⟩) ∨
    (c.grouping = .any ∧ c.activeSlots ≠ [] ∧
      g = ⟨c.activeSlots, num (c.meanRate c.upRate), num (c.meanRate c.downRate)⟩) := by
  rw [groups] at hg
  cases hgroup : c.grouping with
  | each =>
    simp only [hgroup] at hg
    obtain ⟨j, hj, rfl⟩ := List.mem_map.mp hg
    exact .inl ⟨rfl, j, hj, by rw [h.upPrice_eq j hj, h.downPrice_eq j hj]⟩
  | any =>
    simp only [hgroup] at hg
    by_cases hne : c.activeSlots = []
    · simp [hne] at hg
    · have hempty : ¬c.activeSlots.isEmpty = true := by simpa using hne
      rw [if_neg hempty, List.mem_singleton] at hg
      refine .inr ⟨rfl, hne, ?_⟩
      rw [hg, meanOver_eq hne h.upPrice_eq, meanOver_eq hne h.downPrice_eq]

theorem Sound.mem_activeSlots_of_group {c : Commitment Exact} {len : ℕ} (h : c.Sound len)
    {g : DeviationGroup Exact} (hg : g ∈ c.groups) {j : ℕ} (hj : j ∈ g.slots) :
    j ∈ c.activeSlots := by
  rcases h.groups_cases hg with ⟨-, i, hi, rfl⟩ | ⟨-, -, rfl⟩
  · exact List.mem_singleton.mp hj ▸ hi
  · exact hj

theorem exists_group_of_active {c : Commitment Exact} {j : ℕ} (hj : j ∈ c.activeSlots) :
    ∃ group ∈ c.groups, j ∈ group.slots := by
  rw [groups]
  cases c.grouping with
  | each => exact ⟨_, List.mem_map.mpr ⟨j, hj, rfl⟩, List.mem_singleton_self j⟩
  | any =>
    have hsome : ¬c.activeSlots.isEmpty = true := by
      rw [List.isEmpty_iff]
      exact List.ne_nil_of_mem hj
    simp only [if_neg hsome]
    exact ⟨_, List.mem_singleton_self _, hj⟩

theorem Sound.slots_ne_nil {c : Commitment Exact} {len : ℕ} (h : c.Sound len)
    {group : DeviationGroup Exact} (hgroup : group ∈ c.groups) : group.slots ≠ [] := by
  rcases h.groups_cases hgroup with ⟨-, j, -, rfl⟩ | ⟨-, hsome, rfl⟩
  · exact List.cons_ne_nil j []
  · exact hsome

theorem Sound.group_prices {c : Commitment Exact} {len : ℕ} (h : c.Sound len)
    {g : DeviationGroup Exact} (hg : g ∈ c.groups) :
    g.upPrice = num g.upPrice.toReal ∧ g.downPrice = num g.downPrice.toReal := by
  rcases h.groups_cases hg with ⟨-, j, -, rfl⟩ | ⟨-, -, rfl⟩
  · exact ⟨rfl, rfl⟩
  · exact ⟨rfl, rfl⟩

/-- Neither price of a group of all slots is negative. -/
theorem Sound.any_prices_nonneg {c : Commitment Exact} {len : ℕ} (h : c.Sound len)
    (hany : c.grouping = .any) {g : DeviationGroup Exact} (hg : g ∈ c.groups) :
    0 ≤ g.upPrice.toReal ∧ 0 ≤ g.downPrice.toReal := by
  obtain ⟨hup, hdown⟩ := h.any_prices hany g hg
  obtain ⟨hupPrice, hdownPrice⟩ := h.group_prices hg
  rw [hupPrice, zero_eq, num_lt, decide_eq_false_iff_not, not_lt] at hup
  rw [hdownPrice, zero_eq, num_lt, decide_eq_false_iff_not, not_lt] at hdown
  exact ⟨hup, hdown⟩

theorem Sound.sum_groups {c : Commitment Exact} {len : ℕ} (h : c.Sound len) (x : ℕ → ℝ) :
    (c.groups.map fun g => g.cost c x).sum = c.costOf x := by
  cases hgroup : c.grouping with
  | each =>
    simp only [groups, costOf, hgroup, List.map_map]
    congr 1
    refine List.map_congr_left fun j hj => ?_
    simp only [Function.comp_apply, DeviationGroup.cost, DeviationGroup.excess,
      DeviationGroup.shortfall, h.upPrice_eq j hj, h.downPrice_eq j hj, toReal_num, List.map_cons,
      List.map_nil, peak_singleton]
  | any =>
    simp only [groups, costOf, hgroup]
    by_cases hne : c.activeSlots = []
    · simp [hne, peak]
    · have hempty : ¬c.activeSlots.isEmpty = true := by simpa using hne
      rw [if_neg hempty, meanOver_eq hne h.upPrice_eq, meanOver_eq hne h.downPrice_eq]
      simp only [List.map_cons, List.map_nil, List.sum_singleton, DeviationGroup.cost,
        DeviationGroup.excess, DeviationGroup.shortfall, toReal_num]

end Commitment

/-! ## What commitments measure -/

namespace Problem

/-- The flow or level of the device of a commitment, or the flow of the site. -/
noncomputable def measured (p : Problem Exact) (c : Commitment Exact) (flow level : ℕ → ℕ → ℝ)
    (j : ℕ) : ℝ :=
  match c.kind, p.committed? c with
  | .flow, some i => flow i j
  | .flow, none => p.siteFlow flow j
  | .stock, some i => level i j
  | .stock, none => 0

/-- The cost of a plan: what all deviations from the commitments cost. -/
noncomputable def planCost (p : Problem Exact) (flow level : ℕ → ℕ → ℝ) : ℝ :=
  (p.commitments.map fun c => c.costOf (p.measured c flow level)).sum

/-- The device of a commitment, with a stock where a level is committed. -/
theorem Sound.committed_device {p : Problem Exact} (h : p.Sound) {c : Commitment Exact}
    (hc : c ∈ p.commitments) {i : ℕ} (hi : p.committed? c = some i) :
    ∃ d, p.devices[i]? = some d ∧ (c.kind = .stock → ∃ s, d.stock = some s) := by
  obtain ⟨id, hid, -⟩ := Option.bind_eq_some_iff.mp hi
  obtain ⟨i', d, hi', hd, -, hstock⟩ := h.refers c hc id hid
  obtain rfl : i' = i := Option.some.inj (hi'.symm.trans hi)
  exact ⟨d, hd, fun hkind => Option.isSome_iff_exists.mp (hstock hkind)⟩

theorem Sound.measured_congr {p : Problem Exact} (h : p.Sound) {c : Commitment Exact}
    (hc : c ∈ p.commitments) {flow flow' level level' : ℕ → ℕ → ℝ} {j : ℕ}
    (hflow : ∀ i < p.devices.length, flow i j = flow' i j)
    (hlevel : ∀ i d s, p.devices[i]? = some d → d.stock = some s → level i j = level' i j) :
    p.measured c flow level j = p.measured c flow' level' j := by
  rw [measured, measured]
  cases hkind : c.kind with
  | flow =>
    cases hi : p.committed? c with
    | none => exact siteFlow_congr hflow
    | some i =>
      obtain ⟨d, hd, -⟩ := h.committed_device hc hi
      exact hflow i (List.getElem?_eq_some_iff.mp hd).1
  | stock =>
    cases hi : p.committed? c with
    | none => rfl
    | some i =>
      obtain ⟨d, hd, hstock⟩ := h.committed_device hc hi
      obtain ⟨s, hs⟩ := hstock hkind
      exact hlevel i d s hd hs

theorem Sound.planCost_congr {p : Problem Exact} (h : p.Sound) {flow flow' level level' : ℕ → ℕ → ℝ}
    (hflow : ∀ i < p.devices.length, ∀ j < p.len, flow i j = flow' i j)
    (hlevel : ∀ i d s, p.devices[i]? = some d → d.stock = some s →
      ∀ j < p.len, level i j = level' i j) : p.planCost flow level = p.planCost flow' level' := by
  rw [planCost, planCost]
  congr 1
  refine List.map_congr_left fun c hc => Commitment.costOf_congr fun j hj => ?_
  have hlt := (h.commitment c hc).slot_lt j hj
  exact h.measured_congr hc (fun i hi => hflow i hi j hlt) fun i d s hd hs => hlevel i d s hd hs j hlt

/-! ## Bounds -/

/-- No value that a commitment measures is larger. -/
noncomputable def measureBound (p : Problem Exact) (c : Commitment Exact) : ℝ :=
  match c.kind, p.committed? c with
  | .flow, some i => ((p.devices[i]?.map Device.bound).getD 0)
  | .flow, none => ((p.devices.filter fun d => d.onSite).map Device.bound).sum
  | .stock, some i =>
    ((p.devices[i]?.bind fun d => d.stock.map fun s => d.reach s p.realHours p.len).getD 0)
  | .stock, none => 0

theorem Sound.scopeBound_eq {p : Problem Exact} (h : p.Sound) {c : Commitment Exact}
    (hc : c ∈ p.commitments) : c.scopeBound p = num (p.measureBound c) := by
  rw [Commitment.scopeBound, measureBound]
  cases hkind : c.kind with
  | flow =>
    cases hi : p.committed? c with
    | none =>
      simp only
      rw [← sum_map_num]
      congr 1
      refine List.map_congr_left fun d hd => ?_
      exact (h.device d (List.mem_filter.mp hd).1).flowBound_eq
    | some i =>
      obtain ⟨d, hd, -⟩ := h.committed_device hc hi
      simp only [hd, Option.map_some, Option.getD_some]
      exact (h.device_of_get hd).flowBound_eq
  | stock =>
    cases hi : p.committed? c with
    | none => rfl
    | some i =>
      obtain ⟨d, hd, hstock⟩ := h.committed_device hc hi
      obtain ⟨s, hs⟩ := hstock hkind
      simp only [hd, hs, Option.map_some, Option.bind_some, Option.getD_some, hours_eq]
      exact (h.device_of_get hd).stockBound_eq hs p.realHours

theorem abs_sum_le {ι : Type} (xs : List ι) (f b : ι → ℝ) (h : ∀ x ∈ xs, |f x| ≤ b x) :
    |(xs.map f).sum| ≤ (xs.map b).sum := by
  induction xs with
  | nil => simp
  | cons x xs ih =>
    have hx := h x List.mem_cons_self
    have hxs := ih fun y hy => h y (List.mem_cons_of_mem _ hy)
    simp only [List.map_cons, List.sum_cons]
    exact (abs_add_le _ _).trans (add_le_add hx hxs)

theorem abs_siteFlow_le {p : Problem Exact} {flow : ℕ → ℕ → ℝ} {j : ℕ}
    (h : ∀ i d, p.devices[i]? = some d → |flow i j| ≤ d.bound) :
    |p.siteFlow flow j| ≤ ((p.devices.filter fun d => d.onSite).map Device.bound).sum := by
  rw [siteFlow, siteMembers, siteDevices_eq, List.map_map, List.map_map]
  refine abs_sum_le _ _ _ fun x hx => ?_
  exact h x.2 x.1 (List.mem_zipIdx_iff_getElem?.mp (List.mem_filter.mp hx).1)

theorem Sound.abs_measured_le {p : Problem Exact} (h : p.Sound) (hhours : 0 ≤ p.realHours)
    {c : Commitment Exact} (hc : c ∈ p.commitments) {flow level : ℕ → ℕ → ℝ}
    (hband : ∀ i (d : Device Exact), p.devices[i]? = some d → ∀ j < p.len, d.InBand j (flow i j))
    (hlevel : ∀ i d s, p.devices[i]? = some d → d.stock = some s →
      ∀ j < p.len, level i j = s.path p.realHours (flow i) (j + 1)) {j : ℕ} (hj : j < p.len) :
    |p.measured c flow level j| ≤ p.measureBound c := by
  have hflow : ∀ i d, p.devices[i]? = some d → |flow i j| ≤ d.bound := fun i d hd =>
    (h.device_of_get hd).abs_flow_le hj (hband i d hd j hj)
  rw [measured, measureBound]
  cases hkind : c.kind with
  | flow =>
    cases hi : p.committed? c with
    | none => exact abs_siteFlow_le hflow
    | some i =>
      obtain ⟨d, hd, -⟩ := h.committed_device hc hi
      simp only [hd, Option.map_some, Option.getD_some]
      exact hflow i d hd
  | stock =>
    cases hi : p.committed? c with
    | none => simp
    | some i =>
      obtain ⟨d, hd, hstock⟩ := h.committed_device hc hi
      obtain ⟨s, hs⟩ := hstock hkind
      have hsound := h.device_of_get hd
      simp only [hd, hs, Option.map_some, Option.bind_some, Option.getD_some]
      rw [hlevel i d s hd hs j hj]
      exact (hsound.abs_path_le hs hhours (hband i d hd) (by omega)).trans
        (hsound.reach_mono hs hhours (by omega) le_rfl)

end Problem

/-! ## The least that a plan can cost -/

namespace Commitment

/-- The opposite of all that deviations could earn while nothing measured is larger than `bound`. -/
noncomputable def costFloor (c : Commitment Exact) (bound : ℝ) : ℝ :=
  -(c.activeSlots.map fun j => (|c.upRate j| + |c.downRate j|) * (bound + |c.level j|)).sum

theorem abs_slotCost_le {r s x q b : ℝ} (hx : |x| ≤ b) :
    |r * max (x - q) 0 + s * max (q - x) 0| ≤ (|r| + |s|) * (b + |q|) := by
  have hreach : |x - q| ≤ b + |q| := (abs_sub x q).trans (add_le_add_left hx _)
  have hexcess : |max (x - q) 0| ≤ b + |q| := (abs_max_le_max_abs_abs).trans
    (max_le hreach (abs_zero.trans_le ((abs_nonneg _).trans hreach)))
  have hshortfall : |max (q - x) 0| ≤ b + |q| := (abs_max_le_max_abs_abs).trans
    (max_le (abs_sub_comm q x ▸ hreach) (abs_zero.trans_le ((abs_nonneg _).trans hreach)))
  calc |r * max (x - q) 0 + s * max (q - x) 0|
      ≤ |r| * |max (x - q) 0| + |s| * |max (q - x) 0| := by
        rw [← abs_mul, ← abs_mul]
        exact abs_add_le _ _
    _ ≤ |r| * (b + |q|) + |s| * (b + |q|) :=
        add_le_add (mul_le_mul_of_nonneg_left hexcess (abs_nonneg r))
          (mul_le_mul_of_nonneg_left hshortfall (abs_nonneg s))
    _ = (|r| + |s|) * (b + |q|) := (add_mul _ _ _).symm

/-- Deviating from a commitment with one group of all slots earns nothing. -/
theorem Sound.costOf_nonneg {c : Commitment Exact} {len : ℕ} (h : c.Sound len)
    (hany : c.grouping = .any) (x : ℕ → ℝ) : 0 ≤ c.costOf x := by
  rw [← h.sum_groups]
  refine List.sum_nonneg fun y hy => ?_
  obtain ⟨g, hg, rfl⟩ := List.mem_map.mp hy
  obtain ⟨hup, hdown⟩ := h.any_prices_nonneg hany hg
  exact add_nonneg (mul_nonneg hup (peak_nonneg _)) (mul_nonneg hdown (peak_nonneg _))

theorem Sound.costFloor_le {c : Commitment Exact} {len : ℕ} (h : c.Sound len) {x : ℕ → ℝ}
    {bound : ℝ} (hx : ∀ j ∈ c.activeSlots, |x j| ≤ bound) : c.costFloor bound ≤ c.costOf x := by
  cases hgroup : c.grouping with
  | each =>
    rw [costOf, hgroup]
    exact (abs_le.mp (Problem.abs_sum_le _ _ _ fun j hj => abs_slotCost_le (hx j hj))).1
  | any =>
    refine (neg_nonpos.mpr (List.sum_nonneg fun y hy => ?_)).trans (h.costOf_nonneg hgroup x)
    obtain ⟨j, hj, rfl⟩ := List.mem_map.mp hy
    have hbound : 0 ≤ bound := (abs_nonneg _).trans (hx j hj)
    positivity

end Commitment

namespace Problem

/-- No plan within the bands of the devices costs less. -/
noncomputable def costFloor (p : Problem Exact) : ℝ :=
  (p.commitments.map fun c => c.costFloor (p.measureBound c)).sum

theorem Sound.costFloor_le {p : Problem Exact} (h : p.Sound) (hhours : 0 ≤ p.realHours)
    {flow level : ℕ → ℕ → ℝ}
    (hband : ∀ i (d : Device Exact), p.devices[i]? = some d → ∀ j < p.len, d.InBand j (flow i j))
    (hlevel : ∀ i d s, p.devices[i]? = some d → d.stock = some s →
      ∀ j < p.len, level i j = s.path p.realHours (flow i) (j + 1)) :
    p.costFloor ≤ p.planCost flow level := by
  refine List.sum_le_sum fun c hc => ?_
  have hsound := h.commitment c hc
  exact hsound.costFloor_le fun j hj =>
    h.abs_measured_le hhours hc hband hlevel (hsound.slot_lt j hj)

end Problem

end Dispatch
