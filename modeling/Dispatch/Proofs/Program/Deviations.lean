import Dispatch.Proofs.Problem.Costs
import Dispatch.Proofs.Program.Limits

/-! # Deviations and what they cost

* `GroupFits`: the conditions of a pair of deviations in real numbers.
* `GroupFits.cost_le`: no pair that fits costs less than the worst deviations on either side.
* `groupFits_worst`: the worst deviations fit, with the selector on the side of the excess.
* `Model.Built.planCost_le`, `Model.Built.exists_completion`: the same for whole plans.

The first needs the selector where both prices together are negative, for then a larger pair would
cost less. The second needs the bound of that selector to cover everything that can be measured.
-/

namespace Dispatch
set_option autoImplicit false

open Exact Scalar

/-! ## Pairs of deviations -/

/-- A pair of deviations accounts for measuring `x` against `q`. -/
def Accounts (grouping : Grouping) (x q up down : ℝ) : Prop :=
  match grouping with
  | .each => x - up + down = q
  | .any => x - up ≤ q ∧ q ≤ x + down

theorem accounts_each {x q up down : ℝ} : Accounts .each x q up down ↔ x - up + down = q := Iff.rfl

theorem accounts_any {x q up down : ℝ} :
    Accounts .any x q up down ↔ x - up ≤ q ∧ q ≤ x + down := Iff.rfl

/-- The conditions of a pair of deviations where `x` is measured. -/
structure GroupFits (bigM : ℝ) (c : Commitment Exact) (group : DeviationGroup Exact)
    (g : GroupColumns Exact) (x v : ℕ → ℝ) : Prop where
  up_nonneg : 0 ≤ v g.up
  down_nonneg : 0 ≤ v g.down
  accounts : ∀ j ∈ group.slots, Accounts c.grouping (x j) (c.level j) (v g.up) (v g.down)
  selector : ∀ s, g.selector = some s → (v s = 0 ∨ v s = 1) ∧ v g.up ≤ bigM * v s ∧
    bigM * v s + v g.down ≤ bigM

theorem linkHeld_iff {c : Commitment Exact} {j : ℕ} (hbaseline : c.baseline j = num (c.level j))
    {scope : LinExpr Exact} {x : (ℕ → ℝ) → ℝ} (hscope : scope.Means x) (up down : ℕ) (v : ℕ → ℝ) :
    LinkHeld c scope up down j (fun i => num (v i)) ↔
      Accounts c.grouping (x v) (c.level j) (v up) (v down) := by
  have hup := LinExpr.means_col up
  have hdown := LinExpr.means_col down
  have hq := LinExpr.means_const (c.level j)
  unfold LinkHeld
  rw [hbaseline]
  cases c.grouping with
  | each => exact Row.eq_holds_iff ((hscope.sub hup).add hdown) hq v
  | any =>
    exact and_congr (Row.le_holds_iff (hscope.sub hup) hq v)
      (Row.ge_holds_iff (hscope.add hdown) hq v)

theorem GroupFits.one_zero {bigM : ℝ} {c : Commitment Exact} {group : DeviationGroup Exact}
    {g : GroupColumns Exact} {x v : ℕ → ℝ} (fits : GroupFits bigM c group g x v)
    (hsome : g.selector.isSome = true) : v g.up = 0 ∨ v g.down = 0 := by
  obtain ⟨s, hs⟩ := Option.isSome_iff_exists.mp hsome
  obtain ⟨hs0 | hs1, hupper, hlower⟩ := fits.selector s hs
  · rw [hs0, mul_zero] at hupper
    exact .inl (le_antisymm hupper fits.up_nonneg)
  · rw [hs1, mul_one] at hlower
    exact .inr (le_antisymm (by linarith) fits.down_nonneg)

/-- Deviations that account for `x` exceed the worst ones by the same amount, which costs money
unless one of them is zero. -/
theorem pair_cost_le {x q up down u d : ℝ} (hup : 0 ≤ up) (hdown : 0 ≤ down)
    (hx : x - up + down = q) (h : 0 ≤ u + d ∨ up = 0 ∨ down = 0) :
    u * max (x - q) 0 + d * max (q - x) 0 ≤ u * up + d * down := by
  have hsplit : max (x - q) 0 - max (q - x) 0 = x - q := by
    rcases le_total x q with hle | hle
    · rw [max_eq_right (by linarith), max_eq_left (by linarith)]
      ring
    · rw [max_eq_left (by linarith), max_eq_right (by linarith)]
      ring
  have hextra : 0 ≤ up - max (x - q) 0 := sub_nonneg.mpr (max_le (by linarith) hup)
  have hdown' : down = max (q - x) 0 + (up - max (x - q) 0) := by linarith
  have hcost : 0 ≤ (u + d) * (up - max (x - q) 0) := by
    rcases h with h | h | h
    · exact mul_nonneg h hextra
    · have hzero : up - max (x - q) 0 = 0 :=
        le_antisymm (by rw [h]; linarith [le_max_right (x - q) 0]) hextra
      rw [hzero, mul_zero]
    · have hzero : up - max (x - q) 0 = 0 :=
        le_antisymm (by linarith [le_max_right (q - x) 0]) hextra
      rw [hzero, mul_zero]
  calc u * max (x - q) 0 + d * max (q - x) 0
      ≤ u * max (x - q) 0 + d * max (q - x) 0 + (u + d) * (up - max (x - q) 0) := by linarith
    _ = u * up + d * (max (q - x) 0 + (up - max (x - q) 0)) := by ring
    _ = u * up + d * down := by rw [← hdown']

theorem GroupFits.cost_le {bigM : ℝ} {c : Commitment Exact} {len : ℕ} (hc : c.Sound len)
    {group : DeviationGroup Exact} (hgroup : group ∈ c.groups) {g : GroupColumns Exact}
    (hshape : GroupShape c group g) {x v : ℕ → ℝ} (fits : GroupFits bigM c group g x v) :
    group.cost c x ≤ group.upPrice.toReal * v g.up + group.downPrice.toReal * v g.down := by
  rcases hc.groups_cases hgroup with ⟨heach, j, hj, rfl⟩ | ⟨hany, -, heq⟩
  · -- Where the two deviations would earn money together, the group has a selector.
    have haccounts := fits.accounts j (List.mem_singleton_self j)
    rw [heach, accounts_each] at haccounts
    simp only [DeviationGroup.cost, DeviationGroup.excess, DeviationGroup.shortfall, List.map_cons,
      List.map_nil, peak_singleton, toReal_num]
    refine pair_cost_le fits.up_nonneg fits.down_nonneg haccounts ?_
    rcases le_or_gt 0 (c.upRate j + c.downRate j) with h | h
    · exact .inl h
    · refine .inr (fits.one_zero (hshape.selector.mpr ⟨heach, ?_⟩))
      simpa [DeviationGroup.needsSelector, zero_eq] using h
  · -- Neither price of a group of all slots is negative, so each side is compared alone.
    obtain ⟨hup, hdown⟩ := hc.any_prices_nonneg hany hgroup
    have haccounts : ∀ j ∈ group.slots, x j - v g.up ≤ c.level j ∧ c.level j ≤ x j + v g.down := by
      intro j hj
      have := fits.accounts j hj
      rwa [hany, accounts_any] at this
    refine add_le_add (mul_le_mul_of_nonneg_left ?_ hup) (mul_le_mul_of_nonneg_left ?_ hdown)
    · refine peak_le_iff.mpr ⟨fits.up_nonneg, fun y hy => ?_⟩
      obtain ⟨j, hj, rfl⟩ := List.mem_map.mp hy
      linarith [(haccounts j hj).1]
    · refine peak_le_iff.mpr ⟨fits.down_nonneg, fun y hy => ?_⟩
      obtain ⟨j, hj, rfl⟩ := List.mem_map.mp hy
      linarith [(haccounts j hj).2]

theorem groupFits_worst {bigM : ℝ} {c : Commitment Exact} {len : ℕ} (hc : c.Sound len)
    {group : DeviationGroup Exact} (hgroup : group ∈ c.groups) {g : GroupColumns Exact}
    (hshape : GroupShape c group g) {x v : ℕ → ℝ}
    (hbig : ∀ j ∈ group.slots, |x j| + |c.level j| ≤ bigM)
    (hup : v g.up = group.excess c x) (hdown : v g.down = group.shortfall c x)
    (hselector : ∀ s, g.selector = some s → v s = if 0 < group.excess c x then 1 else 0) :
    GroupFits bigM c group g x v := by
  have hexcess : ∀ j ∈ group.slots, x j - c.level j ≤ group.excess c x := fun j hj =>
    le_peak (List.mem_map.mpr ⟨j, hj, rfl⟩)
  have hshortfall : ∀ j ∈ group.slots, c.level j - x j ≤ group.shortfall c x := fun j hj =>
    le_peak (List.mem_map.mpr ⟨j, hj, rfl⟩)
  refine ⟨hup ▸ peak_nonneg _, hdown ▸ peak_nonneg _, fun j hj => ?_, fun s hs => ?_⟩
  · rw [hup, hdown]
    rcases hc.groups_cases hgroup with ⟨heach, i, -, rfl⟩ | ⟨hany, -, -⟩
    · obtain rfl : j = i := List.mem_singleton.mp hj
      simp only [heach, accounts_each, DeviationGroup.excess, DeviationGroup.shortfall, List.map_cons,
        List.map_nil, peak_singleton]
      rcases le_total (x j) (c.level j) with hle | hle
      · rw [max_eq_right (by linarith), max_eq_left (by linarith)]
        ring
      · rw [max_eq_left (by linarith), max_eq_right (by linarith)]
        ring
    · rw [hany, accounts_any]
      exact ⟨by linarith [hexcess j hj], by linarith [hshortfall j hj]⟩
  · -- Only a group of one slot has a selector, and there at most one side differs from zero.
    obtain ⟨heach, -⟩ := hshape.selector.mp (by rw [hs]; rfl)
    rcases hc.groups_cases hgroup with ⟨-, i, -, rfl⟩ | ⟨hany, -, -⟩
    · obtain ⟨hx1, hx2⟩ := abs_le.mp (le_refl |x i|)
      obtain ⟨hq1, hq2⟩ := abs_le.mp (le_refl |c.level i|)
      have hi := hbig i (List.mem_singleton_self i)
      rw [hselector s hs, hup, hdown]
      simp only [DeviationGroup.excess, DeviationGroup.shortfall, List.map_cons, List.map_nil,
        peak_singleton]
      rcases le_or_gt (x i) (c.level i) with hle | hlt
      · rw [max_eq_right (by linarith), max_eq_left (by linarith), if_neg (lt_irrefl _)]
        exact ⟨.inl rfl, by linarith, by linarith⟩
      · rw [max_eq_left (by linarith), max_eq_right (by linarith), if_pos (by linarith)]
        exact ⟨.inr rfl, by linarith, by linarith⟩
    · rw [heach] at hany
      cases hany

theorem GroupFits.congr {bigM : ℝ} {c : Commitment Exact} {group : DeviationGroup Exact}
    {g : GroupColumns Exact} {x y v : ℕ → ℝ} (h : ∀ j ∈ group.slots, x j = y j)
    (fits : GroupFits bigM c group g x v) : GroupFits bigM c group g y v :=
  ⟨fits.up_nonneg, fits.down_nonneg, fun j hj => h j hj ▸ fits.accounts j hj, fits.selector⟩

/-! ## All commitments -/

theorem map_fst_comp_zip {β γ δ : Type} {xs : List β} {ys : List γ} (hlen : xs.length = ys.length)
    (f : β → δ) : ((xs.zip ys).map fun x => f x.1) = xs.map f := by
  conv_rhs => rw [← List.map_fst_zip hlen.le, List.map_map]
  rfl

theorem map_snd_comp_zip {β γ δ : Type} {xs : List β} {ys : List γ} (hlen : xs.length = ys.length)
    (f : γ → δ) : ((xs.zip ys).map fun x => f x.2) = ys.map f := by
  conv_rhs => rw [← List.map_snd_zip hlen.ge, List.map_map]
  rfl

theorem sum_map_zip_le {β γ : Type} {xs : List β} {ys : List γ} (hlen : xs.length = ys.length)
    {f : β → ℝ} {g : γ → ℝ} (h : ∀ x y, (x, y) ∈ xs.zip ys → f x ≤ g y) :
    (xs.map f).sum ≤ (ys.map g).sum := by
  rw [← map_fst_comp_zip hlen f, ← map_snd_comp_zip hlen g]
  exact List.sum_le_sum fun x hx => h x.1 x.2 hx

theorem sum_map_zip_eq {β γ : Type} {xs : List β} {ys : List γ} (hlen : xs.length = ys.length)
    {f : β → ℝ} {g : γ → ℝ} (h : ∀ x y, (x, y) ∈ xs.zip ys → f x = g y) :
    (xs.map f).sum = (ys.map g).sum := by
  rw [← map_fst_comp_zip hlen f, ← map_snd_comp_zip hlen g]
  exact congrArg List.sum (List.map_congr_left fun x hx => h x.1 x.2 hx)

noncomputable def Problem.groupBound (p : Problem Exact) (margin : ℝ) (c : Commitment Exact)
    (group : DeviationGroup Exact) : ℝ :=
  (p.measureBound c + peak (group.slots.map fun j => |c.level j|)) * (1 + margin) + 1

theorem Problem.Sound.groupBigM_eq {p : Problem Exact} (hp : p.Sound) {c : Commitment Exact}
    (hc : c ∈ p.commitments) {group : DeviationGroup Exact} (hgroup : group ∈ c.groups)
    (margin : ℝ) : groupBigM p (num margin) c group = num (p.groupBound margin c group) := by
  have hsound := hp.commitment c hc
  have hbaseline : (group.slots.map fun j => Scalar.abs (c.baseline j)) =
      group.slots.map fun j => num |c.level j| := by
    refine List.map_congr_left fun j hj => ?_
    rw [hsound.baseline_eq j (hsound.mem_activeSlots_of_group hgroup hj), num_abs]
  rw [groupBigM, hbaseline, largest_map_num, hp.scopeBound_eq hc, one_eq, num_add, num_add, num_mul,
    num_add, Problem.groupBound]

theorem Problem.le_groupBound {p : Problem Exact} {margin : ℝ} (hmargin : 0 ≤ margin)
    {c : Commitment Exact} {group : DeviationGroup Exact} {x : ℝ} (hx : |x| ≤ p.measureBound c) {j : ℕ}
    (hj : j ∈ group.slots) : |x| + |c.level j| ≤ p.groupBound margin c group := by
  have hq : |c.level j| ≤ peak (group.slots.map fun j => |c.level j|) :=
    le_peak (List.mem_map.mpr ⟨j, hj, rfl⟩)
  have hsum := add_nonneg ((abs_nonneg x).trans hx) (peak_nonneg (group.slots.map fun j => |c.level j|))
  rw [Problem.groupBound]
  nlinarith [mul_nonneg hsum hmargin]

noncomputable def Handles.deviationCost (h : Handles Exact) (v : ℕ → ℝ) : ℝ :=
  (h.commitments.map fun c => (c.groups.map fun g =>
    g.upPrice.toReal * v g.up + g.downPrice.toReal * v g.down).sum).sum

/-- The values of a pair of deviations with its selector. -/
noncomputable def GroupColumns.assign (g : GroupColumns Exact) (up down : ℝ) : List (ℕ × ℝ) :=
  (g.up, up) :: (g.down, down) :: g.selector.toList.map fun s => (s, if 0 < up then 1 else 0)

theorem GroupColumns.map_fst_assign (g : GroupColumns Exact) (up down : ℝ) :
    (g.assign up down).map Prod.fst = g.owned.map Prod.fst := by
  simp only [assign, owned, List.map_cons, List.map_map]
  rfl

theorem GroupColumns.of_assign {g : GroupColumns Exact} {w : ℕ → ℝ} {up down : ℝ}
    (h : ∀ y ∈ g.assign up down, w y.1 = y.2) :
    w g.up = up ∧ w g.down = down ∧
      ∀ s, g.selector = some s → w s = if 0 < up then 1 else 0 := by
  refine ⟨h (g.up, up) ?_, h (g.down, down) ?_, fun s hs => h (s, if 0 < up then 1 else 0) ?_⟩
  · exact List.mem_cons_self
  · exact List.mem_cons_of_mem _ List.mem_cons_self
  · simp [assign, hs]

namespace Model.Built
variable {p : Problem Exact} {margin : ℝ} {m : Model Exact} {v : ℕ → ℝ}

/-- What a commitment measures at given values of the columns. -/
noncomputable abbrev scope (p : Problem Exact) (m : Model Exact) (v : ℕ → ℝ) (c : Commitment Exact) :
    ℕ → ℝ :=
  p.measured c (m.handles.flow v) (m.handles.level v)

theorem means_scope (hb : m.Built p (num margin)) (hp : p.Sound) {c : Commitment Exact}
    (hc : c ∈ p.commitments) (j : ℕ) :
    (c.scope p m.handles.devices j : LinExpr Exact).Means fun v => scope p m v c j := by
  simp only [scope, Problem.measured]
  rw [Commitment.scope.eq_def]
  cases hkind : c.kind with
  | flow =>
    cases hi : p.committed? c with
    | none => exact means_siteExpr _ _ j
    | some i => exact DeviceColumns.means_flow _ j
  | stock =>
    cases hi : p.committed? c with
    | none => exact LinExpr.means_const 0
    | some i =>
      obtain ⟨d, hd, hstock⟩ := hp.committed_device hc hi
      obtain ⟨s, hs⟩ := hstock hkind
      obtain ⟨levels, hlevels⟩ := Option.isSome_iff_exists.mp
        ((hb.shape hd).stock.trans (by rw [hs]; rfl))
      simp only [hlevels]
      refine (LinExpr.means_col _).congr fun v => ?_
      rw [Handles.level, DeviceColumns.levelAt, hlevels, Option.getD_some]

theorem commitment_shape (hb : m.Built p (num margin)) {c : Commitment Exact}
    {cols : CommitmentColumns Exact} (h : (c, cols) ∈ p.commitments.zip m.handles.commitments) :
    CommitmentShape c cols := (List.forall₂_iff_zip.mp hb.commitments).2 h

/-- The columns of a pair of deviations stand for a group of the commitment. -/
theorem exists_group (hb : m.Built p (num margin)) {c : Commitment Exact}
    {cols : CommitmentColumns Exact} (h : (c, cols) ∈ p.commitments.zip m.handles.commitments)
    {g : GroupColumns Exact} (hg : g ∈ cols.groups) :
    ∃ group, (group, g) ∈ c.groups.zip cols.groups ∧ GroupShape c group g :=
  exists_of_mem_right (hb.commitment_shape h).groups hg

theorem prices_eq (hb : m.Built p (num margin)) (hp : p.Sound) {c : Commitment Exact}
    {cols : CommitmentColumns Exact} (h : (c, cols) ∈ p.commitments.zip m.handles.commitments)
    {g : GroupColumns Exact} (hg : g ∈ cols.groups) :
    g.upPrice = num g.upPrice.toReal ∧ g.downPrice = num g.downPrice.toReal := by
  obtain ⟨group, hgroup, hshape⟩ := hb.exists_group h hg
  rw [hshape.upPrice, hshape.downPrice]
  exact (hp.commitment c (List.of_mem_zip h).1).group_prices (List.of_mem_zip hgroup).1

theorem groupHeld_iff (hb : m.Built p (num margin)) (hp : p.Sound) {c : Commitment Exact}
    (hc : c ∈ p.commitments) {group : DeviationGroup Exact} (hgroup : group ∈ c.groups)
    (g : GroupColumns Exact) :
    GroupHeld p (num margin) m.handles.devices c group g (fun i => num (v i)) ↔
      GroupFits (p.groupBound margin c group) c group g (scope p m v c) v := by
  have hsound := hp.commitment c hc
  have hlink : ∀ j ∈ group.slots, LinkHeld c (c.scope p m.handles.devices j) g.up g.down j
      (fun i => num (v i)) ↔
      Accounts c.grouping (scope p m v c j) (c.level j) (v g.up) (v g.down) := fun j hj =>
    linkHeld_iff (hsound.baseline_eq j (hsound.mem_activeSlots_of_group hgroup hj))
      (hb.means_scope hp hc j) g.up g.down v
  have hbound := LinExpr.means_const (p.groupBound margin c group)
  have hupper (s : ℕ) := Row.le_holds_iff (LinExpr.means_col g.up)
    (LinExpr.means_term (p.groupBound margin c group) s) v
  have hlower (s : ℕ) := Row.le_holds_iff
    ((LinExpr.means_term (p.groupBound margin c group) s).add (LinExpr.means_col g.down)) hbound v
  constructor
  · intro held
    refine ⟨within_from_zero.mp held.up, within_from_zero.mp held.down,
      fun j hj => (hlink j hj).mp (held.links j hj), fun s hs => ?_⟩
    obtain ⟨h1, h2, h3⟩ := held.selector s hs
    rw [hp.groupBigM_eq hc hgroup] at h2 h3
    exact ⟨within_binary.mp h1, (hupper s).mp h2, (hlower s).mp h3⟩
  · intro fits
    refine ⟨within_from_zero.mpr fits.up_nonneg, within_from_zero.mpr fits.down_nonneg,
      fun j hj => (hlink j hj).mpr (fits.accounts j hj), fun s hs => ?_⟩
    obtain ⟨h1, h2, h3⟩ := fits.selector s hs
    rw [hp.groupBigM_eq hc hgroup]
    exact ⟨within_binary.mpr h1, (hupper s).mpr h2, (hlower s).mpr h3⟩

theorem commitmentsHeld_iff (hb : m.Built p (num margin)) (hp : p.Sound) :
    CommitmentsHeld p (num margin) m.handles (fun i => num (v i)) ↔
      ∀ c cols, (c, cols) ∈ p.commitments.zip m.handles.commitments →
        ∀ group g, (group, g) ∈ c.groups.zip cols.groups →
          GroupFits (p.groupBound margin c group) c group g (scope p m v c) v := by
  rw [CommitmentsHeld, List.forall₂_iff_zip]
  rw [and_iff_right hb.commitments.length_eq]
  refine forall_congr' fun c => forall_congr' fun cols => forall_congr' fun h => ?_
  have hc := (List.of_mem_zip h).1
  rw [CommitmentHeld, List.forall₂_iff_zip,
    and_iff_right (hb.commitment_shape h).groups.length_eq]
  refine forall_congr' fun group => forall_congr' fun g => forall_congr' fun hg => ?_
  exact hb.groupHeld_iff hp hc (List.of_mem_zip hg).1 g

/-- Values that fit the commitments cost at least what the plan costs. -/
theorem planCost_le (hb : m.Built p (num margin)) (hp : p.Sound)
    (held : CommitmentsHeld p (num margin) m.handles fun i => num (v i)) :
    p.planCost (m.handles.flow v) (m.handles.level v) ≤ m.handles.deviationCost v := by
  have fits := (hb.commitmentsHeld_iff hp).mp held
  refine sum_map_zip_le hb.commitments.length_eq fun c cols h => ?_
  have hshape := (hb.commitment_shape h).groups
  have hsound := hp.commitment c (List.of_mem_zip h).1
  rw [← hsound.sum_groups]
  refine sum_map_zip_le hshape.length_eq fun group g hg => ?_
  have hgshape := (List.forall₂_iff_zip.mp hshape).2 hg
  rw [hgshape.upPrice, hgshape.downPrice]
  exact (fits c cols h group g hg).cost_le hsound (List.of_mem_zip hg).1 hgshape

/-! ## Completing the columns of the devices -/

theorem mem_deviceColumns (hb : m.Built p (num margin)) {i : ℕ} {d : Device Exact}
    (hd : p.devices[i]? = some d) {k : ℕ}
    (hk : k ∈ (m.handles.devices.getD i .empty).owned.map Prod.fst) :
    k ∈ m.handles.deviceColumns.map Prod.fst := by
  obtain ⟨x, hx, rfl⟩ := List.mem_map.mp hk
  refine List.mem_map.mpr ⟨x, List.mem_flatMap.mpr ⟨_, ?_, hx⟩, rfl⟩
  have hi : i < m.handles.devices.length :=
    hb.devices.length_eq ▸ (List.getElem?_eq_some_iff.mp hd).1
  rw [List.getD_eq_getElem _ _ hi]
  exact List.getElem_mem hi

theorem flow_congr (hb : m.Built p (num margin)) {w : ℕ → ℝ}
    (h : ∀ k ∈ m.handles.deviceColumns.map Prod.fst, w k = v k) {i : ℕ} (hi : i < p.devices.length)
    {j : ℕ} (hj : j < p.len) : m.handles.flow w i j = m.handles.flow v i j := by
  have hd := List.getElem?_eq_getElem hi
  have hshape := hb.shape hd
  rw [Handles.flow, Handles.flow, DeviceColumns.flowAt, DeviceColumns.flowAt,
    h _ (hb.mem_deviceColumns hd (hshape.up_mem hj)),
    h _ (hb.mem_deviceColumns hd (hshape.down_mem hj))]

theorem level_congr (hb : m.Built p (num margin)) {w : ℕ → ℝ}
    (h : ∀ k ∈ m.handles.deviceColumns.map Prod.fst, w k = v k) {i : ℕ} {d : Device Exact}
    {s : Stock Exact} (hd : p.devices[i]? = some d) (hs : d.stock = some s) {j : ℕ} (hj : j < p.len) :
    m.handles.level w i j = m.handles.level v i j := by
  rw [Handles.level, Handles.level, DeviceColumns.levelAt, DeviceColumns.levelAt,
    h _ (hb.mem_deviceColumns hd ((hb.shape hd).level_mem (by rw [hs]; rfl) hj))]

theorem scope_congr (hb : m.Built p (num margin)) (hp : p.Sound) {w : ℕ → ℝ}
    (h : ∀ k ∈ m.handles.deviceColumns.map Prod.fst, w k = v k) {c : Commitment Exact}
    (hc : c ∈ p.commitments) {j : ℕ} (hj : j < p.len) : scope p m w c j = scope p m v c j :=
  hp.measured_congr hc (fun _ hi => hb.flow_congr h hi hj)
    fun _ _ _ hd hs => hb.level_congr h hd hs hj

/-- The columns of the commitments can hold the worst deviations from given values. -/
theorem exists_worst (hb : m.Built p (num margin)) (x : Commitment Exact → ℕ → ℝ) :
    ∃ w : ℕ → ℝ, ∀ c cols, (c, cols) ∈ p.commitments.zip m.handles.commitments →
      ∀ group g, (group, g) ∈ c.groups.zip cols.groups →
        ∀ y ∈ g.assign (group.excess c (x c)) (group.shortfall c (x c)), w y.1 = y.2 := by
  have hfst : (((p.commitments.zip m.handles.commitments).flatMap fun b =>
      (b.1.groups.zip b.2.groups).flatMap fun a =>
        a.2.assign (a.1.excess b.1 (x b.1)) (a.1.shortfall b.1 (x b.1))).map Prod.fst) =
      m.handles.commitmentColumns.map Prod.fst := by
    rw [Handles.commitmentColumns, List.map_flatMap, List.map_flatMap,
      ← flatMap_snd_zip hb.commitments.length_eq]
    refine List.flatMap_congr fun b hb' => ?_
    rw [CommitmentColumns.owned, List.map_flatMap, List.map_flatMap]
    simp only [GroupColumns.map_fst_assign]
    exact flatMap_snd_zip (hb.commitment_shape hb').groups.length_eq fun g => g.owned.map Prod.fst
  have hnodup := hb.nodup
  rw [List.map_append] at hnodup
  obtain ⟨w, hw⟩ := exists_values _ _ (hfst ▸ hnodup.of_append_right)
  refine ⟨w, fun c cols h group g hg y hy => hw (c, cols) h y ?_⟩
  exact List.mem_flatMap.mpr ⟨(group, g), hg, hy⟩

theorem mem_commitmentColumns {cols : CommitmentColumns Exact}
    (hcols : cols ∈ m.handles.commitments) {g : GroupColumns Exact} (hg : g ∈ cols.groups) {k : ℕ}
    (hk : k ∈ g.owned.map Prod.fst) : k ∈ m.handles.commitmentColumns.map Prod.fst := by
  obtain ⟨x, hx, rfl⟩ := List.mem_map.mp hk
  exact List.mem_map.mpr ⟨x, List.mem_flatMap.mpr ⟨cols, hcols,
    List.mem_flatMap.mpr ⟨g, hg, hx⟩⟩, rfl⟩

/-- The worst deviations stand beside any values of the columns of the devices. -/
theorem exists_worst_beside (hb : m.Built p (num margin)) (x : Commitment Exact → ℕ → ℝ)
    (v : ℕ → ℝ) :
    ∃ w : ℕ → ℝ, (∀ k ∈ m.handles.deviceColumns.map Prod.fst, w k = v k) ∧
      ∀ c cols, (c, cols) ∈ p.commitments.zip m.handles.commitments →
        ∀ group g, (group, g) ∈ c.groups.zip cols.groups →
          ∀ y ∈ g.assign (group.excess c (x c)) (group.shortfall c (x c)), w y.1 = y.2 := by
  classical
  obtain ⟨u, hu⟩ := hb.exists_worst x
  refine ⟨fun k => if k ∈ m.handles.deviceColumns.map Prod.fst then v k else u k,
    fun k hk => if_pos hk, fun c cols h group g hg y hy => ?_⟩
  have howned : y.1 ∈ g.owned.map Prod.fst := by
    rw [← g.map_fst_assign (group.excess c (x c)) (group.shortfall c (x c))]
    exact List.mem_map.mpr ⟨y, hy, rfl⟩
  have hcolumn := mem_commitmentColumns (List.of_mem_zip h).2 (List.of_mem_zip hg).2 howned
  -- No column is both a device's and a commitment's.
  have hnodup := hb.nodup
  rw [List.map_append, List.nodup_append] at hnodup
  exact (if_neg fun hk => hnodup.2.2 y.1 hk y.1 hcolumn rfl).trans (hu c cols h group g hg y hy)

/-- Values that fit the devices and the site can be completed, at the cost of the plan. -/
theorem exists_completion (hb : m.Built p (num margin)) (hp : p.Sound) (hhours : 0 ≤ p.realHours)
    (hmargin : 0 ≤ margin) (held : DevicesHeld p (num margin) m.handles fun i => num (v i))
    (site : SitesHeld p m.handles fun i => num (v i)) :
    ∃ w : ℕ → ℝ, (∀ k ∈ m.handles.deviceColumns.map Prod.fst, w k = v k) ∧
      (∀ o, (m.program o).feasible (fun i => num (w i)) = true) ∧
      m.handles.deviationCost w = p.planCost (m.handles.flow v) (m.handles.level v) := by
  obtain ⟨w, hagree, hvalue⟩ := hb.exists_worst_beside (scope p m v) v
  refine ⟨w, hagree, fun o => ?_, ?_⟩
  · obtain ⟨hdevices, hsite⟩ := hb.congr (fun i => num (v i)) (fun i => num (w i))
      (fun k hk => by rw [hagree k hk]) ⟨held, site⟩
    refine (hb.feasible_iff o _).mpr ⟨hdevices, hsite, (hb.commitmentsHeld_iff hp).mpr ?_⟩
    intro c cols h group g hg
    have hc := (List.of_mem_zip h).1
    have hgroup := (List.of_mem_zip hg).1
    have hsound := hp.commitment c hc
    have hslot : ∀ j ∈ group.slots, j < p.len := fun j hj =>
      hsound.slot_lt j (hsound.mem_activeSlots_of_group hgroup hj)
    have hscope : ∀ j ∈ group.slots, scope p m v c j = scope p m w c j := fun j hj =>
      (hb.scope_congr hp hagree hc (hslot j hj)).symm
    obtain ⟨hup, hdown, hselector⟩ := GroupColumns.of_assign (hvalue c cols h group g hg)
    have hgshape := (List.forall₂_iff_zip.mp (hb.commitment_shape h).groups).2 hg
    refine (groupFits_worst hsound hgroup hgshape (fun j hj => ?_) hup hdown hselector).congr hscope
    have hx := hp.abs_measured_le hhours hc (fun i d hd j hj => hb.inBand hp held hd hj)
      (fun i d s hd hs j hj => hb.level_eq hp held hd hs hj) (hslot j hj)
    exact Problem.le_groupBound hmargin hx hj
  · refine (sum_map_zip_eq hb.commitments.length_eq fun c cols h => ?_).symm
    have hshape := (hb.commitment_shape h).groups
    rw [← (hp.commitment c (List.of_mem_zip h).1).sum_groups]
    refine sum_map_zip_eq hshape.length_eq fun group g hg => ?_
    have hgshape := (List.forall₂_iff_zip.mp hshape).2 hg
    obtain ⟨hup, hdown, -⟩ := GroupColumns.of_assign (hvalue c cols h group g hg)
    rw [hup, hdown, hgshape.upPrice, hgshape.downPrice, DeviationGroup.cost]

end Model.Built

end Dispatch
