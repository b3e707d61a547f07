import Dispatch.Proofs.Exact.Scaling
import Dispatch.Proofs.Program.Exactness

/-! # The costs that a plan reports

* `Problem.PreferredHalf`: the columns that a preference may be about.
* `Objective.Splits`: the objective, whatever the values, is worth the costs of the commitments, each
  from deviations of its own, and the preference.
* `Problem.objective_splits`: the objective of every problem splits so.

The objective collects its terms column by column, the costs go through the commitments and the
preference. No column occurs in two terms, so both add up the same products in another order.
-/

namespace Dispatch
set_option autoImplicit false

/-! ## Sums in any order -/

namespace Exact.Sums

-- Scoped, as it brings a zero and a sum of its own that are only by definition those of the scalars.
noncomputable scoped instance : AddCommMonoid Exact where
  add_assoc := Exact.add_assoc
  zero_add x := by
    cases x with
    | num y => rw [zero_eq, num_add, zero_add]
    | inf | negInf | nan => rfl
  add_zero x := by
    cases x with
    | num y => rw [zero_eq, num_add, add_zero]
    | inf | negInf | nan => rfl
  add_comm := Exact.add_comm
  nsmul := nsmulRec

end Exact.Sums

open scoped Exact.Sums

namespace Exact

theorem sum_eq (xs : List Exact) : Scalar.sum xs = xs.sum := by
  rw [Scalar.sum, List.sum_eq_foldl]

end Exact

/-! ## Terms of different columns -/

section
variable {α : Type} [Scalar α]

/-- A term of a new column is inserted. -/
theorem perm_addTerm {c : ℕ} {x : α} {ts : List (ℕ × α)} (h : c ∉ ts.map Prod.fst) :
    (addTerm c x ts).Perm ((c, x) :: ts) := by
  induction ts with
  | nil => exact List.Perm.refl _
  | cons t ts ih =>
    obtain ⟨d, y⟩ := t
    obtain ⟨hne, hrest⟩ := not_or.mp (fun hmem => h (List.mem_cons.mpr hmem))
    rw [addTerm]
    split_ifs with hbefore
    · exact List.Perm.refl _
    · exact ((ih hrest).cons (d, y)).trans (List.Perm.swap _ _ _)

/-- Terms of different columns are collected, none merged with another. -/
theorem perm_foldl_addTerm {us ts : List (ℕ × α)} (h : ((us ++ ts).map Prod.fst).Nodup) :
    (us.foldl (fun ts u => addTerm u.1 u.2 ts) ts).Perm (us ++ ts) := by
  induction us generalizing ts with
  | nil => exact List.Perm.refl _
  | cons u us ih =>
    have hmiddle : (us ++ u :: ts).Perm (u :: us ++ ts) := List.perm_middle
    have hnodup : ((us ++ u :: ts).map Prod.fst).Nodup := (hmiddle.map Prod.fst).nodup_iff.mpr h
    have hnew : u.1 ∉ ts.map Prod.fst := fun hmem => by
      rw [List.map_append, List.map_cons, List.nodup_append] at hnodup
      exact (List.nodup_cons.mp hnodup.2.1).1 hmem
    have hinsert : (us ++ addTerm u.1 u.2 ts).Perm (us ++ u :: ts) :=
      (perm_addTerm hnew).append_left us
    exact (ih ((hinsert.map Prod.fst).nodup_iff.mpr hnodup)).trans (hinsert.trans hmiddle)

theorem subperm_flatMap {ι β : Type} {xs : List ι} {f g : ι → List β}
    (h : ∀ x ∈ xs, (f x).Subperm (g x)) : (xs.flatMap f).Subperm (xs.flatMap g) := by
  induction xs with
  | nil => exact List.Subperm.refl _
  | cons x xs ih =>
    rw [List.flatMap_cons, List.flatMap_cons]
    exact (h x List.mem_cons_self).append (ih fun y hy => h y (List.mem_cons_of_mem _ hy))

/-! ## The columns of the terms -/

namespace Handles

/-- The deviations of the commitments, two columns for every group. -/
def deviations (h : Handles α) : List ℕ := h.priceTerms.map Prod.fst

omit [Scalar α] in
theorem subperm_deviations (h : Handles α) :
    h.deviations.Subperm (h.commitmentColumns.map Prod.fst) := by
  rw [deviations, priceTerms, commitmentColumns, List.map_flatMap, List.map_flatMap]
  refine subperm_flatMap fun c _ => ?_
  rw [CommitmentColumns.owned, List.map_flatMap, List.map_flatMap]
  refine subperm_flatMap fun g _ => ?_
  exact (List.sublist_append_left [g.up, g.down] _).subperm

end Handles

namespace Problem
variable {p : Problem α} {t : TieBreak α} {beta : α}

/-- A half of the flow of a storage that prefers to charge sooner. -/
def PreferredHalf (p : Problem α) (h : Handles α) (column : ℕ) : Prop :=
  ∃ (i : ℕ) (d : Device α) (columns : DeviceColumns), p.devices[i]? = some d ∧
    h.devices[i]? = some columns ∧ d.stock.isSome = true ∧ d.chargeSooner = true ∧
    ∃ j < p.len, column = columns.up.getD j 0 ∨ column = columns.down.getD j 0

theorem preferredHalf_of_mem {h : Handles α} {x : ℕ × α} (hx : x ∈ p.biasTerms t beta h.devices) :
    p.PreferredHalf h x.1 := by
  rw [biasTerms] at hx
  split_ifs at hx with hstep
  · obtain ⟨⟨d, c⟩, hdevice, hx⟩ := List.mem_flatMap.mp hx
    obtain ⟨i, hi⟩ := List.mem_iff_getElem?.mp hdevice
    obtain ⟨hd, hc⟩ := List.getElem?_zip_eq_some.mp hi
    simp only at hx
    split_ifs at hx with hprefers
    · obtain ⟨hstock, hsooner⟩ := Bool.and_eq_true_iff.mp hprefers
      obtain ⟨j, hj, hx⟩ := List.mem_flatMap.mp hx
      refine ⟨i, d, c, hd, hc, hstock, hsooner, j, List.mem_range.mp hj, ?_⟩
      rcases List.mem_cons.mp hx with rfl | hx
      · exact .inl rfl
      · exact .inr (congrArg Prod.fst (List.mem_singleton.mp hx))
    · cases hx
  · cases hx

theorem map_getD_range {xs : List ℕ} {n : ℕ} (h : xs.length = n) :
    (List.range n).map (fun j => xs.getD j 0) = xs := by
  refine List.ext_getElem (by simp [h]) fun j hj hj' => ?_
  rw [List.getElem_map, List.getElem_range, List.getD_eq_getElem _ _ hj']

theorem perm_deviceBias {d : Device α} {c : DeviceColumns} (hc : DeviceShape p d c) :
    ((p.deviceBias t beta c).map Prod.fst).Perm (c.up ++ c.down) := by
  have hpairs : (p.deviceBias t beta c).map Prod.fst =
      p.grid.slots.flatMap fun j => [c.up.getD j 0] ++ [c.down.getD j 0] := List.map_flatMap ..
  rw [hpairs]
  refine (List.flatMap_append_perm _ _ _).symm.trans ?_
  rw [← List.map_eq_flatMap, ← List.map_eq_flatMap]
  exact (List.Perm.of_eq (map_getD_range hc.up_length)).append
    (List.Perm.of_eq (map_getD_range hc.down_length))

theorem subperm_biasTerms {devices : List DeviceColumns}
    (hdevices : List.Forall₂ (DeviceShape p) p.devices devices) :
    ((p.biasTerms t beta devices).map Prod.fst).Subperm
      ((devices.flatMap DeviceColumns.owned).map Prod.fst) := by
  rw [biasTerms]
  split_ifs with hstep
  · have hzip : (p.devices.zip devices).map Prod.snd = devices :=
      List.map_snd_zip hdevices.length_eq.ge
    conv_rhs => rw [← hzip, List.flatMap_map, List.map_flatMap]
    rw [List.map_flatMap]
    refine subperm_flatMap fun x hx => ?_
    obtain ⟨d, c⟩ := x
    have hc : DeviceShape p d c := List.forall₂_iff_zip.mp hdevices |>.2 hx
    simp only
    split_ifs with hprefers
    · refine (perm_deviceBias hc).subperm.trans (List.Sublist.subperm ?_)
      simp only [DeviceColumns.owned, List.map_append, List.map_map, Function.comp_def, List.map_id',
        List.append_assoc]
      rw [← List.append_assoc]
      exact List.sublist_append_left _ _
    · exact List.nil_subperm
  · exact List.nil_subperm

end Problem

end

/-! ## The objective and the costs -/

open Exact Scalar

/-- A commitment costs what its own deviations come to at its own prices. -/
structure CommitmentCost.PricedBy (cost : CommitmentCost Exact) (c : Commitment Exact)
    (columns : CommitmentColumns Exact) (values : ℕ → Exact) : Prop where
  name : cost.name = c.name
  groups : columns.groups.length = c.groups.length
  cost : cost.cost = Scalar.sum ((c.groups.zip columns.groups).map fun (group, own) =>
    group.upPrice * values own.up + group.downPrice * values own.down)

/-- What the solver minimises, and the costs that are reported, from the same values. No column is a
deviation of two groups, and none of them is part of the preference. -/
structure Objective.Splits (p : Problem Exact) (m : Model Exact) (t : TieBreak Exact)
    (values : ℕ → Exact) (costs : Costs Exact) : Prop where
  value : (m.composed p t).objective.value values = costs.objective
  objective : costs.objective = costs.total + costs.tieBreak
  total : costs.total = Scalar.sum (costs.commitments.map CommitmentCost.cost)
  counted : m.handles.commitments.length = p.commitments.length ∧
    costs.commitments.length = p.commitments.length
  priced : ∀ (k : ℕ) (c : Commitment Exact) (columns : CommitmentColumns Exact)
    (cost : CommitmentCost Exact), p.commitments[k]? = some c →
    m.handles.commitments[k]? = some columns → costs.commitments[k]? = some cost →
    cost.PricedBy c columns values
  deviations : m.handles.deviations.Nodup
  tieBreak : ∃ terms : List (ℕ × Exact),
    costs.tieBreak = Scalar.sum (terms.map fun x => x.2 * values x.1) ∧
    ∀ x ∈ terms, p.PreferredHalf m.handles x.1 ∧ x.1 ∉ m.handles.deviations

namespace Handles

theorem sum_flatMap {ι : Type} (xs : List ι) (f : ι → List Exact) :
    (xs.flatMap f).sum = (xs.map fun x => (f x).sum).sum := by
  induction xs with
  | nil => rfl
  | cons x xs ih => rw [List.flatMap_cons, List.sum_append, ih, List.map_cons, List.sum_cons]

/-- The terms of the prices, taken together, are worth the costs of the commitments. -/
theorem sum_priceTerms (h : Handles Exact) (values : ℕ → Exact) :
    (h.priceTerms.map fun x => x.2 * values x.1).sum =
      (h.commitments.map fun c => (commitmentCost values c).cost).sum := by
  rw [priceTerms, List.map_flatMap, sum_flatMap]
  refine congrArg List.sum (List.map_congr_left fun c _ => ?_)
  rw [List.map_flatMap, sum_flatMap, commitmentCost, sum_eq]
  refine congrArg List.sum (List.map_congr_left fun g _ => ?_)
  simp

end Handles

namespace Model.Built
variable {p : Problem Exact} {margin : Exact} {m : Model Exact}

/-- No two terms of the objective are about one column. -/
theorem nodup_terms (hb : m.Built p margin) (t : TieBreak Exact) (beta : Exact) :
    ((m.handles.priceTerms ++ p.biasTerms t beta m.handles.devices).map Prod.fst).Nodup := by
  have hbias : ((p.biasTerms t beta m.handles.devices).map Prod.fst).Subperm
      (m.handles.deviceColumns.map Prod.fst) := Problem.subperm_biasTerms hb.devices
  have hsub := hbias.append m.handles.subperm_deviations
  have hnodup := hb.nodup
  rw [List.map_append] at hnodup
  obtain ⟨l, hperm, hl⟩ := hsub
  have h := hperm.nodup_iff.mp (hnodup.sublist hl)
  rw [List.map_append]
  exact List.perm_append_comm.nodup_iff.mp h

theorem composed_value_eq (hb : m.Built p margin) (t : TieBreak Exact) (values : ℕ → Exact) :
    (m.composed p t).objective.value values =
      ((Objective.compose p m.handles t).evaluate m.handles values).objective := by
  have hnodup := hb.nodup_terms t (p.biasStep t)
  rw [← List.append_nil (m.handles.priceTerms ++ _)] at hnodup
  have hperm := perm_foldl_addTerm hnodup
  rw [List.append_nil] at hperm
  rw [Model.composed, program, LinExpr.value, LinExpr.valueOf, sum_eq, Objective.compose]
  rw [(hperm.map fun x => x.2 * values x.1).sum_eq, List.map_append, List.sum_append,
    Handles.sum_priceTerms]
  simp only [Objective.evaluate, sum_eq, List.map_map, Function.comp_def]
  rw [add_zero]

theorem pricedBy (hb : m.Built p margin) (values : ℕ → Exact) {k : ℕ} {c : Commitment Exact}
    {columns : CommitmentColumns Exact} (hc : p.commitments[k]? = some c)
    (hcolumns : m.handles.commitments[k]? = some columns) :
    (Handles.commitmentCost values columns).PricedBy c columns values := by
  have hshape : CommitmentShape c columns := (List.forall₂_iff_zip.mp hb.commitments).2
    (List.mem_of_getElem? (List.getElem?_zip_eq_some.mpr ⟨hc, hcolumns⟩))
  refine ⟨hshape.name, hshape.groups.length_eq.symm, congrArg Scalar.sum ?_⟩
  conv_lhs => rw [← List.map_snd_zip hshape.groups.length_eq.ge, List.map_map]
  refine List.map_congr_left fun x hx => ?_
  obtain ⟨group, g⟩ := x
  have hg : GroupShape c group g := (List.forall₂_iff_zip.mp hshape.groups).2 hx
  simp only [Function.comp_apply, hg.upPrice, hg.downPrice]

end Model.Built

namespace Problem

/-- Every problem that passes its check has a model, and under every preference the objective of the
model splits into the costs that are reported, whatever the values and whether they are feasible. -/
theorem objective_splits {p : Problem Exact} (hcheck : p.check = .ok ()) {margin : ℝ}
    (hmargin : 0 ≤ margin) :
    ∃ m, p.model (num margin) = .ok m ∧ ∀ t values,
      Objective.Splits p m t values ((Objective.compose p m.handles t).evaluate m.handles values) := by
  obtain ⟨m, hm, hb⟩ := exists_built hcheck hmargin
  refine ⟨m, hm, fun t values => ?_⟩
  have hterms := hb.nodup_terms t (p.biasStep t)
  rw [List.map_append, List.nodup_append] at hterms
  obtain ⟨hprices, -, hapart⟩ := hterms
  have hcount : m.handles.commitments.length = p.commitments.length :=
    hb.commitments.length_eq.symm
  refine ⟨hb.composed_value_eq t values, rfl, rfl, ⟨hcount, (List.length_map _).trans hcount⟩,
    fun k c columns cost hc hcolumns hcost => ?_, hprices, p.biasTerms t (p.biasStep t)
    m.handles.devices, rfl, fun x hx => ⟨preferredHalf_of_mem hx, fun hmem => ?_⟩⟩
  · have hget : (m.handles.commitments.map (Handles.commitmentCost values))[k]? =
        some (Handles.commitmentCost values columns) := by
      rw [List.getElem?_map, hcolumns, Option.map_some]
    obtain rfl := Option.some.inj (hget.symm.trans hcost)
    exact hb.pricedBy values hc hcolumns
  · exact hapart x.1 hmem x.1 (List.mem_map.mpr ⟨x, hx, rfl⟩) rfl

/-- A battery that prefers to charge sooner, under two commitments of one name for the same slot. -/
noncomputable def twiceCommitted : Problem Exact where
  grid := oneHour
  devices := [limitedBattery (-1) none true]
  commitments := List.replicate 2 (.siteFlow "import" [some (num 0)] [num 0] [num (-1)] .each)
  site := ⟨[negInf], [num 1]⟩

/-- With every column at one, each commitment costs what its own downward deviation earns, although the
two share all but their columns. -/
theorem twiceCommitted_splits : ∃ m costs, twiceCommitted.model (num 1) = .ok m ∧
    (Objective.compose twiceCommitted m.handles .standard).evaluate m.handles (fun _ => num 1) = costs ∧
    Objective.Splits twiceCommitted m .standard (fun _ => num 1) costs ∧
    costs.commitments.map CommitmentCost.cost = [num (-1), num (-1)] ∧ costs.total = num (-2) := by
  have hcheck : twiceCommitted.check = .ok () := by
    refine oneHour_check (limitedBattery_check (-1) none true) fun c hc => ?_
    rw [List.eq_of_mem_replicate hc]
    exact ⟨oneSlot_check rfl rfl rfl rfl nofun, rfl⟩
  obtain ⟨m, hm, h⟩ := objective_splits hcheck zero_le_one
  have hsplit := h .standard fun _ => num 1
  generalize hcosts : (Objective.compose twiceCommitted m.handles .standard).evaluate m.handles
    (fun _ => num 1) = costs at hsplit
  have hcounted : m.handles.commitments.length = 2 ∧ costs.commitments.length = 2 := hsplit.counted
  have hcost : ∀ cost ∈ costs.commitments.map CommitmentCost.cost, cost = num (-1) := by
    rintro x hx
    obtain ⟨cost, hmem, rfl⟩ := List.mem_map.mp hx
    obtain ⟨k, hk⟩ := List.mem_iff_getElem?.mp hmem
    have hlt : k < 2 := hcounted.2 ▸ (List.getElem?_eq_some_iff.mp hk).1
    have hc : twiceCommitted.commitments[k]? =
        some (.siteFlow "import" [some (num 0)] [num 0] [num (-1)] .each) :=
      List.getElem?_replicate_of_lt hlt
    obtain ⟨columns, hcolumns⟩ : ∃ columns, m.handles.commitments[k]? = some columns :=
      ⟨_, List.getElem?_eq_getElem (hcounted.1 ▸ hlt)⟩
    obtain ⟨-, hgroups, hpriced⟩ := hsplit.priced k _ columns cost hc hcolumns hk
    obtain ⟨own, hown⟩ := List.length_eq_one_iff.mp hgroups
    rw [hpriced, hown]
    show (0 : Exact) + (num 0 * num 1 + num (-1) * num 1) = num (-1)
    rw [num_mul, num_mul, num_add, zero_eq, num_add]
    norm_num
  have hboth : costs.commitments.map CommitmentCost.cost = [num (-1), num (-1)] :=
    List.eq_replicate_iff.mpr ⟨(List.length_map _).trans hcounted.2, hcost⟩
  refine ⟨m, costs, hm, hcosts, hsplit, hboth, ?_⟩
  rw [hsplit.total, hboth]
  show (0 : Exact) + num (-1) + num (-1) = num (-2)
  rw [zero_eq, num_add, num_add]
  norm_num

end Problem

end Dispatch
