import Dispatch.Proofs.Plan.Checks

/-! # From answers to plans

* `Answer.Passes`: what the checks ask of an answer, for every device, the site and every group of
  deviations.
* `Handles.told`: the plan that an answer states.
* `Model.Built.check_eq_ok`: the plan holds together just when the answer passes there.
* `Plan.readDevice_fails`, `Plan.check_fails`: an answer that does not pass is refused.
-/

namespace Dispatch
set_option autoImplicit false

open Exact Scalar

/-! ## What is told -/

namespace Handles
variable (h : Handles Exact) (p : Problem Exact) (t : ℝ) (a : Answer)

noncomputable def power (i j : ℕ) : ℝ := (h.devices.getD i .empty).powerAt t a j

noncomputable def sitePower (j : ℕ) : ℝ := cleaned t (p.siteFlow (h.power t a) j)

/-- What a commitment measures in the powers that are told and the levels of the answer. -/
noncomputable def measured (c : Commitment Exact) (j : ℕ) : ℝ :=
  match c.kind, p.committed? c with
  | .flow, some i => h.power t a i j
  | .flow, none => h.sitePower p t a j
  | .stock, some i => h.level a.filled i j
  | .stock, none => 0

noncomputable def told : Plan Exact :=
  ⟨h.devices.map (toldDevice p t a), p.series (h.sitePower p t a)⟩

end Handles

/-! ## Conditions on the whole answer -/

noncomputable def Problem.siteRoom (p : Problem Exact) (t : ℝ) : ℝ :=
  t * (1 + ((p.devices.filter fun d => d.onSite).map Device.bound).sum)

theorem Problem.Sound.siteRoom_nonneg {p : Problem Exact} (hp : p.Sound) {t : ℝ} (ht : 0 ≤ t) :
    0 ≤ p.siteRoom t := by
  refine mul_nonneg ht (add_nonneg zero_le_one (List.sum_nonneg fun x hx => ?_))
  obtain ⟨d, hd, rfl⟩ := List.mem_map.mp hx
  exact (hp.device d (List.mem_filter.mp hd).1).bound_nonneg

structure SitePasses (p : Problem Exact) (room : ℝ) (j : ℕ) (power : ℝ) : Prop where
  low : valueAt p.site.min j - num room ≤ num power
  high : num power ≤ valueAt p.site.max j + num room

noncomputable def linkRoom (t x q up down : ℝ) : ℝ := (10 : ℕ) * t * (1 + |x| + |q| + up + down)

/-- The deviations `up` and `down` account for measuring `x` instead of `q`. -/
def LinkPasses (t : ℝ) (grouping : Grouping) (x q up down : ℝ) : Prop :=
  match grouping with
  | .each => |x - q - up + down| ≤ linkRoom t x q up down
  | .any => x - q ≤ up + linkRoom t x q up down ∧ q - x ≤ down + linkRoom t x q up down

structure Answer.Passes (a : Answer) (p : Problem Exact) (h : Handles Exact) (t : ℝ) : Prop where
  device : ∀ i d, p.devices[i]? = some d → DevicePasses p t d (h.devices.getD i .empty) a
  site : p.siteMembers ≠ [] → ∀ j < p.len, SitePasses p (p.siteRoom t) j (h.sitePower p t a j)
  link : ∀ c columns, (c, columns) ∈ p.commitments.zip h.commitments → ∀ g ∈ columns.groups,
    ∀ j ∈ g.slots,
      LinkPasses t c.grouping (h.measured p t a c j) (c.level j) (a.filled g.up) (a.filled g.down)

/-! ## Checks of plans -/

namespace Plan
variable {α : Type} [Scalar α] {p : Problem α} {h : Handles α} {tolerance : α} {values : Assignment α}

theorem checkSite_iff {flows : List α} :
    checkSite p tolerance flows = .ok () ↔ (p.siteMembers ≠ [] → ∀ j < p.len,
      p.site.contains j (valueAt flows j) (siteSlack p tolerance) = true) := by
  have hinside : (∀ j < p.len, p.site.contains j (valueAt flows j) (siteSlack p tolerance) = true) ↔
      p.grid.slots.find? (fun j => !p.site.contains j (valueAt flows j) (siteSlack p tolerance)) =
        none := by
    rw [List.find?_eq_none]
    refine forall_congr' fun j => ?_
    have hslot : j ∈ p.grid.slots ↔ j < p.len := List.mem_range
    rw [hslot, Bool.not_eq_true', Bool.not_eq_false]
  rw [checkSite]
  by_cases hempty : p.siteMembers = []
  · simp [hempty]
  · rw [if_neg (by simpa using hempty), hinside]
    cases hfind : p.grid.slots.find? (fun j => !p.site.contains j (valueAt flows j)
        (siteSlack p tolerance)) with
    | none => simp [hempty, hfind]
    | some j => simp [hempty, hfind, reject]

theorem checkGroup_iff {plan : Plan α} {c : Commitment α} {g : GroupColumns α} :
    checkGroup p h tolerance values plan c g = .ok () ↔ ∀ j ∈ g.slots,
      linked tolerance c.grouping (scope p h values plan c j) (c.baseline j)
        ((values g.up).getD 0) ((values g.down).getD 0) = true := by
  simp only [checkGroup]
  rw [Checked.forM_eq_ok]
  refine forall₂_congr fun j _ => ?_
  split_ifs with hlinked
  · exact iff_of_true rfl hlinked
  · exact iff_of_false nofun hlinked

theorem checkLinks_iff {plan : Plan α} :
    checkLinks p h tolerance values plan = .ok () ↔
      ∀ c columns, (c, columns) ∈ p.commitments.zip h.commitments → ∀ g ∈ columns.groups,
        ∀ j ∈ g.slots, linked tolerance c.grouping (scope p h values plan c j) (c.baseline j)
          ((values g.up).getD 0) ((values g.down).getD 0) = true := by
  rw [checkLinks, Checked.forM_eq_ok, Prod.forall]
  refine forall₃_congr fun c columns _ => ?_
  rw [Checked.forM_eq_ok]
  exact forall₂_congr fun g _ => checkGroup_iff

theorem check_iff {plan : Plan α} : check p h tolerance values plan = .ok () ↔
    checkSite p tolerance plan.sitePowers = .ok () ∧
      checkLinks p h tolerance values plan = .ok () := by
  rw [check, Checked.bind_eq_ok]
  exact ⟨fun ⟨_, hsite, hlinks⟩ => ⟨hsite, hlinks⟩, fun ⟨hsite, hlinks⟩ => ⟨(), hsite, hlinks⟩⟩

end Plan

/-! ## The site -/

section
variable {p : Problem Exact} {h : Handles Exact} {t : ℝ} {a : Answer}

theorem powerOf_told {i j : ℕ} (hi : i < h.devices.length) (hj : j < p.len) :
    Plan.powerOf (h.told p t a).devices i j = num (h.power t a i j) := by
  have hget : (h.told p t a).devices[i]? = some (toldDevice p t a h.devices[i]) := by
    rw [Handles.told, List.getElem?_map, List.getElem?_eq_getElem hi, Option.map_some]
  rw [Plan.powerOf, hget, Handles.power, List.getD_eq_getElem _ _ hi]
  exact p.valueAt_series _ hj

theorem siteFlows_told (hlen : p.devices.length = h.devices.length) :
    Plan.siteFlows p (num t) (h.told p t a).devices = (h.told p t a).sitePowers := by
  rw [Plan.siteFlows, Handles.told, Problem.series]
  refine List.map_congr_left fun j hj => ?_
  have hpower : p.siteMembers.map (fun i => Plan.powerOf (h.told p t a).devices i j) =
      p.siteMembers.map fun i => num (h.power t a i j) := by
    refine List.map_congr_left fun i hi => ?_
    obtain ⟨d, hd, -⟩ := Problem.mem_siteMembers.mp hi
    exact powerOf_told (hlen ▸ (List.getElem?_eq_some_iff.mp hd).1) (List.mem_range.mp hj)
  rw [Handles.told] at hpower
  rw [hpower, sum_map_num, clean_num]
  rfl

theorem siteSlack_eq (hp : p.Sound) : Plan.siteSlack p (num t) = num (p.siteRoom t) := by
  have hbounds : (p.siteMembers.map fun i => (p.devices[i]?.map Device.flowBound).getD 0) =
      (p.devices.filter fun d => d.onSite).map fun d => num d.bound := by
    rw [Problem.siteMembers, Problem.siteDevices_eq, List.map_map, List.map_map]
    refine List.map_congr_left fun x hx => ?_
    have hd := List.mem_zipIdx_iff_getElem?.mp (List.mem_filter.mp hx).1
    simp only [Function.comp_apply, hd, Option.map_some, Option.getD_some]
    exact (hp.device_of_get hd).flowBound_eq
  rw [Plan.siteSlack, hbounds, sum_map_num, one_eq, num_add, num_mul, Problem.siteRoom]

theorem contains_iff {j : ℕ} {room x : ℝ} :
    p.site.contains j (num x) (num room) = true ↔ SitePasses p room j x := by
  rw [SiteLimits.contains, Bool.and_eq_true]
  exact ⟨fun ⟨hlow, hhigh⟩ => ⟨hlow, hhigh⟩, fun ⟨hlow, hhigh⟩ => ⟨hlow, hhigh⟩⟩

theorem checkSite_eq_ok (hp : p.Sound) {x : ℕ → ℝ} :
    Plan.checkSite p (num t) (p.series x) = .ok () ↔
      (p.siteMembers ≠ [] → ∀ j < p.len, SitePasses p (p.siteRoom t) j (x j)) := by
  rw [Plan.checkSite_iff, siteSlack_eq hp]
  refine forall_congr' fun _ => forall₂_congr fun j hj => ?_
  rw [p.valueAt_series x hj, contains_iff]

/-! ## Links -/

theorem linked_iff {grouping : Grouping} {x q up down : ℝ} :
    Plan.linked (num t) grouping (num x) (num q) (num up) (num down) = true ↔
      LinkPasses t grouping x q up down := by
  have hroom : t * (1 + |x| + |q| + up + down) * 10 = linkRoom t x q up down := by
    rw [linkRoom]
    ring
  cases grouping with
  | each =>
    simp only [Plan.linked, one_eq, ofNat_eq, num_sub, num_add, num_mul, num_abs, num_le,
      Nat.cast_ofNat, hroom, decide_eq_true_eq]
    exact Iff.rfl
  | any =>
    simp only [Plan.linked, one_eq, ofNat_eq, num_sub, num_add, num_mul, num_abs, num_le,
      Nat.cast_ofNat, hroom, Bool.and_eq_true, decide_eq_true_eq]
    exact Iff.rfl

theorem getD_values (i : ℕ) : (a.values i).getD 0 = num (a.filled i) := by
  rw [Answer.values, Answer.filled]
  cases a i with
  | none => rfl
  | some x => rfl

theorem scope_told (hp : p.Sound) (hshape : List.Forall₂ (DeviceShape p) p.devices h.devices)
    {c : Commitment Exact} (hc : c ∈ p.commitments) {j : ℕ} (hj : j < p.len) :
    Plan.scope p h a.values (h.told p t a) c j = num (h.measured p t a c j) := by
  rw [Plan.scope, Handles.measured]
  cases hkind : c.kind with
  | flow =>
    cases hi : p.committed? c with
    | none => exact p.valueAt_series _ hj
    | some i =>
      obtain ⟨d, hd, -⟩ := hp.committed_device hc hi
      exact powerOf_told (hshape.length_eq ▸ (List.getElem?_eq_some_iff.mp hd).1) hj
  | stock =>
    cases hi : p.committed? c with
    | none => rfl
    | some i =>
      obtain ⟨d, hd, hstock⟩ := hp.committed_device hc hi
      obtain ⟨s, hs⟩ := hstock hkind
      have hcolumns := (forall₂_iff_getD hshape.length_eq .empty).mp hshape i d hd
      obtain ⟨levels, hlevels⟩ := Option.isSome_iff_exists.mp
        (hcolumns.stock.trans (by rw [hs]; rfl))
      simp only [hlevels, Handles.level, DeviceColumns.levelAt, Option.getD_some]
      exact getD_values _

end

/-! ## Whole plans -/

namespace Model.Built
variable {p : Problem Exact} {margin t : ℝ} {m : Model Exact} {a : Answer}

theorem checkLinks_eq_ok (hb : m.Built p (num margin)) (hp : p.Sound) :
    Plan.checkLinks p m.handles (num t) a.values (m.handles.told p t a) = .ok () ↔
      ∀ c columns, (c, columns) ∈ p.commitments.zip m.handles.commitments → ∀ g ∈ columns.groups,
        ∀ j ∈ g.slots, LinkPasses t c.grouping (m.handles.measured p t a c j) (c.level j)
          (a.filled g.up) (a.filled g.down) := by
  rw [Plan.checkLinks_iff]
  refine forall₃_congr fun c columns hmem => forall₄_congr fun g hg j hj => ?_
  have hc := (List.of_mem_zip hmem).1
  have hsound := hp.commitment c hc
  obtain ⟨group, hgroup, hshape⟩ := hb.exists_group hmem hg
  have hactive := hsound.mem_activeSlots_of_group (List.of_mem_zip hgroup).1 (hshape.slots ▸ hj)
  rw [scope_told hp hb.devices hc (hsound.slot_lt j hactive), hsound.baseline_eq j hactive,
    getD_values, getD_values, linked_iff]

/-- The devices answer for their conditions one by one. -/
theorem forall_devices (hb : m.Built p (num margin)) :
    (∀ x ∈ p.devices.zip m.handles.devices, DevicePasses p t x.1 x.2 a) ↔
      ∀ i d, p.devices[i]? = some d → DevicePasses p t d (m.handles.devices.getD i .empty) a := by
  have hlen := hb.devices.length_eq
  rw [← forall₂_iff_getD (R := fun d c => DevicePasses p t d c a) hlen, List.forall₂_iff_zip,
    and_iff_right hlen, Prod.forall]

theorem ofDevices_told (hb : m.Built p (num margin)) :
    Plan.ofDevices p (num t) ((p.devices.zip m.handles.devices).map fun x => toldDevice p t a x.2) =
      m.handles.told p t a := by
  have htold : (p.devices.zip m.handles.devices).map (fun x => toldDevice p t a x.2) =
      (m.handles.told p t a).devices := by
    rw [Handles.told]
    conv_rhs => rw [← List.map_snd_zip hb.devices.length_eq.ge, List.map_map]
    rfl
  rw [htold, Plan.ofDevices, siteFlows_told hb.devices.length_eq]

/-- The plan that an answer states holds together just when the answer passes at the site and the
links. -/
theorem check_eq_ok (hb : m.Built p (num margin)) (hp : p.Sound) :
    Plan.check p m.handles (num t) a.values (m.handles.told p t a) = .ok () ↔
      (p.siteMembers ≠ [] → ∀ j < p.len, SitePasses p (p.siteRoom t) j (m.handles.sitePower p t a j)) ∧
      ∀ c columns, (c, columns) ∈ p.commitments.zip m.handles.commitments → ∀ g ∈ columns.groups,
        ∀ j ∈ g.slots, LinkPasses t c.grouping (m.handles.measured p t a c j) (c.level j)
          (a.filled g.up) (a.filled g.down) := by
  rw [Plan.check_iff, ← hb.checkLinks_eq_ok hp, ← checkSite_eq_ok hp]
  exact Iff.rfl

end Model.Built

/-! ## Refusals -/

/-- The solve failed because the answer is incomplete or fails a check. -/
def SolveFault.IsRefusal {α : Type} (e : SolveFault α) : Prop :=
  e = .failed .incomplete ∨ ∃ cause, e = .failed (.rejected cause)

namespace Plan
open Checked

variable {α β : Type}

theorem reject_fails (cause : Rejection α) :
    FailsWith SolveFault.IsRefusal (reject cause : Except (SolveFault α) β) :=
  failsWith_error (.inr ⟨cause, rfl⟩)

theorem valueOf_fails (values : Assignment α) (i : ℕ) :
    FailsWith SolveFault.IsRefusal (valueOf values i) := by
  rw [valueOf]
  cases values i with
  | none => exact failsWith_error (.inl rfl)
  | some v => exact failsWith_ok v

theorem guard_fails {b : Prop} [Decidable b] {cause : Rejection α} {f : Unit → Except (SolveFault α) β}
    (hf : ∀ u, FailsWith SolveFault.IsRefusal (f u)) :
    FailsWith SolveFault.IsRefusal (if b then reject cause >>= f else f ()) :=
  .ite ((reject_fails cause).bind hf) (hf ())

variable [Scalar α]

theorem readFlow_fails (t : α) (d : Device α) (c : DeviceColumns) (values : Assignment α) (j : ℕ) :
    FailsWith SolveFault.IsRefusal (readFlow t d c values j) :=
  (valueOf_fails values _).bind fun _ => (valueOf_fails values _).bind fun _ =>
    guard_fails fun _ => guard_fails fun _ => guard_fails fun _ => failsWith_ok _

theorem readStock_fails (p : Problem α) (t : α) (d : Device α) (s : Stock α) (levels : List ℕ)
    (values : Assignment α) (powers : List α) :
    FailsWith SolveFault.IsRefusal (readStock p t d s levels values powers) := by
  refine (FailsWith.mapM (valueOf_fails values) levels).bind fun solved => ?_
  cases s.violations (s.replay powers p.hours) (stockSlack t p.hours d p.len) with
  | nil => exact failsWith_ok _
  | cons j js => exact reject_fails _

theorem readDevice_fails (p : Problem α) (t : α) (values : Assignment α) (d : Device α)
    (c : DeviceColumns) : FailsWith SolveFault.IsRefusal (readDevice p t values d c) := by
  refine (FailsWith.mapM (readFlow_fails t d c values) p.grid.slots).bind fun powers => ?_
  cases d.stock with
  | none => exact failsWith_ok _
  | some s =>
    cases c.stock with
    | none => exact failsWith_ok _
    | some levels =>
      exact (readStock_fails p t d s levels values powers).bind fun _ => failsWith_ok _

theorem checkSite_fails (p : Problem α) (t : α) (flows : List α) :
    FailsWith SolveFault.IsRefusal (checkSite p t flows) := by
  refine .ite (failsWith_ok ()) ?_
  dsimp only
  cases p.grid.slots.find? fun j => !p.site.contains j (valueAt flows j) (siteSlack p t) with
  | none => exact failsWith_ok ()
  | some j => exact reject_fails _

theorem checkLinks_fails (p : Problem α) (h : Handles α) (t : α) (values : Assignment α)
    (plan : Plan α) : FailsWith SolveFault.IsRefusal (checkLinks p h t values plan) :=
  FailsWith.forM (fun _ => FailsWith.forM (fun _ => FailsWith.forM (fun _ =>
    .ite (failsWith_ok ()) (reject_fails _)) _) _) _

theorem check_fails (p : Problem α) (h : Handles α) (t : α) (values : Assignment α) (plan : Plan α) :
    FailsWith SolveFault.IsRefusal (check p h t values plan) :=
  (checkSite_fails p t _).bind fun _ => checkLinks_fails p h t values _

end Plan

end Dispatch
