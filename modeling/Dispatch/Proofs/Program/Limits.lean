import Dispatch.Proofs.Program.Flows

/-! # The hard limits of a problem as conditions on columns

* `exists_values`: columns without repetition can be given any values.
* `Model.Built.admits`: values that fit the devices and the site have admitted flows, with at most one
  half of each different from zero and with the replayed levels.
* `Model.Built.exists_held`: every admitted plan is the plan of such values; so is every plan that
  respects the limits that are numbers (`Problem.FitsLimits`).
-/

namespace Dispatch
set_option autoImplicit false

open Exact Scalar

/-! ## Giving columns their values -/

theorem exists_values {ι : Type} (xs : List ι) (pairs : ι → List (ℕ × ℝ))
    (h : ((xs.flatMap pairs).map Prod.fst).Nodup) :
    ∃ v : ℕ → ℝ, ∀ x ∈ xs, ∀ y ∈ pairs x, v y.1 = y.2 := by
  classical
  refine ⟨fun i => if h : ∃ y ∈ xs.flatMap pairs, y.1 = i then h.choose.2 else 0, fun x hx y hy => ?_⟩
  have hmem : y ∈ xs.flatMap pairs := List.mem_flatMap.mpr ⟨x, hx, hy⟩
  have hex : ∃ z ∈ xs.flatMap pairs, z.1 = y.1 := ⟨y, hmem, rfl⟩
  show (if h : ∃ z ∈ xs.flatMap pairs, z.1 = y.1 then h.choose.2 else 0) = y.2
  rw [dif_pos hex, List.inj_on_of_nodup_map h hex.choose_spec.1 hmem hex.choose_spec.2]

def along (columns : List ℕ) (f : ℕ → ℝ) : List (ℕ × ℝ) :=
  columns.zipIdx.map fun x => (x.1, f x.2)

/-- One value per slot that has a column. -/
def alongSome (columns : List (Option ℕ)) (f : ℕ → ℝ) : List (ℕ × ℝ) :=
  columns.zipIdx.filterMap fun x => x.1.map fun i => (i, f x.2)

theorem map_fst_along (columns : List ℕ) (f : ℕ → ℝ) : (along columns f).map Prod.fst = columns := by
  rw [along, List.map_map]
  exact List.zipIdx_map_fst 0 columns

theorem map_fst_alongSome (columns : List (Option ℕ)) (f : ℕ → ℝ) :
    (alongSome columns f).map Prod.fst = columns.reduceOption := by
  rw [alongSome]
  generalize 0 = n
  induction columns generalizing n with
  | nil => rfl
  | cons s columns ih =>
    have hrest := ih (n + 1)
    cases s with
    | none => simpa [List.reduceOption] using hrest
    | some i => simpa [List.reduceOption] using hrest

theorem mem_along {columns : List ℕ} {j : ℕ} (h : j < columns.length) (f : ℕ → ℝ) :
    (columns.getD j 0, f j) ∈ along columns f := by
  refine List.mem_map.mpr ⟨(columns.getD j 0, j), List.mem_zipIdx_iff_getElem?.mpr ?_, rfl⟩
  rw [List.getD_eq_getElem _ _ h, List.getElem?_eq_getElem h]

theorem mem_alongSome {columns : List (Option ℕ)} {i j : ℕ} (h : columns.getD j none = some i)
    (f : ℕ → ℝ) : (i, f j) ∈ alongSome columns f := by
  refine List.mem_filterMap.mpr ⟨(some i, j), List.mem_zipIdx_iff_getElem?.mpr ?_, rfl⟩
  rw [List.getD_eq_getElem?_getD] at h
  cases hj : columns[j]? with
  | none => simp [hj] at h
  | some s => simpa [hj] using h

namespace DeviceColumns

noncomputable def assign (c : DeviceColumns) (flow level : ℕ → ℝ) : List (ℕ × ℝ) :=
  along c.up (fun j => upHalf (flow j)) ++ along c.down (fun j => downHalf (flow j)) ++
    alongSome c.selector (fun j => if 0 < flow j then 1 else 0) ++ along (c.stock.getD []) level

theorem map_fst_assign (c : DeviceColumns) (flow level : ℕ → ℝ) :
    (c.assign flow level).map Prod.fst = c.owned.map Prod.fst := by
  have howned (b : Bool) (xs : List ℕ) : (xs.map fun i => (i, b)).map Prod.fst = xs := by
    rw [List.map_map]
    exact List.map_id xs
  simp only [assign, owned, List.map_append, map_fst_along, map_fst_alongSome, howned]

section
variable {p : Problem Exact} {d : Device Exact} {c : DeviceColumns} {v flow level : ℕ → ℝ} {j : ℕ}

theorem up_of_assign (hshape : DeviceShape p d c) (h : ∀ y ∈ c.assign flow level, v y.1 = y.2)
    (hj : j < p.len) : v (c.slot j).up = upHalf (flow j) := by
  refine h (c.up.getD j 0, upHalf (flow j)) ?_
  simp only [assign, List.mem_append]
  exact .inl (.inl (.inl (mem_along (hshape.up_length.symm ▸ hj) _)))

theorem down_of_assign (hshape : DeviceShape p d c) (h : ∀ y ∈ c.assign flow level, v y.1 = y.2)
    (hj : j < p.len) : v (c.slot j).down = downHalf (flow j) := by
  refine h (c.down.getD j 0, downHalf (flow j)) ?_
  simp only [assign, List.mem_append]
  exact .inl (.inl (.inr (mem_along (hshape.down_length.symm ▸ hj) _)))

theorem selector_of_assign (h : ∀ y ∈ c.assign flow level, v y.1 = y.2) {i : ℕ}
    (hi : (c.slot j).selector = some i) : v i = if 0 < flow j then 1 else 0 := by
  refine h (i, if 0 < flow j then 1 else 0) ?_
  simp only [assign, List.mem_append]
  exact .inl (.inr (mem_alongSome hi _))

theorem level_of_assign (hshape : DeviceShape p d c) (h : ∀ y ∈ c.assign flow level, v y.1 = y.2)
    (hstock : d.stock.isSome = true) (hj : j < p.len) : c.levelAt v j = level j := by
  obtain ⟨levels, hlevels⟩ := Option.isSome_iff_exists.mp (hshape.stock.trans hstock)
  refine h ((c.stock.getD []).getD j 0, level j) ?_
  simp only [assign, List.mem_append]
  refine .inr (mem_along ?_ _)
  rw [hlevels, Option.getD_some, hshape.stock_length levels hlevels]
  exact hj

end

end DeviceColumns

/-- The levels that a plan of a device leads to. -/
noncomputable def Problem.levels (p : Problem Exact) (d : Device Exact) (flow : ℕ → ℝ) (j : ℕ) : ℝ :=
  match d.stock with
  | some s => s.path p.realHours flow (j + 1)
  | none => 0

/-- The flows respect the power bands, and every other limit that is a number. -/
structure Problem.FitsLimits (p : Problem Exact) (flow : ℕ → ℕ → ℝ) : Prop where
  band : ∀ i (d : Device Exact), p.devices[i]? = some d → ∀ j < p.len, d.InBand j (flow i j)
  level : ∀ i (d : Device Exact) (s : Stock Exact), p.devices[i]? = some d → d.stock = some s →
    ∀ j < p.len, LevelFits s j (s.path p.realHours (flow i) (j + 1))
  site : p.siteMembers ≠ [] → ∀ j < p.len,
    (Scalar.isFinite (valueAt p.site.min j) = true →
      valueAt p.site.min j ≤ num (p.siteFlow flow j)) ∧
    (Scalar.isFinite (valueAt p.site.max j) = true →
      num (p.siteFlow flow j) ≤ valueAt p.site.max j)

theorem Problem.Admits.fitsLimits {p : Problem Exact} {flow : ℕ → ℕ → ℝ} (h : p.Admits flow)
    (hp : p.Sound) : p.FitsLimits flow := by
  refine ⟨fun i d hd j hj => (hp.band_iff hd hj _).mp (h.band i d hd j hj),
    fun i d s hd hs j hj => ?_,
    fun hmembers j hj => ⟨fun _ => (h.site hmembers j hj).1, fun _ => (h.site hmembers j hj).2⟩⟩
  have hsound := (hp.device_of_get hd).stock s hs
  have hkeeps := h.stock i d s hd hs j hj
  rw [hp.valueAt_replay hd hs _ hj] at hkeeps
  exact hkeeps.fits hsound.initial_eq (hsound.slot j hj)

/-! ## From columns to plans -/

namespace Handles

def up (h : Handles Exact) (v : ℕ → ℝ) (i j : ℕ) : ℝ := v ((h.devices.getD i .empty).up.getD j 0)

def down (h : Handles Exact) (v : ℕ → ℝ) (i j : ℕ) : ℝ := v ((h.devices.getD i .empty).down.getD j 0)

end Handles

/-- Members on the left have their partners on the right. -/
theorem exists_of_mem_left {β γ : Type} {R : β → γ → Prop} {xs : List β} {ys : List γ}
    (h : List.Forall₂ R xs ys) {x : β} (hx : x ∈ xs) : ∃ y, (x, y) ∈ xs.zip ys ∧ R x y := by
  rw [← List.map_fst_zip h.length_eq.le] at hx
  obtain ⟨⟨_, y⟩, hmem, rfl⟩ := List.mem_map.mp hx
  exact ⟨y, hmem, List.forall₂_zip h hmem⟩

theorem exists_of_mem_right {β γ : Type} {R : β → γ → Prop} {xs : List β} {ys : List γ}
    (h : List.Forall₂ R xs ys) {y : γ} (hy : y ∈ ys) : ∃ x, (x, y) ∈ xs.zip ys ∧ R x y := by
  rw [← List.map_snd_zip h.length_eq.ge] at hy
  obtain ⟨⟨x, _⟩, hmem, rfl⟩ := List.mem_map.mp hy
  exact ⟨x, hmem, List.forall₂_zip h hmem⟩

theorem forall₂_iff_getD {β γ : Type} {R : β → γ → Prop} {xs : List β} {ys : List γ}
    (hlen : xs.length = ys.length) (y : γ) :
    List.Forall₂ R xs ys ↔ ∀ i x, xs[i]? = some x → R x (ys.getD i y) := by
  rw [List.forall₂_iff_get]
  constructor
  · rintro ⟨-, h⟩ i x hx
    obtain ⟨hi, rfl⟩ := List.getElem?_eq_some_iff.mp hx
    rw [List.getD_eq_getElem _ _ (hlen ▸ hi)]
    exact h i hi (hlen ▸ hi)
  · intro h
    refine ⟨hlen, fun i hi hi' => ?_⟩
    have := h i xs[i] (List.getElem?_eq_getElem hi)
    rwa [List.getD_eq_getElem _ _ hi'] at this

theorem flatMap_snd_zip {β γ δ : Type} {xs : List β} {ys : List γ} (h : xs.length = ys.length)
    (f : γ → List δ) : ((xs.zip ys).flatMap fun x => f x.2) = ys.flatMap f := by
  conv_rhs => rw [← List.map_snd_zip h.ge, List.flatMap_map]

theorem flatMap_fst_zipIdx {β δ : Type} {xs : List β} (f : β → List δ) :
    (xs.zipIdx.flatMap fun x => f x.1) = xs.flatMap f := by
  conv_rhs => rw [← List.zipIdx_map_fst 0 xs, List.flatMap_map]

namespace Model.Built
variable {p : Problem Exact} {margin : ℝ} {m : Model Exact} {v : ℕ → ℝ}

theorem shape (hb : m.Built p (num margin)) {i : ℕ} {d : Device Exact}
    (hd : p.devices[i]? = some d) : DeviceShape p d (m.handles.devices.getD i .empty) :=
  (forall₂_iff_getD hb.devices.length_eq _).mp hb.devices i d hd

theorem devicesHeld_iff (hb : m.Built p (num margin)) (hp : p.Sound) :
    DevicesHeld p (num margin) m.handles (fun i => num (v i)) ↔
      ∀ i d, p.devices[i]? = some d →
        DeviceFits p margin d (m.handles.devices.getD i .empty) v := by
  rw [DevicesHeld, forall₂_iff_getD hb.devices.length_eq .empty]
  exact forall₃_congr fun i d hd => deviceHeld_iff (hp.device_of_get hd) (hb.shape hd)

theorem halves (hb : m.Built p (num margin)) (hp : p.Sound)
    (held : DevicesHeld p (num margin) m.handles fun i => num (v i)) {i : ℕ}
    {d : Device Exact} (hd : p.devices[i]? = some d) {j : ℕ} (hj : j < p.len) :
    m.handles.up v i j = upHalf (m.handles.flow v i j) ∧
      m.handles.down v i j = downHalf (m.handles.flow v i j) := by
  have fits := (hb.devicesHeld_iff hp).mp held i d hd
  obtain ⟨hup, hdown⟩ := halves_of_slotFits (hp.device_of_get hd) (hb.shape hd) fits.slot j hj
  exact ⟨hup.symm, hdown.symm⟩

theorem level_eq (hb : m.Built p (num margin)) (hp : p.Sound)
    (held : DevicesHeld p (num margin) m.handles fun i => num (v i)) {i : ℕ}
    {d : Device Exact} (hd : p.devices[i]? = some d) {s : Stock Exact} (hs : d.stock = some s) {j : ℕ}
    (hj : j < p.len) :
    m.handles.level v i j = s.path p.realHours (m.handles.flow v i) (j + 1) :=
  (((hb.devicesHeld_iff hp).mp held i d hd).level s hs j hj).1

theorem inBand (hb : m.Built p (num margin)) (hp : p.Sound)
    (held : DevicesHeld p (num margin) m.handles fun i => num (v i)) {i : ℕ}
    {d : Device Exact} (hd : p.devices[i]? = some d) {j : ℕ} (hj : j < p.len) :
    d.InBand j (m.handles.flow v i j) :=
  (((hb.devicesHeld_iff hp).mp held i d hd).slot j hj).inBand (hp.device_of_get hd) hj
    ((hb.shape hd).slot j hj)

/-- Values that fit the devices and the site come from an admitted plan. -/
theorem admits (hb : m.Built p (num margin)) (hp : p.Sound) (hbounds : p.ProperBounds)
    (held : DevicesHeld p (num margin) m.handles fun i => num (v i))
    (site : SitesHeld p m.handles fun i => num (v i)) : p.Admits (m.handles.flow v) := by
  refine ⟨fun i d hd j hj => ?_, fun i d s hd hs j hj => ?_, fun hmembers j hj => ?_⟩
  · exact (hp.band_iff hd hj _).mpr (hb.inBand hp held hd hj)
  · have hsound := (hp.device_of_get hd).stock s hs
    obtain ⟨hlevel, hfits⟩ := ((hb.devicesHeld_iff hp).mp held i d hd).level s hs j hj
    rw [hp.valueAt_replay hd hs _ hj]
    have := hfits.keeps hsound.initial_eq (hsound.slot j hj)
      (hbounds.stock d (List.mem_of_getElem? hd) s hs j hj)
    rwa [hlevel] at this
  · obtain ⟨hlow, hhigh⟩ := siteHeld_iff.mp (site hmembers j hj)
    obtain ⟨hmin, hmax⟩ := hbounds.site j hj
    refine ⟨?_, ?_⟩
    · rcases hmin with h | h
      · exact hlow h
      · rw [h, negInfinity_eq]
        exact negInf_le_num _
    · rcases hmax with h | h
      · exact hhigh h
      · rw [h, infinity_eq]
        exact num_le_inf _

/-! ## From plans to columns -/

/-- The columns of the devices can hold any flows, with the levels that these lead to. -/
theorem exists_assigned (hb : m.Built p (num margin)) (flow : ℕ → ℕ → ℝ) :
    ∃ v : ℕ → ℝ, ∀ i d, p.devices[i]? = some d → ∀ y ∈
      (m.handles.devices.getD i .empty).assign (flow i) (p.levels d (flow i)), v y.1 = y.2 := by
  have hlen := hb.devices.length_eq
  have hfst : (((p.devices.zip m.handles.devices).zipIdx.flatMap fun x =>
      x.1.2.assign (flow x.2) (p.levels x.1.1 (flow x.2))).map Prod.fst) =
      m.handles.deviceColumns.map Prod.fst := by
    rw [Handles.deviceColumns, List.map_flatMap, List.map_flatMap]
    simp only [DeviceColumns.map_fst_assign]
    rw [flatMap_fst_zipIdx fun x : Device Exact × DeviceColumns => x.2.owned.map Prod.fst]
    exact flatMap_snd_zip hlen fun c => c.owned.map Prod.fst
  have hnodup := hb.nodup
  rw [List.map_append] at hnodup
  obtain ⟨v, hv⟩ := exists_values _ _ (hfst ▸ hnodup.of_append_left)
  refine ⟨v, fun i d hd => hv ((d, m.handles.devices.getD i .empty), i) ?_⟩
  refine List.mem_zipIdx_iff_getElem?.mpr (List.getElem?_zip_eq_some.mpr ⟨hd, ?_⟩)
  obtain ⟨hi, -⟩ := List.getElem?_eq_some_iff.mp hd
  rw [List.getD_eq_getElem _ _ (hlen ▸ hi), List.getElem?_eq_getElem]

/-- The columns of the devices can hold a plan that respects the finite limits. -/
theorem exists_held_of_fits (hb : m.Built p (num margin)) (hp : p.Sound) (hmargin : 0 ≤ margin)
    {flow : ℕ → ℕ → ℝ} (h : p.FitsLimits flow) :
    ∃ v : ℕ → ℝ, DevicesHeld p (num margin) m.handles (fun i => num (v i)) ∧
      SitesHeld p m.handles (fun i => num (v i)) ∧
      ∀ i < p.devices.length, ∀ j < p.len, m.handles.flow v i j = flow i j := by
  obtain ⟨v, hv⟩ := hb.exists_assigned flow
  have hflow : ∀ i < p.devices.length, ∀ j < p.len, m.handles.flow v i j = flow i j := by
    intro i hi j hj
    have hd := List.getElem?_eq_getElem hi
    rw [← upHalf_add_downHalf (flow i j), ← DeviceColumns.up_of_assign (hb.shape hd) (hv i _ hd) hj,
      ← DeviceColumns.down_of_assign (hb.shape hd) (hv i _ hd) hj]
    rfl
  refine ⟨v, (hb.devicesHeld_iff hp).mpr fun i d hd => ?_, fun hmembers j hj => ?_, hflow⟩
  · have hshape := hb.shape hd
    refine deviceFits_of_halves (hp.device_of_get hd) hmargin (h.band i d hd)
      (fun s hs j hj => h.level i d s hd hs j hj)
      (fun j hj => DeviceColumns.up_of_assign hshape (hv i d hd) hj)
      (fun j hj => DeviceColumns.down_of_assign hshape (hv i d hd) hj)
      (fun j _ k hk => DeviceColumns.selector_of_assign (hv i d hd) hk) (fun s hs j hj => ?_)
    rw [DeviceColumns.level_of_assign hshape (hv i d hd) (by rw [hs]; rfl) hj, Problem.levels, hs]
  · rw [siteHeld_iff, Problem.siteFlow_congr fun i hi => hflow i hi j hj]
    exact h.site hmembers j hj

/-- The columns of the devices can hold an admitted plan. -/
theorem exists_held (hb : m.Built p (num margin)) (hp : p.Sound) (hmargin : 0 ≤ margin)
    {flow : ℕ → ℕ → ℝ} (h : p.Admits flow) :
    ∃ v : ℕ → ℝ, DevicesHeld p (num margin) m.handles (fun i => num (v i)) ∧
      SitesHeld p m.handles (fun i => num (v i)) ∧
      ∀ i < p.devices.length, ∀ j < p.len, m.handles.flow v i j = flow i j :=
  hb.exists_held_of_fits hp hmargin (h.fitsLimits hp)

end Model.Built

end Dispatch
