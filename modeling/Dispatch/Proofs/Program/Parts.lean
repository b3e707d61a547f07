import Mathlib.Data.List.ReduceOption
import Dispatch.Proofs.Program.Emission
import Dispatch.Proofs.Program.Linear

/-! # The columns and rows of each part of a problem

* `SlotHeld`, `LevelHeld`, `DeviceHeld`, `SiteHeld`, `LinkHeld`, `GroupHeld`: what holds of values that
  fit the columns and rows that each part of a problem adds, row by row.
* `SlotColumns.owned`, `DeviceColumns.owned`, `GroupColumns.owned`: the columns of each part, each with
  whether it is binary.
* `adds_buildSlot` to `adds_buildCommitment`: building a part adds exactly its columns, and exactly
  these conditions.
-/

namespace Dispatch
set_option autoImplicit false

variable {α : Type} [Scalar α]
open Scalar Build

/-- A value inside the bounds of a column, whatever its name. -/
def Within (lower upper : α) (integer : Bool) (x : α) : Prop :=
  (le lower x && le x upper && (!integer || eq x 0 || eq x 1)) = true

/-! ## One slot of a device -/

def SlotColumns.owned (c : SlotColumns) : List (ℕ × Bool) :=
  (c.up, false) :: (c.down, false) :: c.selector.toList.map fun s => (s, true)

def SlotColumns.both (c : SlotColumns) : LinExpr α := LinExpr.col c.up + LinExpr.col c.down

structure SlotHeld (d : Device α) (bigM : α) (j : ℕ) (c : SlotColumns) (values : ℕ → α) :
    Prop where
  up : Within 0 (maxNum (valueAt d.powerMax j) 0) false (values c.up)
  down : Within (minNum (valueAt d.powerMin j) 0) 0 false (values c.down)
  low : gt (valueAt d.powerMin j) 0 = true →
    (Row.ge c.both (.const (valueAt d.powerMin j))).holds values = true
  high : lt (valueAt d.powerMax j) 0 = true →
    (Row.le c.both (.const (valueAt d.powerMax j))).holds values = true
  selector : ∀ s, c.selector = some s → Within 0 1 true (values s) ∧
    (Row.le (.col c.up) (.term bigM s)).holds values = true ∧
    (Row.le (.term bigM s - .col c.down) (.const bigM)).holds values = true

/-- A slot has a selector just where both halves may flow. -/
def SlotShape (d : Device α) (j : ℕ) (c : SlotColumns) : Prop :=
  c.selector.isSome = d.isBidirectional j

theorem adds_buildSlot (d : Device α) (bigM : α) (j n : ℕ) :
    ∃ k c, SlotShape d j c ∧ Adds (buildSlot d bigM j) n k c c.owned (SlotHeld d bigM j c) := by
  have hup {k : ℕ} (hk : n < k) : (LinExpr.col n : LinExpr α).Below k := LinExpr.below_col hk
  have hdown {k : ℕ} (hk : n + 1 < k) : (LinExpr.col (n + 1) : LinExpr α).Below k :=
    LinExpr.below_col hk
  have hboth := (hup (by omega : n < n + 2)).add (hdown (by omega))
  have hlow := adds_rowWhen (gt (valueAt d.powerMin j) 0)
    (Row.ge_below hboth (LinExpr.below_const (n + 2) (valueAt d.powerMin j)))
  have hhigh := adds_rowWhen (lt (valueAt d.powerMax j) 0)
    (Row.le_below hboth (LinExpr.below_const (n + 2) (valueAt d.powerMax j)))
  by_cases hbi : d.isBidirectional j = true
  · have hchosen : (LinExpr.term bigM (n + 2) : LinExpr α).Below (n + 3) :=
      LinExpr.below_term bigM (by omega)
    have hupper := adds_row (Row.le_below (hup (by omega : n < n + 3)) hchosen)
    have hlower := adds_row (Row.le_below (hchosen.sub (hdown (by omega)))
      (LinExpr.below_const (n + 3) bigM))
    refine ⟨n + 3, ⟨n, n + 1, some (n + 2)⟩, hbi.symm, ?_⟩
    unfold buildSlot
    simp only [hbi, if_true]
    refine Adds.congr ((adds_column n _).bind ((adds_column (n + 1) _).bind (hlow.bind
      (hhigh.bind ((adds_binary (n + 2)).bind (hupper.bind (hlower.bind
        (adds_pure (n + 3) _)))))))) (List.Perm.refl _) fun values => ?_
    constructor
    · rintro ⟨h1, h2, h3, h4, h5, h6, h7, -⟩
      exact ⟨h1, h2, h3, h4, fun s hs => Option.some.inj hs ▸ ⟨h5, h6, h7⟩⟩
    · rintro ⟨h1, h2, h3, h4, h5⟩
      obtain ⟨h5, h6, h7⟩ := h5 (n + 2) rfl
      exact ⟨h1, h2, h3, h4, h5, h6, h7, trivial⟩
  · refine ⟨n + 2, ⟨n, n + 1, none⟩, (Bool.not_eq_true _ ▸ hbi : d.isBidirectional j = false).symm, ?_⟩
    unfold buildSlot
    simp only [hbi, Bool.false_eq_true, if_false]
    refine Adds.congr ((adds_column n _).bind ((adds_column (n + 1) _).bind (hlow.bind
      (hhigh.bind (adds_pure (n + 2) _))))) (List.Perm.refl _) fun values => ?_
    constructor
    · rintro ⟨h1, h2, h3, h4, -⟩
      exact ⟨h1, h2, h3, h4, fun s hs => nomatch hs⟩
    · rintro ⟨h1, h2, h3, h4, -⟩
      exact ⟨h1, h2, h3, h4, trivial⟩

/-! ## The levels of a stock -/

/-- The level of slot `j`, in column `level`, given an expression for the level before. -/
structure LevelHeld (s : Stock α) (hours : α) (j : ℕ) (slot : SlotColumns) (before : LinExpr α)
    (level : ℕ) (values : ℕ → α) : Prop where
  bounds : Within
    (if isFinite (valueAt s.min j) then s.initial + valueAt s.min j else negInfinity)
    (if isFinite (valueAt s.max j) then s.initial + valueAt s.max j else infinity) false
    (values level)
  balance : (Row.eq (.col level) (before.scale (s.coefficients j).1 +
    (changeExpr s hours j slot).scale (s.coefficients j).2)).holds values = true
  target : ∀ e, givenAt s.equals j = some e →
    (Row.eq (.col level) (.const (s.initial + e))).holds values = true

/-- The levels of the slots from `j` on, each in terms of the one before. -/
def LevelsHeld (s : Stock α) (hours : α) (values : ℕ → α) :
    ℕ → LinExpr α → List SlotColumns → List ℕ → Prop
  | _, _, [], [] => True
  | j, before, slot :: slots, level :: levels =>
    LevelHeld s hours j slot before level values ∧
      LevelsHeld s hours values (j + 1) (.col level) slots levels
  | _, _, _, _ => False

theorem adds_buildLevel (s : Stock α) (owner : String) (hours : α) (j : ℕ) {n : ℕ}
    {slot : SlotColumns} {before : LinExpr α} (hup : slot.up < n) (hdown : slot.down < n)
    (hbefore : before.Below n) :
    Adds (buildLevel s owner hours j slot before) n (n + 1) n [(n, false)]
      (LevelHeld s hours j slot before n) := by
  have hlevel : (LinExpr.col n : LinExpr α).Below (n + 1) := LinExpr.below_col (by omega)
  have hbefore' : before.Below (n + 1) := fun t ht => Nat.lt_succ_of_lt (hbefore t ht)
  have hchange : (changeExpr s hours j slot).Below (n + 1) :=
    ((LinExpr.below_term _ (by omega)).add (LinExpr.below_term _ (by omega))).add
      (LinExpr.below_const _ _)
  have hbalance := adds_row (Row.eq_below hlevel
    ((hbefore'.scale (s.coefficients j).1).add (hchange.scale (s.coefficients j).2)))
  unfold buildLevel
  cases he : givenAt s.equals j with
  | none =>
    refine Adds.congr ((adds_column n _).bind (hbalance.bind (adds_pure (n + 1) n)))
      (List.Perm.refl _) fun values => ?_
    constructor
    · rintro ⟨h1, h2, -⟩
      exact ⟨h1, h2, fun e h => by rw [he] at h; cases h⟩
    · rintro ⟨h1, h2, -⟩
      exact ⟨h1, h2, trivial⟩
  | some e =>
    have htarget := adds_row (Row.eq_below hlevel (LinExpr.below_const (n + 1) (s.initial + e)))
    refine Adds.congr ((adds_column n _).bind (hbalance.bind (Adds.bind htarget
      (adds_pure (n + 1) n)))) (List.Perm.refl _) fun values => ?_
    constructor
    · rintro ⟨h1, h2, h3, -⟩
      refine ⟨h1, h2, fun e' h => ?_⟩
      rw [he] at h
      exact Option.some.inj h ▸ h3
    · rintro ⟨h1, h2, h3⟩
      exact ⟨h1, h2, h3 e he, trivial⟩

theorem adds_buildLevels (s : Stock α) (owner : String) (hours : α) (slots : List SlotColumns)
    (j n : ℕ) {before : LinExpr α} (hslots : ∀ c ∈ slots, c.up < n ∧ c.down < n)
    (hbefore : before.Below n) :
    ∃ levels : List ℕ, levels.length = slots.length ∧
      Adds (buildLevels s owner hours j before slots) n (n + slots.length) levels
        (levels.map fun c => (c, false))
        (fun values => LevelsHeld s hours values j before slots levels) := by
  induction slots generalizing j n before with
  | nil => exact ⟨[], rfl, adds_pure n []⟩
  | cons slot slots ih =>
    obtain ⟨hup, hdown⟩ := hslots slot List.mem_cons_self
    have hlevel := adds_buildLevel s owner hours j hup hdown hbefore
    have hcol : (LinExpr.col n : LinExpr α).Below (n + 1) := LinExpr.below_col (by omega)
    obtain ⟨levels, hlen, hrest⟩ := ih (j + 1) (n + 1)
      (fun c hc => by
        obtain ⟨h1, h2⟩ := hslots c (List.mem_cons_of_mem _ hc)
        exact ⟨by omega, by omega⟩)
      hcol
    have hcount : n + (slot :: slots).length = n + 1 + slots.length := by
      rw [List.length_cons]
      omega
    refine ⟨n :: levels, by rw [List.length_cons, List.length_cons, hlen], ?_⟩
    rw [hcount, buildLevels]
    exact Adds.congr (hlevel.bind (hrest.map (n :: ·))) (List.Perm.refl _) fun values => Iff.rfl

/-! ## Devices -/

def DeviceColumns.owned (c : DeviceColumns) : List (ℕ × Bool) :=
  c.up.map (fun i => (i, false)) ++ c.down.map (fun i => (i, false)) ++
    c.selector.reduceOption.map (fun i => (i, true)) ++
    (c.stock.getD []).map fun i => (i, false)

theorem DeviceColumns.mem_owned_of_stock {c : DeviceColumns} {levels : List ℕ} {i : ℕ}
    (h : c.stock = some levels) (hi : i ∈ levels) : i ∈ c.owned.map Prod.fst := by
  simp [owned, h, hi]

def DeviceColumns.slot (c : DeviceColumns) (j : ℕ) : SlotColumns :=
  ⟨c.up.getD j 0, c.down.getD j 0, c.selector.getD j none⟩

structure DeviceShape (p : Problem α) (d : Device α) (c : DeviceColumns) : Prop where
  up_length : c.up.length = p.len
  down_length : c.down.length = p.len
  slot : ∀ j < p.len, SlotShape d j (c.slot j)
  stock : c.stock.isSome = d.stock.isSome
  stock_length : ∀ levels, c.stock = some levels → levels.length = p.len
  selector_length : c.selector.length = p.len

theorem DeviceShape.up_mem {p : Problem α} {d : Device α} {c : DeviceColumns}
    (h : DeviceShape p d c) {j : ℕ} (hj : j < p.len) : c.up.getD j 0 ∈ c.owned.map Prod.fst := by
  have hmem : c.up.getD j 0 ∈ c.up := by
    rw [List.getD_eq_getElem _ _ (h.up_length.symm ▸ hj)]
    exact List.getElem_mem _
  simp only [DeviceColumns.owned, List.map_append, List.mem_append]
  exact .inl (.inl (.inl (List.mem_map.mpr ⟨_, List.mem_map.mpr ⟨_, hmem, rfl⟩, rfl⟩)))

theorem DeviceShape.down_mem {p : Problem α} {d : Device α} {c : DeviceColumns}
    (h : DeviceShape p d c) {j : ℕ} (hj : j < p.len) : c.down.getD j 0 ∈ c.owned.map Prod.fst := by
  have hmem : c.down.getD j 0 ∈ c.down := by
    rw [List.getD_eq_getElem _ _ (h.down_length.symm ▸ hj)]
    exact List.getElem_mem _
  simp only [DeviceColumns.owned, List.map_append, List.mem_append]
  exact .inl (.inl (.inr (List.mem_map.mpr ⟨_, List.mem_map.mpr ⟨_, hmem, rfl⟩, rfl⟩)))

theorem DeviceShape.level_mem {p : Problem α} {d : Device α} {c : DeviceColumns}
    (h : DeviceShape p d c) (hstock : d.stock.isSome = true) {j : ℕ} (hj : j < p.len) :
    (c.stock.getD []).getD j 0 ∈ c.owned.map Prod.fst := by
  obtain ⟨levels, hlevels⟩ := Option.isSome_iff_exists.mp (h.stock.trans hstock)
  rw [hlevels, Option.getD_some, List.getD_eq_getElem _ _ (h.stock_length levels hlevels ▸ hj)]
  exact DeviceColumns.mem_owned_of_stock hlevels (List.getElem_mem _)

structure DeviceHeld (p : Problem α) (margin : α) (d : Device α) (c : DeviceColumns)
    (values : ℕ → α) : Prop where
  slot : ∀ j < p.len, SlotHeld d (d.bigM margin) j (c.slot j) values
  levels : ∀ s levels, d.stock = some s → c.stock = some levels →
    LevelsHeld s p.hours values 0 (.const s.initial) ((List.range p.len).map c.slot) levels

theorem perm_owned (slots : List SlotColumns) :
    (slots.flatMap SlotColumns.owned).Perm
      ((slots.map SlotColumns.up).map (fun i => (i, false)) ++
        (slots.map SlotColumns.down).map (fun i => (i, false)) ++
        (slots.map SlotColumns.selector).reduceOption.map fun i => (i, true)) := by
  induction slots with
  | nil => exact List.Perm.refl _
  | cons c slots ih =>
    have hselector : (((c :: slots).map SlotColumns.selector).reduceOption.map fun i => (i, true)) =
        (c.selector.toList.map fun i => (i, true)) ++
          (slots.map SlotColumns.selector).reduceOption.map fun i => (i, true) := by
      cases hc : c.selector with
      | none => simp [List.reduceOption, hc]
      | some s => simp [List.reduceOption, hc]
    rw [List.flatMap_cons, hselector]
    refine (ih.append_left c.owned).trans (List.perm_iff_count.mpr fun i => ?_)
    simp only [SlotColumns.owned, List.map_cons, List.count_append, List.count_cons]
    omega

theorem forall₂_slots {β : Type} {R : ℕ → β → Prop} {n : ℕ} {bs : List β} :
    List.Forall₂ R (List.range n) bs ↔ bs.length = n ∧ ∀ j b, bs[j]? = some b → R j b := by
  rw [List.forall₂_iff_get]
  constructor
  · rintro ⟨hlen, h⟩
    rw [List.length_range] at hlen
    refine ⟨hlen.symm, fun j b hj => ?_⟩
    obtain ⟨hlt, rfl⟩ := List.getElem?_eq_some_iff.mp hj
    have := h j (by rw [List.length_range]; omega) hlt
    simpa using this
  · rintro ⟨hlen, h⟩
    refine ⟨by rw [List.length_range, hlen], fun j h1 h2 => ?_⟩
    simpa using h j bs[j] (List.getElem?_eq_getElem h2)

def DeviceColumns.ofSlots (slots : List SlotColumns) (stock : Option (List ℕ)) : DeviceColumns :=
  ⟨slots.map SlotColumns.up, slots.map SlotColumns.down, slots.map SlotColumns.selector, stock⟩

theorem DeviceColumns.slot_ofSlots {slots : List SlotColumns} {stock : Option (List ℕ)} {j : ℕ}
    {c : SlotColumns} (h : slots[j]? = some c) : (ofSlots slots stock).slot j = c := by
  simp [slot, ofSlots, List.getD_eq_getElem?_getD, h]

theorem DeviceColumns.map_slot_ofSlots (slots : List SlotColumns) (stock : Option (List ℕ)) :
    (List.range slots.length).map (ofSlots slots stock).slot = slots := by
  refine List.ext_getElem (by simp) fun j h1 h2 => ?_
  rw [List.getElem_map, List.getElem_range]
  exact slot_ofSlots (List.getElem?_eq_getElem h2)

theorem DeviceColumns.owned_ofSlots (slots : List SlotColumns) (stock : Option (List ℕ)) :
    (ofSlots slots stock).owned.Perm
      (slots.flatMap SlotColumns.owned ++ (stock.getD []).map fun i => (i, false)) :=
  (perm_owned slots).symm.append_right _

/-- What the slots of a device leave to show when its stock, if any, has been built. -/
theorem deviceShape_ofSlots {p : Problem α} {d : Device α} {slots : List SlotColumns}
    {stock : Option (List ℕ)} (hshape : List.Forall₂ (SlotShape d) p.grid.slots slots)
    (hstock : stock.isSome = d.stock.isSome)
    (hlevels : ∀ levels, stock = some levels → levels.length = p.len) :
    DeviceShape p d (.ofSlots slots stock) := by
  obtain ⟨hlen, hslot⟩ := forall₂_slots.mp hshape
  refine ⟨(List.length_map _).trans hlen, (List.length_map _).trans hlen, fun j hj => ?_, hstock,
    hlevels, (List.length_map _).trans hlen⟩
  have hlt : j < slots.length := hlen.symm ▸ hj
  have hget := List.getElem?_eq_getElem hlt
  rw [DeviceColumns.slot_ofSlots hget]
  exact hslot j _ hget

theorem forall₂_slotHeld {p : Problem α} {d : Device α} {bigM : α} {slots : List SlotColumns}
    {stock : Option (List ℕ)} (hlen : slots.length = p.len) (values : ℕ → α) :
    List.Forall₂ (fun j c => SlotHeld d bigM j c values) p.grid.slots slots ↔
      ∀ j < p.len, SlotHeld d bigM j ((DeviceColumns.ofSlots slots stock).slot j) values := by
  rw [Grid.slots, forall₂_slots]
  constructor
  · rintro ⟨-, h⟩ j hj
    have hlt : j < slots.length := hlen.symm ▸ hj
    have hget := List.getElem?_eq_getElem hlt
    rw [DeviceColumns.slot_ofSlots hget]
    exact h j _ hget
  · refine fun h => ⟨hlen, fun j c hj => ?_⟩
    have := h j (hlen ▸ (List.getElem?_eq_some_iff.mp hj).1)
    rwa [DeviceColumns.slot_ofSlots hj] at this

theorem adds_buildDevice (p : Problem α) (margin : α) (d : Device α) (n : ℕ) :
    ∃ k c, DeviceShape p d c ∧
      Adds (buildDevice p margin d) n k c c.owned (DeviceHeld p margin d c) := by
  obtain ⟨k, slots, hshape, hslots⟩ := Adds.mapM (s := 0) p.grid.slots
    (fun j _ n _ => adds_buildSlot d (d.bigM margin) j n) n (Nat.zero_le n)
  have hlen : slots.length = p.len := hshape.length_eq.symm.trans p.grid.slots_length
  have hbelow : ∀ c ∈ slots, c.up < k ∧ c.down < k := by
    intro c hc
    have howned {i : ℕ} (h : (i, false) ∈ c.owned) : i < k := by
      refine (hslots.mem_owned.mp (List.mem_map.mpr ⟨(i, false), ?_, rfl⟩)).2
      exact List.mem_flatMap.mpr ⟨c, hc, h⟩
    exact ⟨howned (by simp [SlotColumns.owned]), howned (by simp [SlotColumns.owned])⟩
  unfold buildDevice
  cases hs : d.stock with
  | none =>
    refine ⟨k, .ofSlots slots none, deviceShape_ofSlots hshape (by rw [hs]; rfl) (by simp), ?_⟩
    refine Adds.congr (hslots.bind (adds_pure k (DeviceColumns.ofSlots slots none)))
      (DeviceColumns.owned_ofSlots slots none) fun values => ?_
    rw [and_iff_left trivial, forall₂_slotHeld hlen]
    refine ⟨fun h => ⟨h, fun s levels h' => ?_⟩, fun h => h.slot⟩
    rw [hs] at h'
    cases h'
  | some s =>
    obtain ⟨levels, hlevels, hadds⟩ := adds_buildLevels s d.id p.hours slots 0 k hbelow
      (LinExpr.below_const k s.initial)
    have hcount : levels.length = p.len := hlevels.trans hlen
    refine ⟨k + slots.length, .ofSlots slots (some levels),
      deviceShape_ofSlots hshape (by rw [hs]; rfl) (fun l hl => Option.some.inj hl ▸ hcount), ?_⟩
    refine Adds.congr (hslots.bind (hadds.bind (adds_pure _
      (DeviceColumns.ofSlots slots (some levels))))) ?_ fun values => ?_
    · refine (DeviceColumns.owned_ofSlots slots (some levels)).trans ?_
      rw [List.append_nil]
      rfl
    · rw [and_iff_left trivial, forall₂_slotHeld hlen]
      have hrange : (List.range p.len).map (DeviceColumns.ofSlots slots (some levels)).slot =
          slots := hlen ▸ DeviceColumns.map_slot_ofSlots slots (some levels)
      constructor
      · rintro ⟨h, h'⟩
        refine ⟨h, fun t l ht hl => ?_⟩
        obtain rfl : s = t := Option.some.inj (hs.symm.trans ht)
        obtain rfl : levels = l := Option.some.inj hl
        rwa [hrange]
      · intro h
        have := h.levels s levels hs rfl
        rw [hrange] at this
        exact ⟨h.slot, this⟩

/-! ## The site -/

/-- Every column of the devices stands below `n`. -/
def DevicesBelow (n : ℕ) (devices : List DeviceColumns) : Prop :=
  ∀ c ∈ devices, ∀ i ∈ c.owned.map Prod.fst, i < n

theorem getD_lt {n : ℕ} {xs : List ℕ} (hn : 0 < n) (h : ∀ x ∈ xs, x < n) (j : ℕ) :
    xs.getD j 0 < n := by
  by_cases hj : j < xs.length
  · rw [List.getD_eq_getElem _ _ hj]
    exact h _ (List.getElem_mem hj)
  · rw [List.getD_eq_default _ _ (Nat.le_of_not_lt hj)]
    exact hn

theorem DevicesBelow.getD {n : ℕ} {devices : List DeviceColumns} (h : DevicesBelow n devices)
    (d : ℕ) : ∀ i ∈ (devices.getD d .empty).owned.map Prod.fst, i < n := by
  by_cases hd : d < devices.length
  · rw [List.getD_eq_getElem _ _ hd]
    exact h _ (List.getElem_mem hd)
  · rw [List.getD_eq_default _ _ (Nat.le_of_not_lt hd)]
    intro i hi
    simp [DeviceColumns.empty, DeviceColumns.owned, List.reduceOption] at hi

theorem flow_below {n : ℕ} {c : DeviceColumns} (hn : 0 < n)
    (h : ∀ i ∈ c.owned.map Prod.fst, i < n) (j : ℕ) : (c.flow j : LinExpr α).Below n := by
  refine (LinExpr.below_col (getD_lt hn (fun i hi => h i ?_) j)).add
    (LinExpr.below_col (getD_lt hn (fun i hi => h i ?_) j))
  · simp [DeviceColumns.owned, hi]
  · simp [DeviceColumns.owned, hi]

theorem siteExpr_below {n : ℕ} {devices : List DeviceColumns} (hn : 0 < n)
    (h : DevicesBelow n devices) (members : List ℕ) (j : ℕ) :
    (siteExpr devices members j : LinExpr α).Below n := by
  refine LinExpr.below_sum fun e he => ?_
  obtain ⟨d, -, rfl⟩ := List.mem_map.mp he
  exact flow_below hn (h.getD d) j

structure SiteHeld (p : Problem α) (devices : List DeviceColumns) (j : ℕ) (values : ℕ → α) :
    Prop where
  low : isFinite (valueAt p.site.min j) = true →
    (Row.ge (siteExpr devices p.siteMembers j) (.const (valueAt p.site.min j))).holds values = true
  high : isFinite (valueAt p.site.max j) = true →
    (Row.le (siteExpr devices p.siteMembers j) (.const (valueAt p.site.max j))).holds values = true

theorem adds_buildSite (p : Problem α) {devices : List DeviceColumns} {n : ℕ} (hn : 0 < n)
    (h : DevicesBelow n devices) : Adds (buildSite p devices) n n () []
      (fun values => p.siteMembers ≠ [] → ∀ j < p.len, SiteHeld p devices j values) := by
  unfold buildSite
  cases hmembers : p.siteMembers with
  | nil => exact (adds_pure n ()).congr (List.Perm.refl _) fun values => by simp
  | cons d rest =>
    rw [← hmembers, if_neg (by rw [hmembers]; exact Bool.false_ne_true)]
    have hslot : ∀ j ∈ p.grid.slots, Adds (do
        rowWhen (isFinite (valueAt p.site.min j))
          (.ge (siteExpr devices p.siteMembers j) (.const (valueAt p.site.min j)))
        rowWhen (isFinite (valueAt p.site.max j))
          (.le (siteExpr devices p.siteMembers j) (.const (valueAt p.site.max j))) : Build α Unit)
        n n () [] (SiteHeld p devices j) := by
      intro j _
      have hsite := siteExpr_below (α := α) hn h p.siteMembers j
      refine Adds.congr ((adds_rowWhen _ (Row.ge_below hsite (LinExpr.below_const n _))).bind
        (adds_rowWhen _ (Row.le_below hsite (LinExpr.below_const n _)))) (List.Perm.refl _)
        fun values => ?_
      exact ⟨fun h => ⟨h.1, h.2⟩, fun h => ⟨h.low, h.high⟩⟩
    refine (Adds.forM p.grid.slots hslot).congr (List.Perm.refl _) fun values => ?_
    simp only [Grid.slots, List.mem_range]
    exact ⟨fun h _ => h, fun h => h (by rw [hmembers]; exact List.cons_ne_nil _ _)⟩

/-! ## Commitments -/

theorem Commitment.scope_below {n : ℕ} (p : Problem α) {devices : List DeviceColumns} (hn : 0 < n)
    (h : DevicesBelow n devices) (c : Commitment α) (j : ℕ) :
    (c.scope p devices j : LinExpr α).Below n := by
  unfold Commitment.scope
  split
  · exact flow_below hn (h.getD _) j
  · exact siteExpr_below hn h _ j
  · next d _ _ =>
    cases hstock : (devices.getD d .empty).stock with
    | none => exact LinExpr.below_const n 0
    | some levels =>
      exact LinExpr.below_col (getD_lt hn
        (fun i hi => h.getD d i (DeviceColumns.mem_owned_of_stock hstock hi)) j)
  · exact LinExpr.below_const n 0

/-- The deviations `up` and `down` of slot `j` fit what is measured there. -/
def LinkHeld (c : Commitment α) (scope : LinExpr α) (up down j : ℕ) (values : ℕ → α) : Prop :=
  match c.grouping with
  | .each => (Row.eq (scope - .col up + .col down) (.const (c.baseline j))).holds values = true
  | .any => (Row.le (scope - .col up) (.const (c.baseline j))).holds values = true ∧
    (Row.ge (scope + .col down) (.const (c.baseline j))).holds values = true

theorem adds_buildLink (c : Commitment α) {scope : LinExpr α} {up down n : ℕ} (j : ℕ)
    (hscope : scope.Below n) (hup : up < n) (hdown : down < n) :
    Adds (buildLink c scope up down j) n n () [] (LinkHeld c scope up down j) := by
  have hu : (LinExpr.col up : LinExpr α).Below n := LinExpr.below_col hup
  have hd : (LinExpr.col down : LinExpr α).Below n := LinExpr.below_col hdown
  have hq := LinExpr.below_const n (c.baseline j)
  unfold buildLink LinkHeld
  cases c.grouping with
  | each => exact adds_row (Row.eq_below ((hscope.sub hu).add hd) hq)
  | any =>
    exact (adds_row (Row.le_below (hscope.sub hu) hq)).bind
      (adds_row (Row.ge_below (hscope.add hd) hq))

def GroupColumns.owned (g : GroupColumns α) : List (ℕ × Bool) :=
  (g.up, false) :: (g.down, false) :: g.selector.toList.map fun s => (s, true)

def CommitmentColumns.owned (c : CommitmentColumns α) : List (ℕ × Bool) :=
  c.groups.flatMap GroupColumns.owned

def groupBigM (p : Problem α) (margin : α) (c : Commitment α) (group : DeviationGroup α) : α :=
  (c.scopeBound p + largest (group.slots.map fun j => Scalar.abs (c.baseline j))) * (1 + margin) + 1

/-- A pair has a selector just where the two deviations would earn money together. -/
structure GroupShape (c : Commitment α) (group : DeviationGroup α) (g : GroupColumns α) :
    Prop where
  slots : g.slots = group.slots
  upPrice : g.upPrice = group.upPrice
  downPrice : g.downPrice = group.downPrice
  selector : g.selector.isSome = true ↔ c.grouping = .each ∧ group.needsSelector = true

structure GroupHeld (p : Problem α) (margin : α) (devices : List DeviceColumns) (c : Commitment α)
    (group : DeviationGroup α) (g : GroupColumns α) (values : ℕ → α) : Prop where
  up : Within 0 infinity false (values g.up)
  down : Within 0 infinity false (values g.down)
  links : ∀ j ∈ group.slots, LinkHeld c (c.scope p devices j) g.up g.down j values
  selector : ∀ s, g.selector = some s → Within 0 1 true (values s) ∧
    (Row.le (.col g.up) (.term (groupBigM p margin c group) s)).holds values = true ∧
    (Row.le (.term (groupBigM p margin c group) s + .col g.down)
      (.const (groupBigM p margin c group))).holds values = true

theorem adds_buildGroup (p : Problem α) (margin : α) {devices : List DeviceColumns} (c : Commitment α)
    (g : ℕ) (group : DeviationGroup α) {start n : ℕ} (h : DevicesBelow start devices)
    (hn : start ≤ n) :
    ∃ k cols, GroupShape c group cols ∧
      Adds (buildGroup p margin devices c g group) n k cols cols.owned
        (GroupHeld p margin devices c group cols) := by
  have hbelow : DevicesBelow (n + 2) devices := fun d hd i hi => by
    have := h d hd i hi
    omega
  have hlinks := Adds.forM group.slots fun j _ =>
    adds_buildLink c j (c.scope_below p (by omega : 0 < n + 2) hbelow j)
      (by omega : n < n + 2) (by omega : n + 1 < n + 2)
  by_cases hsel : c.grouping = .each ∧ group.needsSelector = true
  · have hchosen : (LinExpr.term (groupBigM p margin c group) (n + 2) : LinExpr α).Below (n + 3) :=
      LinExpr.below_term _ (by omega)
    have hup : (LinExpr.col n : LinExpr α).Below (n + 3) := LinExpr.below_col (by omega)
    have hdown : (LinExpr.col (n + 1) : LinExpr α).Below (n + 3) := LinExpr.below_col (by omega)
    have hupper := adds_row (Row.le_below hup hchosen)
    have hlower := adds_row (Row.le_below (hchosen.add hdown)
      (LinExpr.below_const (n + 3) (groupBigM p margin c group)))
    refine ⟨n + 3, ⟨group.slots, n, n + 1, group.upPrice, group.downPrice, some (n + 2)⟩,
      ⟨rfl, rfl, rfl, by simpa using hsel⟩, ?_⟩
    unfold buildGroup
    simp only [hsel, and_self, if_true]
    refine Adds.congr ((adds_column n _).bind ((adds_column (n + 1) _).bind (hlinks.bind
      ((adds_binary (n + 2)).bind (hupper.bind (hlower.bind (adds_pure (n + 3) _)))))))
      (List.Perm.refl _) fun values => ?_
    constructor
    · rintro ⟨h1, h2, h3, h4, h5, h6, -⟩
      exact ⟨h1, h2, h3, fun s hs => Option.some.inj hs ▸ ⟨h4, h5, h6⟩⟩
    · rintro ⟨h1, h2, h3, h4⟩
      obtain ⟨h4, h5, h6⟩ := h4 (n + 2) rfl
      exact ⟨h1, h2, h3, h4, h5, h6, trivial⟩
  · refine ⟨n + 2, ⟨group.slots, n, n + 1, group.upPrice, group.downPrice, none⟩,
      ⟨rfl, rfl, rfl, by simpa using hsel⟩, ?_⟩
    unfold buildGroup
    simp only [hsel, if_false]
    refine Adds.congr ((adds_column n _).bind ((adds_column (n + 1) _).bind (hlinks.bind
      (adds_pure (n + 2) _)))) (List.Perm.refl _) fun values => ?_
    constructor
    · rintro ⟨h1, h2, h3, -⟩
      exact ⟨h1, h2, h3, fun s hs => nomatch hs⟩
    · rintro ⟨h1, h2, h3, -⟩
      exact ⟨h1, h2, h3, trivial⟩

structure CommitmentShape (c : Commitment α) (cols : CommitmentColumns α) : Prop where
  name : cols.name = c.name
  groups : List.Forall₂ (GroupShape c) c.groups cols.groups

def CommitmentHeld (p : Problem α) (margin : α) (devices : List DeviceColumns) (c : Commitment α)
    (cols : CommitmentColumns α) (values : ℕ → α) : Prop :=
  List.Forall₂ (fun group g => GroupHeld p margin devices c group g values) c.groups cols.groups

theorem forall₂_zipIdx {ι β : Type} {R : ι → β → Prop} {xs : List ι} {bs : List β} :
    List.Forall₂ (fun x b => R x.1 b) xs.zipIdx bs ↔ List.Forall₂ R xs bs := by
  conv_rhs => rw [← List.zipIdx_map_fst 0 xs]
  rw [List.forall₂_map_left_iff]

theorem adds_buildCommitment (p : Problem α) (margin : α) {devices : List DeviceColumns}
    (c : Commitment α) {start n : ℕ} (h : DevicesBelow start devices) (hn : start ≤ n) :
    ∃ k cols, CommitmentShape c cols ∧
      Adds (buildCommitment p margin devices c) n k cols cols.owned
        (CommitmentHeld p margin devices c cols) := by
  obtain ⟨k, groups, hshape, hgroups⟩ := Adds.mapM (s := start) c.groups.zipIdx
    (fun x _ m hm => adds_buildGroup p margin c x.2 x.1 h hm) n hn
  refine ⟨k, ⟨c.name, groups⟩, ⟨rfl, forall₂_zipIdx.mp hshape⟩, ?_⟩
  unfold buildCommitment
  exact Adds.congr (hgroups.bind (adds_pure k (⟨c.name, groups⟩ : CommitmentColumns α)))
    (List.append_nil _ ▸ List.Perm.refl _) fun values => by
      rw [and_iff_left trivial]
      exact forall₂_zipIdx (R := fun group g => GroupHeld p margin devices c group g values)

end Dispatch
