import Mathlib.Algebra.Order.BigOperators.Group.Finset
import Mathlib.Data.List.Lex
import Mathlib.Data.List.Sort
import Mathlib.Data.Finset.Sort
import Dispatch.Request.RunOnce
import Dispatch.Proofs.Exact.Series

/-! # Where processes that run once are placed

* `RunOnce.Legal`: slots that a process may take, in one piece unless it is breakable.
* `RunOnce.Best`: the legal slots it should take: the earliest ones, among those of the best total
  price unless it runs at once.
* `RunOnce.place_best`: a process is placed just when it has legal slots, and then in the best ones.

Slots are listed in order of time, so that the earlier of two choices is the one that comes first in
the order of lists.
-/

namespace Dispatch
set_option autoImplicit false

open Exact Scalar

/-! ## Choices that are ahead -/

theorem nodup_of_ascending {l : List ℕ} (h : l.Pairwise (· < ·)) : l.Nodup := h.imp ne_of_lt

/-- Where every slot that only the one choice has lies before every slot that only the other has, the
other is not the earlier one. -/
theorem not_lt_of_ahead {l l' : List ℕ} (hl : l.Pairwise (· < ·)) (hl' : l'.Pairwise (· < ·))
    (hlen : l.length = l'.length) (h : ∀ a ∈ l, a ∉ l' → ∀ b ∈ l', b ∉ l → a < b) : ¬l' < l := by
  induction l generalizing l' with
  | nil => exact List.not_lt_nil l'
  | cons a l ih =>
    cases l' with
    | nil => cases hlen
    | cons b l' =>
      intro hlt
      rw [List.pairwise_cons] at hl hl'
      rcases List.cons_lt_cons_iff.mp hlt with hba | ⟨rfl, hrest⟩
      · have hb : b ∉ a :: l := fun hmem => by
          rcases List.mem_cons.mp hmem with rfl | hmem
          · exact lt_irrefl b hba
          · exact lt_asymm hba (hl.1 b hmem)
        -- The lists are equally long, so the first one has a slot of its own as well.
        have hown : ∃ c ∈ a :: l, c ∉ b :: l' := by
          by_contra hno
          push Not at hno
          have hnodup := nodup_of_ascending (List.pairwise_cons.mpr hl)
          have hperm := (hnodup.subperm hno).perm_of_length_le hlen.ge
          exact hb (hperm.mem_iff.mpr List.mem_cons_self)
        obtain ⟨c, hc, hc'⟩ := hown
        have hcb : c < b := h c hc hc' b List.mem_cons_self hb
        rcases List.mem_cons.mp hc with rfl | hc
        · exact lt_asymm hba hcb
        · exact lt_asymm (hba.trans (hl.1 c hc)) hcb
      · refine ih hl.2 hl'.2 (Nat.succ.inj hlen) (fun c hc hc' d hd hd' => ?_) hrest
        refine h c (List.mem_cons_of_mem b hc) (fun hmem => ?_) d (List.mem_cons_of_mem b hd)
          fun hmem => ?_
        · rcases List.mem_cons.mp hmem with rfl | hmem
          · exact lt_irrefl c (hl.1 c hc)
          · exact hc' hmem
        · rcases List.mem_cons.mp hmem with rfl | hmem
          · exact lt_irrefl d (hl'.1 d hd)
          · exact hd' hmem

theorem not_range'_lt {s t : ℕ} (h : s ≤ t) (n : ℕ) : ¬List.range' t n < List.range' s n := by
  induction n generalizing s t with
  | zero => exact List.not_lt_nil _
  | succ n ih =>
    rw [List.range'_succ, List.range'_succ, List.cons_lt_cons_iff]
    rintro (hlt | ⟨rfl, hrest⟩)
    · omega
    · exact ih le_rfl hrest

/-! ## Exchanges

Two sets of equal size, where no element that only the one has costs more than one that only the
other has. -/

section Exchange
variable {C L : Finset ℕ} {cost : ℕ → ℝ}

theorem sum_le_of_exchange (hcard : C.card = L.card)
    (h : ∀ c ∈ C \ L, ∀ r ∈ L \ C, cost c ≤ cost r) : ∑ j ∈ C, cost j ≤ ∑ j ∈ L, cost j := by
  have e := Finset.equivOfCardEq (Finset.card_sdiff_comm hcard)
  rw [← Finset.sum_sdiff_le_sum_sdiff, ← Finset.sum_coe_sort (C \ L), ← Finset.sum_coe_sort (L \ C),
    ← Equiv.sum_comp e]
  exact Finset.sum_le_sum fun c _ => h c c.2 (e c) (e c).2

/-- Where the exchange saves nothing, every one of the exchanged elements costs the same. -/
theorem level_of_exchange (hcard : C.card = L.card)
    (h : ∀ c ∈ C \ L, ∀ r ∈ L \ C, cost c ≤ cost r)
    (hsum : ∑ j ∈ L, cost j = ∑ j ∈ C, cost j) {c r : ℕ} (hc : c ∈ C \ L) (hr : r ∈ L \ C) :
    cost c = cost r := by
  have e := Finset.equivOfCardEq (Finset.card_sdiff_comm hcard)
  have hsums : ∑ x : (C \ L : Finset ℕ), cost x = ∑ x : (C \ L : Finset ℕ), cost (e x) := by
    rw [Equiv.sum_comp e fun y : (L \ C : Finset ℕ) => cost y, Finset.sum_coe_sort (C \ L),
      Finset.sum_coe_sort (L \ C)]
    exact le_antisymm (Finset.sum_sdiff_le_sum_sdiff.mpr hsum.ge)
      (Finset.sum_sdiff_le_sum_sdiff.mpr hsum.le)
  have hle : ∀ x ∈ (Finset.univ : Finset (C \ L : Finset ℕ)), cost x ≤ cost (e x) :=
    fun x _ => h x x.2 (e x) (e x).2
  have hpairs := (Finset.sum_eq_sum_iff_of_le hle).mp hsums
  -- The element that was exchanged for `r` costs as much as `r`, and no more than that for `c`.
  have hback := hpairs (e.symm ⟨r, hr⟩) (Finset.mem_univ _)
  rw [Equiv.apply_symm_apply] at hback
  have hforth := hpairs ⟨c, hc⟩ (Finset.mem_univ _)
  refine le_antisymm (h c hc r hr) ?_
  calc cost r = cost (e.symm ⟨r, hr⟩) := hback.symm
    _ ≤ cost (e ⟨c, hc⟩) := h _ (e.symm ⟨r, hr⟩).2 _ (e ⟨c, hc⟩).2
    _ = cost c := hforth.symm

end Exchange

/-! ## Orders of preference -/

/-- Whether one total price is as good as another. -/
def Direction.NoWorse : Direction → ℝ → ℝ → Prop
  | .min, a, b => a ≤ b
  | .max, a, b => b ≤ a

namespace RunOnce

section
variable {α : Type}

/-- Slots that the process may take, in order: as many as it needs, none of them restricted, and in
one piece unless it is breakable. -/
structure Legal (p : RunOnce α) (l : List ℕ) : Prop where
  ascending : l.Pairwise (· < ·)
  length : l.length = p.slots
  free : ∀ j ∈ l, j < p.len ∧ p.isFree j = true
  piece : p.kind ≠ .breakable → ∃ s, l = List.range' s p.slots

end

def total (prices : List ℝ) (l : List ℕ) : ℝ := (l.map fun j => prices.getD j 0).sum

/-- The legal slots that the process should take. Unless it runs at once they are of the best total
price, and there are none earlier. -/
structure Best (p : RunOnce Exact) (prices : List ℝ) (l : List ℕ) : Prop where
  legal : p.Legal l
  cheapest : p.kind ≠ .inflexible → ∀ l', p.Legal l' →
    p.direction.NoWorse (total prices l) (total prices l')
  earliest : ∀ l', p.Legal l' → (p.kind ≠ .inflexible → total prices l' = total prices l) → ¬l' < l

/-! ## Prices as they count -/

section
variable {p : RunOnce Exact} {prices : List ℝ}

/-- Higher prices are the better ones for a process that looks for the dearest slots. -/
def sign (p : RunOnce Exact) : ℝ :=
  match p.direction with
  | .min => 1
  | .max => -1

theorem sign_ne_zero (p : RunOnce Exact) : p.sign ≠ 0 := by
  rw [sign]
  cases p.direction with
  | min => exact one_ne_zero
  | max => exact neg_ne_zero.mpr one_ne_zero

theorem noWorse_iff (p : RunOnce Exact) (a b : ℝ) :
    p.direction.NoWorse a b ↔ p.sign * a ≤ p.sign * b := by
  rw [sign]
  cases p.direction with
  | min => rw [one_mul, one_mul, Direction.NoWorse]
  | max => rw [neg_one_mul, neg_one_mul, neg_le_neg_iff, Direction.NoWorse]

theorem signed_num (p : RunOnce Exact) (x : ℝ) : p.signed (num x) = num (p.sign * x) := by
  rw [signed, sign]
  cases p.direction with
  | min => rfl
  | max => rfl

theorem valueAt_prices (prices : List ℝ) (j : ℕ) :
    valueAt (prices.map num) j = num (prices.getD j 0) := by
  rw [valueAt, zero_eq, List.getD_map]

theorem orderedLe_num (x y : ℝ) : orderedLe (num x) (num y) = decide (x ≤ y) := by
  rw [orderedLe, num_isNaN, num_isNaN, num_le]
  rfl

theorem sign_mul_total (p : RunOnce Exact) (prices : List ℝ) (l : List ℕ) :
    p.sign * total prices l = (l.map fun j => p.sign * prices.getD j 0).sum := by
  rw [total, List.sum_map_mul_left]

/-! ## Pieces -/

theorem block_eq {α : Type} (p : RunOnce α) (s : ℕ) : p.block s = List.range' s p.slots :=
  List.range'_eq_map_range.symm

theorem blockCost_num (p : RunOnce Exact) (prices : List ℝ) (s : ℕ) :
    p.blockCost (prices.map num) s = num (p.sign * total prices (p.block s)) := by
  have hvalues : (p.block s).map (valueAt (prices.map num)) =
      (p.block s).map fun j => num (prices.getD j 0) :=
    List.map_congr_left fun j _ => valueAt_prices prices j
  rw [blockCost, hvalues, sum_map_num, signed_num, total]

theorem mem_blockStarts {α : Type} {p : RunOnce α} {s : ℕ} :
    s ∈ p.blockStarts ↔ s + p.slots ≤ p.len ∧ ∀ j ∈ p.block s, p.isFree j = true := by
  rw [blockStarts]
  split_ifs with hshort
  · have hlong : ¬s + p.slots ≤ p.len := by omega
    simp only [List.not_mem_nil, hlong, false_and]
  · rw [List.mem_filter, List.mem_range, List.all_eq_true]
    exact and_congr_left fun _ => by omega

theorem blockStarts_ascending (p : RunOnce Exact) : p.blockStarts.Pairwise (· < ·) := by
  rw [blockStarts]
  split_ifs
  · exact List.Pairwise.nil
  · exact List.pairwise_lt_range.filter _

theorem legal_block {s : ℕ} (hs : s ∈ p.blockStarts) : p.Legal (p.block s) := by
  obtain ⟨hroom, hfree⟩ := mem_blockStarts.mp hs
  rw [block_eq] at hfree ⊢
  refine ⟨List.pairwise_lt_range' 1, List.length_range', fun j hj => ⟨?_, hfree j hj⟩,
    fun _ => ⟨s, rfl⟩⟩
  have := (List.mem_range'_1.mp hj).2
  omega

/-- What is legal for a process that runs in one piece is a piece that has room. -/
theorem exists_block (hslots : p.slots ≠ 0) (hkind : p.kind ≠ .breakable) {l : List ℕ}
    (h : p.Legal l) : ∃ s ∈ p.blockStarts, l = p.block s := by
  obtain ⟨s, rfl⟩ := h.piece hkind
  have hlast : s + p.slots - 1 ∈ List.range' s p.slots := List.mem_range'_1.mpr (by omega)
  have hroom := (h.free _ hlast).1
  refine ⟨s, mem_blockStarts.mpr ⟨by omega, fun j hj => ?_⟩, (block_eq p s).symm⟩
  rw [block_eq] at hj
  exact (h.free j hj).2

theorem not_block_lt {s t : ℕ} (h : s ≤ t) : ¬p.block t < p.block s := by
  rw [block_eq, block_eq]
  exact not_range'_lt h p.slots

/-! ## The first of the least -/

theorem leastBy_eq_none {key : ℕ → Exact} {xs : List ℕ} : leastBy key xs = none ↔ xs = [] := by
  cases xs with
  | nil => simp [leastBy]
  | cons x xs =>
    rw [leastBy]
    split
    · simp
    · split_ifs <;> simp

theorem leastBy_eq_some {cost : ℕ → ℝ} {xs : List ℕ} (hxs : xs.Pairwise (· < ·)) {s : ℕ}
    (h : leastBy (fun t => num (cost t)) xs = some s) :
    s ∈ xs ∧ ∀ t ∈ xs, cost s ≤ cost t ∧ (cost t = cost s → s ≤ t) := by
  induction xs generalizing s with
  | nil => cases h
  | cons x xs ih =>
    rw [List.pairwise_cons] at hxs
    rw [leastBy] at h
    cases hrest : leastBy (fun t => num (cost t)) xs with
    | none =>
      rw [hrest] at h
      obtain rfl := Option.some.inj h
      rw [leastBy_eq_none.mp hrest]
      simp
    | some c =>
      obtain ⟨hc, hleast⟩ := ih hxs.2 hrest
      rw [hrest] at h
      simp only [orderedLe_num, decide_eq_true_eq] at h
      split_ifs at h with hle
      · obtain rfl := Option.some.inj h
        refine ⟨List.mem_cons_self, fun t ht => ?_⟩
        rcases List.mem_cons.mp ht with rfl | ht
        · exact ⟨le_rfl, fun _ => le_rfl⟩
        · exact ⟨hle.trans (hleast t ht).1, fun _ => (hxs.1 t ht).le⟩
      · obtain rfl := Option.some.inj h
        refine ⟨List.mem_cons_of_mem x hc, fun t ht => ?_⟩
        rcases List.mem_cons.mp ht with rfl | ht
        · exact ⟨(not_le.mp hle).le, fun heq => absurd heq.le hle⟩
        · exact hleast t ht

/-! ## What is chosen -/

/-- What a process without legal slots lacks. -/
def lack (p : RunOnce Exact) : PlacementFault :=
  match p.kind with
  | .breakable => .notEnoughSlots
  | .inflexible | .shiftable => .noBlock

/-- The answer of a choice is right: the best slots, in any order, or none where none are legal. -/
def Settles (p : RunOnce Exact) (prices : List ℝ) : Except PlacementFault (List ℕ) → Prop
  | .ok chosen => ∃ l, p.Best prices l ∧ chosen.Perm l
  | .error cause => cause = p.lack ∧ ¬∃ l, p.Legal l

theorem settles_inflexible (hslots : p.slots ≠ 0) (hkind : p.kind = .inflexible) :
    p.Settles prices (p.chosen (prices.map num)) := by
  have hpiece : p.kind ≠ .breakable := by rw [hkind]; exact nofun
  simp only [chosen, hkind]
  cases hstarts : p.blockStarts with
  | nil =>
    refine ⟨by rw [lack, hkind], ?_⟩
    rintro ⟨l, hl⟩
    obtain ⟨s, hs, -⟩ := exists_block hslots hpiece hl
    rw [hstarts] at hs
    cases hs
  | cons s rest =>
    have hs : s ∈ p.blockStarts := hstarts ▸ List.mem_cons_self
    have hfirst : ∀ t ∈ p.blockStarts, s ≤ t := by
      have hascending := p.blockStarts_ascending
      rw [hstarts, List.pairwise_cons] at hascending
      intro t ht
      rw [hstarts] at ht
      rcases List.mem_cons.mp ht with rfl | ht
      · exact le_rfl
      · exact (hascending.1 t ht).le
    refine ⟨p.block s, ⟨legal_block hs, fun h => absurd hkind h, fun l' hl' _ => ?_⟩, .refl _⟩
    obtain ⟨t, ht, rfl⟩ := exists_block hslots hpiece hl'
    exact not_block_lt (hfirst t ht)

theorem settles_shiftable (hslots : p.slots ≠ 0) (hkind : p.kind = .shiftable) :
    p.Settles prices (p.chosen (prices.map num)) := by
  have hpiece : p.kind ≠ .breakable := by rw [hkind]; exact nofun
  have hcost : p.blockCost (prices.map num) =
      fun s => num (p.sign * total prices (p.block s)) := funext (p.blockCost_num prices)
  simp only [chosen, hkind, hcost]
  cases hleast : leastBy (fun s => num (p.sign * total prices (p.block s))) p.blockStarts with
  | none =>
    refine ⟨by rw [lack, hkind], ?_⟩
    rintro ⟨l, hl⟩
    obtain ⟨s, hs, -⟩ := exists_block hslots hpiece hl
    rw [leastBy_eq_none.mp hleast] at hs
    cases hs
  | some s =>
    obtain ⟨hs, hall⟩ := leastBy_eq_some p.blockStarts_ascending hleast
    refine ⟨p.block s, ⟨legal_block hs, fun _ l' hl' => ?_, fun l' hl' htotal => ?_⟩, .refl _⟩
    · obtain ⟨t, ht, rfl⟩ := exists_block hslots hpiece hl'
      exact (p.noWorse_iff _ _).mpr (hall t ht).1
    · obtain ⟨t, ht, rfl⟩ := exists_block hslots hpiece hl'
      have hsame := htotal (by rw [hkind]; exact nofun)
      exact not_block_lt ((hall t ht).2 (by rw [hsame]))

/-! ## The cheapest slots -/

theorem mem_free {j : ℕ} :
    j ∈ (List.range p.len).filter p.isFree ↔ j < p.len ∧ p.isFree j = true := by
  rw [List.mem_filter, List.mem_range]

/-- Of two slots of a sorted list, the one in front is cheaper, or as cheap and earlier. -/
def Ahead (cost : ℕ → ℝ) (i j : ℕ) : Prop := cost i < cost j ∨ cost i = cost j ∧ i < j

theorem not_swapped {xs : List ℕ} (hxs : xs.Nodup) {a b : ℕ} (h : [a, b].Sublist xs) :
    ¬[b, a].Sublist xs := by
  intro h'
  induction xs with
  | nil => cases h
  | cons x xs ih =>
    rw [List.nodup_cons] at hxs
    rcases List.sublist_cons_iff.mp h with hin | ⟨_, ⟨⟩, hin⟩
    · rcases List.sublist_cons_iff.mp h' with hin' | ⟨_, ⟨⟩, hin'⟩
      · exact ih hxs.2 hin hin'
      · exact hxs.1 (hin.subset (List.mem_cons_of_mem _ List.mem_cons_self))
    · rcases List.sublist_cons_iff.mp h' with hin' | ⟨_, ⟨⟩, hin'⟩
      · exact hxs.1 (hin'.subset (List.mem_cons_of_mem _ List.mem_cons_self))
      · exact hxs.1 (hin.subset List.mem_cons_self)

/-- Sorting keeps slots of one price in order of time. -/
theorem ahead_mergeSort (cost : ℕ → ℝ) {xs : List ℕ} (hxs : xs.Pairwise (· < ·)) :
    (xs.mergeSort fun i j => decide (cost i ≤ cost j)).Pairwise (Ahead cost) := by
  have htrans : ∀ i j k, decide (cost i ≤ cost j) = true → decide (cost j ≤ cost k) = true →
      decide (cost i ≤ cost k) = true := fun i j k hij hjk =>
    decide_eq_true ((of_decide_eq_true hij).trans (of_decide_eq_true hjk))
  have htotal : ∀ i j, (decide (cost i ≤ cost j) || decide (cost j ≤ cost i)) = true := fun i j => by
    rw [Bool.or_eq_true, decide_eq_true_eq, decide_eq_true_eq]
    exact le_total _ _
  have hsorted := List.pairwise_mergeSort htrans htotal xs
  have hperm := List.mergeSort_perm xs fun i j => decide (cost i ≤ cost j)
  have hnodup := hperm.nodup_iff.mpr (nodup_of_ascending hxs)
  rw [List.pairwise_iff_forall_sublist]
  intro i j hij
  have hle : cost i ≤ cost j :=
    of_decide_eq_true (List.pairwise_iff_forall_sublist.mp hsorted hij)
  rcases hle.lt_or_eq with hlt | heq
  · exact .inl hlt
  · refine .inr ⟨heq, ?_⟩
    by_contra hge
    have hne : i ≠ j := List.pairwise_iff_forall_sublist.mp hnodup hij
    have hji : j < i := lt_of_le_of_ne (not_lt.mp hge) hne.symm
    -- In the list before it was sorted `j` stands in front of `i`, and so it does afterwards.
    have hmem : ∀ x ∈ [j, i], x ∈ xs := by
      intro x hx
      refine hperm.mem_iff.mp (hij.subset ?_)
      rwa [List.mem_pair, or_comm, ← List.mem_pair]
    have hpair : [j, i].Pairwise (· < ·) := by simpa using hji
    have hbefore : [j, i].Sublist xs := List.sublist_of_subperm_of_pairwise
      ((nodup_of_ascending hpair).subperm hmem) hpair hxs
    have hafter := List.pair_sublist_mergeSort htrans htotal (decide_eq_true heq.ge) hbefore
    exact not_swapped hnodup hij hafter

theorem Ahead.le {cost : ℕ → ℝ} {i j : ℕ} (h : Ahead cost i j) : cost i ≤ cost j := by
  rcases h with hlt | ⟨heq, -⟩
  · exact hlt.le
  · exact heq.le

/-- Slots that are ahead of all others that a legal choice may have in their place are the best. -/
theorem best_of_ahead (hkind : p.kind ≠ .inflexible) {l : List ℕ} (hl : p.Legal l)
    (h : ∀ l', p.Legal l' → ∀ c ∈ l, ∀ r ∈ l', r ∉ l →
      Ahead (fun j => p.sign * prices.getD j 0) c r) : p.Best prices l := by
  have hsum : ∀ l', p.Legal l' →
      ∑ j ∈ l'.toFinset, p.sign * prices.getD j 0 = p.sign * total prices l' := fun l' hl' => by
    rw [List.sum_toFinset _ (nodup_of_ascending hl'.ascending), sign_mul_total]
  have hcard : ∀ l', p.Legal l' → l.toFinset.card = l'.toFinset.card := fun l' hl' => by
    rw [List.toFinset_card_of_nodup (nodup_of_ascending hl.ascending),
      List.toFinset_card_of_nodup (nodup_of_ascending hl'.ascending), hl.length, hl'.length]
  have hexchange : ∀ l', p.Legal l' → ∀ c ∈ l.toFinset \ l'.toFinset,
      ∀ r ∈ l'.toFinset \ l.toFinset, Ahead (fun j => p.sign * prices.getD j 0) c r := by
    intro l' hl' c hc r hr
    rw [Finset.mem_sdiff, List.mem_toFinset, List.mem_toFinset] at hc hr
    exact h l' hl' c hc.1 r hr.1 hr.2
  refine ⟨hl, fun _ l' hl' => ?_, fun l' hl' htotal => ?_⟩
  · rw [noWorse_iff, ← hsum l hl, ← hsum l' hl']
    exact sum_le_of_exchange (hcard l' hl') fun c hc r hr => (hexchange l' hl' c hc r hr).le
  · refine not_lt_of_ahead hl.ascending hl'.ascending (hl.length.trans hl'.length.symm)
      fun c hc hc' r hr hr' => ?_
    have hcL : c ∈ l.toFinset \ l'.toFinset := by
      rw [Finset.mem_sdiff, List.mem_toFinset, List.mem_toFinset]
      exact ⟨hc, hc'⟩
    have hrC : r ∈ l'.toFinset \ l.toFinset := by
      rw [Finset.mem_sdiff, List.mem_toFinset, List.mem_toFinset]
      exact ⟨hr, hr'⟩
    have hlevel := level_of_exchange (hcard l' hl')
      (fun c hc r hr => (hexchange l' hl' c hc r hr).le)
      (by rw [hsum l hl, hsum l' hl', htotal hkind]) hcL hrC
    rcases hexchange l' hl' c hcL r hrC with hlt | ⟨-, hlt⟩
    · exact absurd hlevel hlt.ne
    · exact hlt

/-- The first slots of the sorted ones, put in order of time. -/
def inTime (p : RunOnce Exact) (chosen : List ℕ) : List ℕ :=
  (List.range p.len).filter fun j => decide (j ∈ chosen)

theorem perm_inTime {chosen : List ℕ} (hnodup : chosen.Nodup) (hchosen : ∀ j ∈ chosen, j < p.len) :
    chosen.Perm (p.inTime chosen) := by
  rw [inTime, List.perm_ext_iff_of_nodup hnodup (List.nodup_range.filter _)]
  intro j
  rw [List.mem_filter, List.mem_range, decide_eq_true_eq]
  exact ⟨fun h => ⟨hchosen j h, h⟩, And.right⟩

theorem best_take {cost : ℕ → ℝ} (hcost : cost = fun j => p.sign * prices.getD j 0)
    (hkind : p.kind = .breakable) {ranked : List ℕ}
    (hperm : ranked.Perm ((List.range p.len).filter p.isFree)) (hahead : ranked.Pairwise (Ahead cost))
    (hroom : p.slots ≤ ranked.length) :
    ∃ l, p.Best prices l ∧ (ranked.take p.slots).Perm l := by
  have hranked : ∀ j, j ∈ ranked ↔ j < p.len ∧ p.isFree j = true := fun j =>
    hperm.mem_iff.trans mem_free
  have hnodup : ranked.Nodup := hperm.nodup_iff.mpr (List.nodup_range.filter _)
  have hfree : ∀ j ∈ ranked.take p.slots, j < p.len ∧ p.isFree j = true := fun j hj =>
    (hranked j).mp (List.mem_of_mem_take hj)
  have hsame := perm_inTime (hnodup.sublist (List.take_sublist p.slots ranked)) fun j hj =>
    (hfree j hj).1
  have hlegal : p.Legal (p.inTime (ranked.take p.slots)) := by
    refine ⟨List.pairwise_lt_range.filter _, ?_, fun j hj => hfree j (hsame.mem_iff.mpr hj),
      fun h => absurd hkind h⟩
    rw [← hsame.length_eq, List.length_take, min_eq_left hroom]
  refine ⟨_, best_of_ahead (by rw [hkind]; exact nofun) hlegal fun l' hl' c hc r hr hr' => ?_, hsame⟩
  rw [← hsame.mem_iff] at hc hr'
  -- What was not taken stands behind all that was.
  have hsplit : r ∈ ranked.take p.slots ++ ranked.drop p.slots := by
    rw [List.take_append_drop]
    exact (hranked r).mpr (hl'.free r hr)
  have hdrop := (List.mem_append.mp hsplit).resolve_left hr'
  have hparts := hahead
  rw [← List.take_append_drop p.slots ranked, List.pairwise_append] at hparts
  rw [← hcost]
  exact hparts.2.2 c hc r hdrop

theorem settles_breakable (hkind : p.kind = .breakable) :
    p.Settles prices (p.chosen (prices.map num)) := by
  have hcost : (fun i j => orderedLe (p.signed (valueAt (prices.map num) i))
      (p.signed (valueAt (prices.map num) j))) = fun i j =>
        decide (p.sign * prices.getD i 0 ≤ p.sign * prices.getD j 0) := by
    funext i j
    rw [valueAt_prices, valueAt_prices, signed_num, signed_num, orderedLe_num]
  have hascending : ((List.range p.len).filter p.isFree).Pairwise (· < ·) :=
    List.pairwise_lt_range.filter _
  simp only [chosen, hkind, hcost]
  split_ifs with hfew
  · refine ⟨by rw [lack, hkind], ?_⟩
    rintro ⟨l, hl⟩
    have hsubset : l ⊆ (List.range p.len).filter p.isFree := fun j hj => mem_free.mpr (hl.free j hj)
    have hlength := ((nodup_of_ascending hl.ascending).subperm hsubset).length_le
    rw [hl.length] at hlength
    exact absurd hfew (not_lt.mpr hlength)
  · have hperm := List.mergeSort_perm ((List.range p.len).filter p.isFree) fun i j =>
      decide (p.sign * prices.getD i 0 ≤ p.sign * prices.getD j 0)
    exact best_take rfl hkind hperm (ahead_mergeSort (fun j => p.sign * prices.getD j 0) hascending)
      (hperm.length_eq ▸ not_lt.mp hfew)

theorem settles_chosen (hslots : p.slots ≠ 0) : p.Settles prices (p.chosen (prices.map num)) := by
  cases hkind : p.kind with
  | inflexible => exact settles_inflexible hslots hkind
  | breakable => exact settles_breakable hkind
  | shiftable => exact settles_shiftable hslots hkind

/-! ## Where the process runs -/

/-- The power of the process where it runs, and none elsewhere. -/
noncomputable def profile (p : RunOnce Exact) (l : List ℕ) : List Exact :=
  (List.range p.len).map fun j => if j ∈ l then p.power else 0

theorem Best.unique {l l' : List ℕ} (h : p.Best prices l) (h' : p.Best prices l') : l = l' := by
  have htotal : p.kind ≠ .inflexible → total prices l' = total prices l := by
    intro hkind
    have hle := (p.noWorse_iff _ _).mp (h.cheapest hkind l' h'.legal)
    have hge := (p.noWorse_iff _ _).mp (h'.cheapest hkind l h.legal)
    exact mul_left_cancel₀ p.sign_ne_zero (le_antisymm hge hle)
  rcases lt_trichotomy l l' with hlt | heq | hlt
  · exact absurd hlt (h'.earliest l h.legal fun hkind => (htotal hkind).symm)
  · exact heq
  · exact absurd hlt (h.earliest l' h'.legal htotal)

theorem legal_nil (hslots : p.slots = 0) : p.Legal [] :=
  ⟨.nil, hslots.symm, List.forall_mem_nil _, fun _ => ⟨0, by rw [hslots, List.range'_zero]⟩⟩

theorem best_nil (hslots : p.slots = 0) : p.Best prices [] := by
  have hall : ∀ l', p.Legal l' → l' = [] := fun l' hl' =>
    List.eq_nil_of_length_eq_zero (hl'.length.trans hslots)
  refine ⟨legal_nil hslots, fun _ l' hl' => ?_, fun l' _ _ => List.not_lt_nil l'⟩
  rw [hall l' hl', noWorse_iff]

theorem profile_nil (p : RunOnce Exact) : p.profile [] = List.replicate p.len 0 := by
  simp [profile]

theorem profile_congr {chosen l : List ℕ} (h : chosen.Perm l) :
    ((List.range p.len).map fun j => if chosen.contains j then p.power else 0) = p.profile l := by
  refine List.map_congr_left fun j _ => ?_
  simp only [List.contains_eq_mem, h.mem_iff, decide_eq_true_eq]

/-- A placement is right: in the best slots, or none where none are legal. -/
theorem place_cases (p : RunOnce Exact) (prices : List ℝ) :
    (∃ l, p.Best prices l ∧ p.place (prices.map num) = .ok (p.profile l)) ∨
      (¬∃ l, p.Legal l) ∧ p.place (prices.map num) = .error p.lack := by
  by_cases hslots : p.slots = 0
  · refine .inl ⟨[], best_nil hslots, ?_⟩
    rw [place, if_pos hslots, profile_nil]
  · have hsettles : p.Settles prices (p.chosen (prices.map num)) := settles_chosen hslots
    rw [place, if_neg hslots]
    cases hchosen : p.chosen (prices.map num) with
    | error cause =>
      rw [hchosen] at hsettles
      obtain ⟨rfl, hnone⟩ := hsettles
      exact .inr ⟨hnone, rfl⟩
    | ok chosen =>
      rw [hchosen] at hsettles
      obtain ⟨l, hl, hperm⟩ := hsettles
      refine .inl ⟨l, hl, ?_⟩
      rw [← profile_congr hperm]
      rfl

/-- A process is placed just when it has legal slots, and then it runs at its power in the best of
them and nowhere else. Otherwise it is turned down for what it lacks. -/
theorem place_best (p : RunOnce Exact) (prices : List ℝ) :
    (∀ power, p.place (prices.map num) = .ok power ↔
      ∃ l, p.Best prices l ∧ power = p.profile l) ∧
    ((∃ power, p.place (prices.map num) = .ok power) ↔ ∃ l, p.Legal l) ∧
    (∀ cause, p.place (prices.map num) = .error cause ↔ (¬∃ l, p.Legal l) ∧ cause = p.lack) ∧
    (p.slots = 0 → p.place (prices.map num) = .ok (List.replicate p.len 0)) := by
  have hzero : p.slots = 0 → p.place (prices.map num) = .ok (List.replicate p.len 0) :=
    fun hslots => by rw [place, if_pos hslots]
  rcases place_cases p prices with ⟨l, hl, hplace⟩ | ⟨hnone, hplace⟩
  · refine ⟨fun power => ⟨fun h => ?_, ?_⟩, ⟨fun _ => ⟨l, hl.legal⟩, fun _ => ⟨_, hplace⟩⟩,
      fun cause => ⟨fun h => ?_, fun h => absurd ⟨l, hl.legal⟩ h.1⟩, hzero⟩
    · exact ⟨l, hl, (Except.ok.inj (hplace.symm.trans h)).symm⟩
    · rintro ⟨l', hl', rfl⟩
      rw [hplace, hl.unique hl']
    · rw [hplace] at h
      cases h
  · refine ⟨fun power => ⟨fun h => ?_, ?_⟩, ⟨fun ⟨power, h⟩ => ?_, fun h => absurd h hnone⟩,
      fun cause => ⟨fun h => ?_, ?_⟩, hzero⟩
    · rw [hplace] at h
      cases h
    · rintro ⟨l, hl, -⟩
      exact absurd ⟨l, hl.legal⟩ hnone
    · rw [hplace] at h
      cases h
    · exact ⟨hnone, (Except.error.inj (hplace.symm.trans h)).symm⟩
    · rintro ⟨-, rfl⟩
      exact hplace

end

end RunOnce

end Dispatch
