import Mathlib.Algebra.Field.GeomSum
import Mathlib.Tactic.FieldSimp
import Dispatch.Stock
import Dispatch.Proofs.Exact.Roots
import Dispatch.Proofs.Exact.Scaling
import Dispatch.Proofs.Exact.Series
import Dispatch.Proofs.Stock.Shares

/-! # Slots cut into equal parts

* `FarFromOne`: where the share of an even inflow is the quotient `(ε - 1) / ln ε` itself.
* `iterate_parts`: `k` equal parts of a slot, one after the other, lead where the whole slot leads.
* `spread`: every value of a series `k` times in a row.
* `Stock.levelAfter`: the level after several slots.
* `Stock.PartsOf`, `Stock.split`: the slots of one stock are equal parts of those of another.
* `Stock.replay_spread`: the finer slots lead, group by group, where the slots lead.

The parts decay through one another, so their shares of the change add up to a geometric sum, and a root
of the retention makes that the share of the whole.
-/

namespace Dispatch
set_option autoImplicit false

open Exact Scalar

/-! ## What a part keeps -/

/-- So far from 1 that the share of an even inflow is the quotient itself, not its power series. -/
def FarFromOne (e : Exact) : Prop := lit 1 4 ≤ Scalar.abs (e - 1)

/-- The share of an even inflow that is left of it, by the quotient. -/
noncomputable def quotientShare (e : Exact) : Exact := (e - 1) / Scalar.log e

theorem FarFromOne.coefficients_eq {e : Exact} (h : FarFromOne e) :
    Decay.linear.coefficients e = (e, quotientShare e) := by
  rw [FarFromOne, lit_eq] at h
  have hseries : ¬Scalar.abs (e - 1) < num ((1 : ℕ) / 10 ^ 4) := fun hlt =>
    not_lt_self _ (lt_of_num_le h hlt)
  have hlossless : ¬Scalar.abs (e - 1) ≤ num ((1 : ℕ) / 10 ^ 12) := fun hle =>
    have hmargin : num ((1 : ℕ) / 10 ^ 12) < Scalar.abs (e - 1) :=
      lt_of_num_le h ((num_lt_num _ _).mpr (by norm_num))
    not_lt_self _ (lt_of_le_num hle hmargin)
  rw [lt_def] at hseries
  rw [le_def] at hlossless
  simp only [Decay.coefficients, losslessMargin, linearLossFactor, lit_eq, hlossless, hseries,
    Bool.false_eq_true, if_false, quotientShare]

theorem farFromOne_num (r : ℝ) : FarFromOne (num r) ↔ 1 / 10 ^ 4 ≤ |r - 1| := by
  rw [FarFromOne, one_eq, num_sub, num_abs, lit_eq, num_le_num, Nat.cast_one]

theorem FarFromOne.ne_one {r : ℝ} (h : FarFromOne (num r)) : r ≠ 1 := by
  rintro rfl
  rw [farFromOne_num] at h
  norm_num at h

theorem not_farFromOne_nan : ¬FarFromOne nan := by
  rintro ⟨⟩

theorem quotientShare_num {r : ℝ} (h0 : 0 < r) (h1 : r ≠ 1) :
    quotientShare (num r) = num (lossQuotient r) := by
  rw [quotientShare, log_eq h0, one_eq, num_sub, num_div _ (Real.log_ne_zero_of_pos_of_ne_one h0 h1),
    lossQuotient]

theorem quotientShare_zero : quotientShare (num 0) = num 0 := by
  have hlog : Scalar.log (num 0) = negInf := by
    show Exact.log (num 0) = negInf
    simp [Exact.log]
  rw [quotientShare, hlog, one_eq, num_sub]
  rfl

theorem quotientShare_inf : quotientShare inf = nan := rfl

theorem quotientShare_negInf : quotientShare negInf = nan := rfl

theorem lossQuotient_pos {r : ℝ} (h0 : 0 < r) (h1 : r ≠ 1) : 0 < lossQuotient r := by
  rcases h1.lt_or_gt with hlt | hgt
  · exact div_pos_of_neg_of_neg (sub_neg.mpr hlt) (Real.log_neg h0 hlt)
  · exact div_pos (sub_pos.mpr hgt) (Real.log_pos hgt)

/-- The shares of the inflows of `k` parts, each decaying through the parts after it, make up the share
of the whole. -/
theorem lossQuotient_pow {r : ℝ} (h0 : 0 < r) (h1 : r ≠ 1) {k : ℕ} (hk : 0 < k) :
    lossQuotient r * (∑ i ∈ Finset.range k, r ^ i) * (k : ℝ)⁻¹ = lossQuotient (r ^ k) := by
  have hlog := Real.log_ne_zero_of_pos_of_ne_one h0 h1
  have hcast : (k : ℝ) ≠ 0 := Nat.cast_ne_zero.mpr hk.ne'
  have hgap : r - 1 ≠ 0 := sub_ne_zero.mpr h1
  rw [lossQuotient, lossQuotient, geom_sum_eq h1, Real.log_pow]
  field_simp

/-! ## The parts of one slot -/

/-- One balance after another, all of the same change. -/
theorem iterate_balance {a b : ℝ} (ha : 0 < a) (hb : 0 < b) (x level : Exact) {n : ℕ} (hn : 0 < n) :
    (fun l => num a * l + num b * x)^[n] level =
      num (a ^ n) * level + num (b * ∑ i ∈ Finset.range n, a ^ i) * x := by
  induction n, hn using Nat.le_induction with
  | base => simp
  | succ n hn ih =>
    have hsum : 0 < ∑ i ∈ Finset.range n, a ^ i :=
      Finset.sum_pos (fun i _ => pow_pos ha i) (Finset.nonempty_range_iff.mpr (by omega))
    have hshare : a * (b * ∑ i ∈ Finset.range n, a ^ i) + b = b * ∑ i ∈ Finset.range (n + 1), a ^ i := by
      rw [geom_sum_succ]
      ring
    calc (fun l => num a * l + num b * x)^[n + 1] level
        = num a * (num (a ^ n) * level + num (b * ∑ i ∈ Finset.range n, a ^ i) * x) + num b * x := by
          rw [Function.iterate_succ_apply', ih]
      _ = num (a * a ^ n) * level + (num (a * (b * ∑ i ∈ Finset.range n, a ^ i)) * x + num b * x) := by
          rw [scale_add ha, scale_mul ha, scale_mul ha, num_mul, num_mul, Exact.add_assoc]
      _ = num (a ^ (n + 1)) * level + num (b * ∑ i ∈ Finset.range (n + 1), a ^ i) * x := by
          rw [← add_scale (mul_pos ha (mul_pos hb hsum)) hb, hshare, ← pow_succ']

variable {k : ℕ}

theorem iterate_parts_of_pos {r : ℝ} (h0 : 0 < r) (h1 : r ≠ 1) (hk : 0 < k) (x level : Exact) :
    (fun l => num r * l + num (lossQuotient r) * (x / num k))^[k] level =
      num (r ^ k) * level + num (lossQuotient (r ^ k)) * x := by
  have hcast : (0 : ℝ) < k := Nat.cast_pos.mpr hk
  have hsum : 0 < ∑ i ∈ Finset.range k, r ^ i :=
    Finset.sum_pos (fun i _ => pow_pos h0 i) (Finset.nonempty_range_iff.mpr hk.ne')
  have hshare := lossQuotient_pos h0 h1
  rw [iterate_balance h0 hshare _ _ hk, div_eq_scale hcast, scale_mul (mul_pos hshare hsum), num_mul,
    lossQuotient_pow h0 h1 hk]

/-- A slot that keeps nothing leaves zero, or no number where its level or its change was infinite; a
second one changes nothing about that. -/
theorem zero_balance_idem (x level : Exact) :
    num 0 * (num 0 * level + num 0 * x) + num 0 * x = num 0 * level + num 0 * x := by
  rcases zero_scale level with hl | hl
  · rcases zero_scale x with hx | hx
    · simp [hl, hx]
    · rw [hl, hx, add_nan, add_nan]
  · rw [hl]
    exact congrArg (· + num 0 * x) (nan_add (num 0 * x))

theorem iterate_nan {k : ℕ} (hk : 0 < k) (a x level : Exact) :
    (fun l => a * l + nan * x)^[k] level = nan := by
  obtain ⟨n, rfl⟩ := Nat.exists_eq_add_one.mpr hk
  rw [Function.iterate_succ_apply', nan_mul, add_nan]

/-- `k` parts, each keeping its share of the level and taking in its part of the change, lead where the
whole slot does. -/
theorem iterate_parts {e : Exact} (hk : 0 < k) (hfar : FarFromOne e) (hpart : FarFromOne (root k e))
    (x level : Exact) :
    (fun l => root k e * l + quotientShare (root k e) * (x / ofNat k))^[k] level =
      e * level + quotientShare e * x := by
  rcases Nat.lt_or_eq_of_le hk with hparts | rfl
  · cases e with
    | num r =>
      rcases lt_trichotomy r 0 with hneg | rfl | hpos
      · rw [root_of_neg hparts hneg] at hpart
        exact absurd hpart not_farFromOne_nan
      · obtain ⟨n, rfl⟩ := Nat.exists_eq_add_one.mpr hk
        rw [root_zero hk, quotientShare_zero, ofNat_eq, zero_scale_div (Nat.cast_pos.mpr hk)]
        exact Function.iterate_fixed (zero_balance_idem x level) n
      · have hroot : 0 < r ^ (k : ℝ)⁻¹ := Real.rpow_pos_of_pos hpos _
        rw [root_of_pos hk hpos] at hpart ⊢
        have hwhole := iterate_parts_of_pos hroot hpart.ne_one hk x level
        rw [Real.rpow_inv_natCast_pow hpos.le hk.ne'] at hwhole
        rw [quotientShare_num hroot hpart.ne_one, quotientShare_num hpos hfar.ne_one, ofNat_eq, hwhole]
    | inf => rw [root_inf hk, quotientShare_inf, iterate_nan hk, nan_mul, add_nan]
    | negInf =>
      rw [root_negInf hparts, quotientShare_inf, iterate_nan hk, quotientShare_negInf, nan_mul, add_nan]
    | nan => exact absurd hfar not_farFromOne_nan
  · have hwhole : x / ofNat 1 = x := by
      rw [ofNat_eq, div_eq_scale (Nat.cast_pos.mpr one_pos), Nat.cast_one, inv_one, one_scale]
    rw [root_one, hwhole]
    rfl

/-! ## Values of the parts -/

/-- Every value `k` times in a row. -/
def spread {β : Type} (k : ℕ) (xs : List β) : List β := xs.flatMap (List.replicate k)

section
variable {β : Type}

theorem spread_cons (x : β) (xs : List β) : spread k (x :: xs) = List.replicate k x ++ spread k xs := rfl

@[simp] theorem length_spread (xs : List β) : (spread k xs).length = k * xs.length := by
  induction xs with
  | nil => rfl
  | cons x xs ih =>
    rw [spread_cons, List.length_append, List.length_replicate, ih, List.length_cons, Nat.mul_succ,
      Nat.add_comm]

theorem take_spread (xs : List β) (n : ℕ) : (spread k xs).take (k * n) = spread k (xs.take n) := by
  induction xs generalizing n with
  | nil => simp [spread]
  | cons x xs ih =>
    cases n with
    | zero => simp [spread]
    | succ n =>
      have hsplit : k * (n + 1) = (List.replicate k x).length + k * n := by
        rw [List.length_replicate, Nat.mul_succ, Nat.add_comm]
      rw [spread_cons, hsplit, List.take_length_add_append, ih, List.take_succ_cons, spread_cons]

theorem getD_spread (xs : List β) (d : β) {i : ℕ} (hi : i < k) (j : ℕ) :
    (spread k xs).getD (k * j + i) d = xs.getD j d := by
  induction xs generalizing j with
  | nil => simp [spread]
  | cons x xs ih =>
    rw [spread_cons]
    cases j with
    | zero =>
      rw [List.getD_append _ _ _ _ (by simpa using hi), Nat.mul_zero, Nat.zero_add,
        List.getD_replicate _ hi]
      rfl
    | succ j =>
      have hskip : k * (j + 1) + i - (List.replicate k x).length = k * j + i := by
        rw [List.length_replicate, Nat.mul_succ]
        omega
      have hbeyond : (List.replicate k x).length ≤ k * (j + 1) + i := by
        rw [List.length_replicate, Nat.mul_succ]
        omega
      rw [List.getD_append_right _ _ _ _ hbeyond, hskip, ih]
      rfl

theorem spread_replicate (n : ℕ) (x : β) :
    spread k (List.replicate n x) = List.replicate (k * n) x := by
  induction n with
  | zero => rfl
  | succ n ih =>
    rw [List.replicate_succ, spread_cons, ih, ← List.replicate_add, Nat.mul_succ, Nat.add_comm]

theorem spread_map {γ : Type} (f : β → γ) (xs : List β) :
    (spread k xs).map f = spread k (xs.map f) := by
  induction xs with
  | nil => rfl
  | cons x xs ih => rw [spread_cons, List.map_append, List.map_replicate, ih, List.map_cons, spread_cons]

theorem spread_zipWith {γ δ : Type} (f : β → γ → δ) (xs : List β) (ys : List γ) :
    List.zipWith f (spread k xs) (spread k ys) = spread k (List.zipWith f xs ys) := by
  induction xs generalizing ys with
  | nil => rfl
  | cons x xs ih =>
    cases ys with
    | nil => simp [spread]
    | cons y ys =>
      rw [spread_cons, spread_cons, List.zipWith_append (by simp), ih, List.zipWith_cons_cons, spread_cons]
      simp

/-- What holds through the slots of a range is spread over their parts. -/
theorem map_range_mul {f f' : ℕ → β} (n : ℕ) (h : ∀ j < n, ∀ i < k, f' (k * j + i) = f j) :
    (List.range (k * n)).map f' = spread k ((List.range n).map f) := by
  induction n with
  | zero => simp [spread]
  | succ n ih =>
    have hlast : (List.range k).map (fun i => f' (k * n + i)) = List.replicate k (f n) := by
      refine List.eq_replicate_iff.mpr ⟨by simp, fun x hx => ?_⟩
      obtain ⟨i, hi, rfl⟩ := List.mem_map.mp hx
      exact h n (Nat.lt_succ_self n) i (List.mem_range.mp hi)
    rw [Nat.mul_succ, List.range_add, List.map_append, List.map_map, ih fun j hj => h j (by omega),
      List.range_succ, List.map_append, spread, spread, List.flatMap_append]
    simpa [Function.comp_def] using hlast

end

theorem valueAt_spread (xs : List Exact) {i : ℕ} (hi : i < k) (j : ℕ) :
    valueAt (spread k xs) (k * j + i) = valueAt xs j := getD_spread xs 0 hi j

/-- Beyond the end of a series there are zeros, also in what it is mapped to. -/
theorem valueAt_spread_map {f : Exact → Exact} (hf : f 0 = 0) (xs : List Exact) {i : ℕ} (hi : i < k)
    (j : ℕ) : valueAt (spread k (xs.map f)) (k * j + i) = f (valueAt xs j) := by
  rw [valueAt_spread _ hi]
  rcases Nat.lt_or_ge j xs.length with hj | hj
  · exact valueAt_map hj
  · rw [valueAt, valueAt, List.getD_eq_default _ _ (by simpa using hj), List.getD_eq_default _ _ hj, hf]

/-! ## Levels after several slots -/

namespace Stock
variable {s s' : Stock Exact} {hours : Exact}

/-- The level after the slots from `j` on that have these flows. -/
noncomputable def levelAfter (s : Stock Exact) (hours : Exact) (j : ℕ) (level : Exact) :
    List Exact → Exact
  | [] => level
  | flow :: flows => s.levelAfter hours (j + 1) (s.after hours j level flow) flows

theorem levelAfter_append (s : Stock Exact) (hours : Exact) (j : ℕ) (level : Exact)
    (flows flows' : List Exact) :
    s.levelAfter hours j level (flows ++ flows') =
      s.levelAfter hours (j + flows.length) (s.levelAfter hours j level flows) flows' := by
  induction flows generalizing j level with
  | nil => rfl
  | cons flow flows ih =>
    rw [List.cons_append, levelAfter, ih, levelAfter, List.length_cons, Nat.add_right_comm,
      Nat.add_assoc]

theorem valueAt_replayFrom (s : Stock Exact) (hours : Exact) (j : ℕ) (level : Exact) {flows : List Exact}
    {n : ℕ} (hn : n < flows.length) :
    valueAt (s.replayFrom hours j level flows) n = s.levelAfter hours j level (flows.take (n + 1)) := by
  induction flows generalizing j level n with
  | nil => cases hn
  | cons flow flows ih =>
    rw [replayFrom, List.take_succ_cons, levelAfter]
    cases n with
    | zero => rfl
    | succ n => exact ih (j + 1) _ (Nat.lt_of_succ_lt_succ hn)

/-- Slots that all do the same to a level do it one after the other. -/
theorem levelAfter_replicate {f : Exact → Exact} {flow : Exact} {n : ℕ} (j : ℕ)
    (h : ∀ i < n, ∀ level, s.after hours (j + i) level flow = f level) (level : Exact) :
    s.levelAfter hours j level (List.replicate n flow) = f^[n] level := by
  induction n generalizing j level with
  | zero => rfl
  | succ n ih =>
    rw [List.replicate_succ, levelAfter, Function.iterate_succ_apply,
      show s.after hours j level flow = f level from h 0 n.succ_pos level]
    refine ih (j + 1) (fun i hi level => ?_) (f level)
    rw [Nat.add_assoc, Nat.add_comm 1]
    exact h (i + 1) (Nat.succ_lt_succ hi) level

/-! ## A stock on finer slots -/

/-- The slots `k * j`, …, `k * j + (k - 1)` of the second stock are the equal parts of slot `j` of the
first. -/
structure PartsOf (k : ℕ) (s s' : Stock Exact) (j : ℕ) : Prop where
  etaUp : ∀ i < k, valueAt s'.etaUp (k * j + i) = valueAt s.etaUp j
  etaDown : ∀ i < k, valueAt s'.etaDown (k * j + i) = valueAt s.etaDown j
  retention : ∀ i < k, valueAt s'.retention (k * j + i) = root k (valueAt s.retention j)
  delta : ∀ i < k, valueAt s'.delta (k * j + i) = valueAt s.delta j / ofNat k

/-- Neither the slot nor a `k`-th part of it takes its share from the power series. -/
def FarSlot (k : ℕ) (s : Stock Exact) (j : ℕ) : Prop :=
  FarFromOne (valueAt s.retention j) ∧ FarFromOne (root k (valueAt s.retention j))

/-- The stock with `k` equal slots in the place of each slot. -/
noncomputable def split (s : Stock Exact) (k : ℕ) : Stock Exact :=
  { s with
    min := spread k s.min
    max := spread k s.max
    equals := spread k s.equals
    etaUp := spread k s.etaUp
    etaDown := spread k s.etaDown
    retention := spread k (s.retention.map (root k))
    delta := spread k (s.delta.map (· / ofNat k)) }

theorem split_partsOf (hk : 0 < k) (s : Stock Exact) (j : ℕ) : PartsOf k s (s.split k) j where
  etaUp i hi := valueAt_spread _ hi j
  etaDown i hi := valueAt_spread _ hi j
  retention i hi := valueAt_spread_map (root_zero hk) _ hi j
  delta i hi := by
    refine valueAt_spread_map ?_ _ hi j
    rw [zero_eq, ofNat_eq, num_div _ (Nat.cast_ne_zero.mpr hk.ne'), zero_div]

/-- The parts of a slot take in equal parts of its change. -/
theorem PartsOf.change_eq {j : ℕ} (h : PartsOf k s s' j) {i : ℕ} (hi : i < k) (up down : Exact) :
    s'.change (k * j + i) up down (hours / ofNat k) = s.change j up down hours / ofNat k := by
  have hcast : (0 : ℝ) < k := Nat.cast_pos.mpr (by omega)
  rw [change, change, h.etaUp i hi, h.etaDown i hi, h.delta i hi, ofNat_eq, Exact.mul_div hcast,
    Exact.add_div hcast]

variable {j : ℕ}

theorem after_of_far (hmode : s.mode = .linear) (hfar : FarFromOne (valueAt s.retention j))
    (level flow : Exact) :
    s.after hours j level flow = valueAt s.retention j * level +
      quotientShare (valueAt s.retention j) * s.change j (maxNum flow 0) (minNum flow 0) hours := by
  rw [after, coefficients, hmode, hfar.coefficients_eq]

theorem PartsOf.levelAfter_eq (h : PartsOf k s s' j) (hk : 0 < k) (hmode : s.mode = .linear)
    (hmode' : s'.mode = .linear) (hfar : s.FarSlot k j) (level flow : Exact) :
    s'.levelAfter (hours / ofNat k) (k * j) level (List.replicate k flow) =
      s.after hours j level flow := by
  rw [after_of_far hmode hfar.1, ← iterate_parts hk hfar.1 hfar.2]
  refine levelAfter_replicate (k * j) (fun i hi level => ?_) level
  have hpart : FarFromOne (valueAt s'.retention (k * j + i)) := h.retention i hi ▸ hfar.2
  rw [after_of_far hmode' hpart, h.change_eq hi, h.retention i hi]

/-- Group by group the finer slots lead where the slots lead. -/
theorem levelAfter_spread (hk : 0 < k) (hmode : s.mode = .linear) (hmode' : s'.mode = .linear)
    {flows : List Exact} (j : ℕ)
    (h : ∀ i < flows.length, PartsOf k s s' (j + i) ∧ s.FarSlot k (j + i)) (level : Exact) :
    s'.levelAfter (hours / ofNat k) (k * j) level (spread k flows) =
      s.levelAfter hours j level flows := by
  induction flows generalizing j level with
  | nil => rfl
  | cons flow flows ih =>
    obtain ⟨hparts, hfar⟩ : PartsOf k s s' j ∧ s.FarSlot k j := h 0 (Nat.succ_pos _)
    rw [spread_cons, levelAfter_append, hparts.levelAfter_eq hk hmode hmode' hfar, levelAfter,
      List.length_replicate, ← Nat.mul_succ]
    refine ih (j + 1) (fun i hi => ?_) _
    rw [Nat.add_assoc, Nat.add_comm 1]
    exact h (i + 1) (Nat.succ_lt_succ hi)

theorem replay_spread (hk : 0 < k) (hmode : s.mode = .linear) (hmode' : s'.mode = .linear)
    (hinitial : s'.initial = s.initial)
    (h : ∀ i ≤ j, PartsOf k s s' i ∧ s.FarSlot k i) {flows : List Exact} (hj : j < flows.length) :
    valueAt (s'.replay (spread k flows) (hours / ofNat k)) (k * j + (k - 1)) =
      valueAt (s.replay flows hours) j := by
  have hlast : k * j + (k - 1) + 1 = k * (j + 1) := by
    rw [Nat.mul_succ]
    omega
  have hwithin : k * j + (k - 1) < (spread k flows).length := by
    have hgroups : k * (j + 1) ≤ k * flows.length := Nat.mul_le_mul_left k hj
    rw [length_spread]
    omega
  have hslots : (flows.take (j + 1)).length = j + 1 := List.length_take_of_le hj
  rw [replay, replay, valueAt_replayFrom _ _ _ _ hwithin, valueAt_replayFrom _ _ _ _ hj, hlast,
    take_spread, hinitial]
  refine levelAfter_spread hk hmode hmode' 0 (fun i hi => ?_) s.initial
  rw [Nat.zero_add]
  exact h i (by omega)

end Stock

end Dispatch
