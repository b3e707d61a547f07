import Dispatch.Program.Basic
import Dispatch.Proofs.Exact.Series

/-! # Linear expressions and rows

* `LinExpr.On`: an expression mentions such columns only; `LinExpr.Below`: none from a number on.
* `LinExpr.Means`: over exact numbers, an expression has finite coefficients and a real function of
  the columns as its value.
* `Upward`: an infinite coefficient has the sign of its column, so no term is worth minus infinity.
* `Row.eq_holds_iff`, `Row.le_holds_iff`, `Row.ge_holds_iff`: rows hold just when their two sides
  compare as the functions that they mean.

Merging equal columns and dropping zero coefficients, as expressions and rows do, changes neither.
-/

namespace Dispatch
set_option autoImplicit false

/-! ## Columns of an expression -/

section
variable {α : Type} [Scalar α]

theorem mem_addTerm {c : ℕ} {x : α} {ts : List (ℕ × α)} {t : ℕ × α} (h : t ∈ addTerm c x ts) :
    t.1 = c ∨ ∃ s ∈ ts, s.1 = t.1 := by
  induction ts with
  | nil =>
    obtain rfl : t = (c, x) := by simpa [addTerm] using h
    exact .inl rfl
  | cons s ts ih =>
    obtain ⟨d, y⟩ := s
    rw [addTerm] at h
    split_ifs at h with h1 h2
    · rcases List.mem_cons.mp h with rfl | h
      · exact .inl rfl
      · exact .inr ⟨t, h, rfl⟩
    · rcases List.mem_cons.mp h with rfl | h
      · exact .inl h2.symm
      · exact .inr ⟨t, List.mem_cons_of_mem _ h, rfl⟩
    · rcases List.mem_cons.mp h with rfl | h
      · exact .inr ⟨(d, y), List.mem_cons_self, rfl⟩
      · rcases ih h with h | ⟨s, hs, e⟩
        · exact .inl h
        · exact .inr ⟨s, List.mem_cons_of_mem _ hs, e⟩

theorem mem_foldl_addTerm {k : α → α} {us ts : List (ℕ × α)} {t : ℕ × α}
    (h : t ∈ us.foldl (fun ts u => addTerm u.1 (k u.2) ts) ts) :
    ∃ s ∈ ts ++ us, s.1 = t.1 := by
  induction us generalizing ts with
  | nil => exact ⟨t, by simpa using h, rfl⟩
  | cons u us ih =>
    obtain ⟨s, hs, e⟩ := ih h
    rcases List.mem_append.mp hs with hs | hs
    · rcases mem_addTerm hs with hu | ⟨s', hs', e'⟩
      · exact ⟨u, by simp, hu.symm.trans e⟩
      · exact ⟨s', List.mem_append_left _ hs', e'.trans e⟩
    · exact ⟨s, List.mem_append_right _ (List.mem_cons_of_mem _ hs), e⟩

namespace LinExpr

/-- All columns of the expression are such columns. -/
def On (q : ℕ → Prop) (e : LinExpr α) : Prop := ∀ t ∈ e.terms, q t.1

section
variable {q : ℕ → Prop} {e f : LinExpr α}

omit [Scalar α] in
theorem on_const (x : α) : (const x).On q := by
  intro t ht
  simp [const] at ht

theorem on_term {c : ℕ} (x : α) (h : q c) : (term x c).On q := by
  intro t ht
  obtain rfl : t = (c, x) := by simpa [term] using ht
  exact h

theorem On.add (he : e.On q) (hf : f.On q) : (e + f).On q := by
  intro t ht
  obtain ⟨s, hs, hst⟩ := mem_foldl_addTerm (k := id) ht
  rcases List.mem_append.mp hs with hs | hs
  · exact hst ▸ he s hs
  · exact hst ▸ hf s hs

theorem On.sub (he : e.On q) (hf : f.On q) : (e - f).On q := by
  intro t ht
  obtain ⟨s, hs, hst⟩ := mem_foldl_addTerm (k := (-1 * ·)) ht
  rcases List.mem_append.mp hs with hs | hs
  · exact hst ▸ he s hs
  · exact hst ▸ hf s hs

theorem On.scale (he : e.On q) (k : α) : (e.scale k).On q := by
  intro t ht
  obtain ⟨s, hs, rfl⟩ := List.mem_map.mp ht
  exact he s hs

theorem on_sum {es : List (LinExpr α)} (h : ∀ e ∈ es, e.On q) : (sum es).On q := by
  suffices hfold : ∀ a : LinExpr α, a.On q → (es.foldl add a).On q from hfold _ (on_const 0)
  induction es with
  | nil => exact fun a ha => ha
  | cons e es ih =>
    intro a ha
    have he := h e List.mem_cons_self
    exact ih (fun f hf => h f (List.mem_cons_of_mem _ hf)) _ (ha.add he)

end

def Below (n : ℕ) (e : LinExpr α) : Prop := ∀ t ∈ e.terms, t.1 < n

omit [Scalar α] in
theorem below_const (n : ℕ) (x : α) : (const x).Below n :=
  on_const (q := (· < n)) x

theorem below_term {n c : ℕ} (x : α) (h : c < n) : (term x c).Below n :=
  on_term (q := (· < n)) x h

theorem below_col {n c : ℕ} (h : c < n) : (col c : LinExpr α).Below n := below_term 1 h

theorem Below.add {n : ℕ} {e f : LinExpr α} (he : e.Below n) (hf : f.Below n) :
    (e + f).Below n := On.add (q := (· < n)) he hf

theorem Below.sub {n : ℕ} {e f : LinExpr α} (he : e.Below n) (hf : f.Below n) :
    (e - f).Below n := On.sub (q := (· < n)) he hf

theorem Below.scale {n : ℕ} {e : LinExpr α} (he : e.Below n) (k : α) : (e.scale k).Below n :=
  On.scale (q := (· < n)) he k

theorem below_sum {n : ℕ} {es : List (LinExpr α)} (h : ∀ e ∈ es, e.Below n) : (sum es).Below n :=
  on_sum (q := (· < n)) h

end LinExpr

namespace Row
open LinExpr

theorem ofExpr_below {n : ℕ} {e : LinExpr α} (h : e.Below n) (equality : Bool) :
    ∀ t ∈ (ofExpr e equality).terms, t.1 < n :=
  fun t ht => h t (List.mem_of_mem_filter ht)

theorem eq_below {n : ℕ} {e f : LinExpr α} (he : e.Below n) (hf : f.Below n) :
    ∀ t ∈ (Row.eq e f).terms, t.1 < n := ofExpr_below (he.sub hf) true

theorem le_below {n : ℕ} {e f : LinExpr α} (he : e.Below n) (hf : f.Below n) :
    ∀ t ∈ (Row.le e f).terms, t.1 < n := ofExpr_below (he.sub hf) false

theorem ge_below {n : ℕ} {e f : LinExpr α} (he : e.Below n) (hf : f.Below n) :
    ∀ t ∈ (Row.ge e f).terms, t.1 < n := ofExpr_below (hf.sub he) false

end Row

end

/-! ## Values over exact numbers -/

open Exact

def FiniteTerms (ts : List (ℕ × Exact)) : Prop := ∀ t ∈ ts, Scalar.isFinite t.2 = true

/-- The value of finite terms at real values of the columns. -/
noncomputable def termsValue (v : ℕ → ℝ) (ts : List (ℕ × Exact)) : ℝ :=
  (ts.map fun t => t.2.toReal * v t.1).sum

theorem finiteTerms_cons {t : ℕ × Exact} {ts : List (ℕ × Exact)} :
    FiniteTerms (t :: ts) ↔ Scalar.isFinite t.2 = true ∧ FiniteTerms ts := List.forall_mem_cons

theorem valueOf_num {ts : List (ℕ × Exact)} (h : FiniteTerms ts) (v : ℕ → ℝ) :
    LinExpr.valueOf (fun c => num (v c)) ts = num (termsValue v ts) := by
  rw [LinExpr.valueOf, termsValue, ← sum_map_num]
  congr 1
  refine List.map_congr_left fun t ht => ?_
  rw [← num_mul, num_toReal (h t ht)]

theorem addTerm_finite {c : ℕ} {x : ℝ} {ts : List (ℕ × Exact)} (h : FiniteTerms ts) :
    FiniteTerms (addTerm c (num x) ts) := by
  induction ts with
  | nil => simp [addTerm, FiniteTerms]
  | cons t ts ih =>
    obtain ⟨d, y⟩ := t
    obtain ⟨hy, hts⟩ := finiteTerms_cons.mp h
    rw [addTerm]
    split_ifs
    · exact finiteTerms_cons.mpr ⟨rfl, h⟩
    · refine finiteTerms_cons.mpr ⟨?_, hts⟩
      obtain ⟨z, rfl⟩ := (isFinite_iff y).mp hy
      rfl
    · exact finiteTerms_cons.mpr ⟨hy, ih hts⟩

theorem addTerm_value {c : ℕ} {x : ℝ} {ts : List (ℕ × Exact)} (h : FiniteTerms ts) (v : ℕ → ℝ) :
    termsValue v (addTerm c (num x) ts) = termsValue v ts + x * v c := by
  induction ts with
  | nil => simp [addTerm, termsValue]
  | cons t ts ih =>
    obtain ⟨d, y⟩ := t
    obtain ⟨hy, hts⟩ := finiteTerms_cons.mp h
    obtain ⟨z, rfl⟩ := (isFinite_iff y).mp hy
    have hrest := ih hts
    rw [addTerm]
    simp only [termsValue] at hrest ⊢
    split_ifs with h1 h2
    · simp only [List.map_cons, List.sum_cons, toReal_num]
      ring
    · subst h2
      simp only [List.map_cons, List.sum_cons, num_add, toReal_num]
      ring
    · simp only [List.map_cons, List.sum_cons, toReal_num, hrest]
      ring

/-- Adding terms one by one, each with its coefficient multiplied by `k`. -/
theorem foldl_addTerm {us ts : List (ℕ × Exact)} (k : ℝ) (hu : FiniteTerms us)
    (ht : FiniteTerms ts) :
    FiniteTerms (us.foldl (fun ts u => addTerm u.1 (num k * u.2) ts) ts) ∧
    ∀ v, termsValue v (us.foldl (fun ts u => addTerm u.1 (num k * u.2) ts) ts) =
      termsValue v ts + k * termsValue v us := by
  induction us generalizing ts with
  | nil => exact ⟨ht, fun v => by simp [termsValue]⟩
  | cons u us ih =>
    obtain ⟨c, y⟩ := u
    obtain ⟨hy, hus⟩ := finiteTerms_cons.mp hu
    obtain ⟨z, rfl⟩ := (isFinite_iff y).mp hy
    rw [List.foldl_cons, num_mul]
    obtain ⟨hfin, hval⟩ := ih hus (addTerm_finite (c := c) (x := k * z) ht)
    refine ⟨hfin, fun v => ?_⟩
    rw [hval, addTerm_value ht]
    simp only [termsValue, List.map_cons, List.sum_cons, toReal_num]
    ring

/-- Adding terms as they are, which is to multiply their coefficients by one. -/
theorem foldl_addTerm_plain {us ts : List (ℕ × Exact)} (hu : FiniteTerms us) (ht : FiniteTerms ts) :
    FiniteTerms (us.foldl (fun ts u => addTerm u.1 u.2 ts) ts) ∧
    ∀ v, termsValue v (us.foldl (fun ts u => addTerm u.1 u.2 ts) ts) =
      termsValue v ts + termsValue v us := by
  have hone : us.foldl (fun ts u => addTerm u.1 u.2 ts) ts =
      us.foldl (fun ts u => addTerm u.1 (num 1 * u.2) ts) ts := by
    refine List.foldl_ext _ _ _ fun ts u hmem => ?_
    rw [← num_toReal (hu u hmem), num_mul, one_mul]
  obtain ⟨hfin, hval⟩ := foldl_addTerm 1 hu ht
  rw [hone]
  exact ⟨hfin, fun v => by rw [hval, one_mul]⟩

theorem termsValue_append (v : ℕ → ℝ) (ts us : List (ℕ × Exact)) :
    termsValue v (ts ++ us) = termsValue v ts + termsValue v us := by
  rw [termsValue, List.map_append, List.sum_append]
  rfl

theorem termsValue_flatMap {ι : Type} (v : ℕ → ℝ) (xs : List ι) (f : ι → List (ℕ × Exact)) :
    termsValue v (xs.flatMap f) = (xs.map fun x => termsValue v (f x)).sum := by
  induction xs with
  | nil => rfl
  | cons x xs ih => rw [List.flatMap_cons, termsValue_append, ih, List.map_cons, List.sum_cons]

namespace LinExpr

/-- Coefficients and constant are finite, and the value is `f` of the columns. -/
structure Means (e : LinExpr Exact) (f : (ℕ → ℝ) → ℝ) : Prop where
  terms : FiniteTerms e.terms
  constant : Scalar.isFinite e.constant = true
  value : ∀ v, termsValue v e.terms + e.constant.toReal = f v

theorem Means.congr {e : LinExpr Exact} {f g : (ℕ → ℝ) → ℝ} (h : e.Means f)
    (hfg : ∀ v, f v = g v) : e.Means g :=
  ⟨h.terms, h.constant, fun v => (h.value v).trans (hfg v)⟩

theorem means_const (x : ℝ) : (const (num x)).Means fun _ => x :=
  ⟨fun t ht => by simp [const] at ht, rfl, fun v => by simp [const, termsValue]⟩

theorem means_term (x : ℝ) (c : ℕ) : (term (num x) c).Means fun v => x * v c := by
  refine ⟨fun t ht => ?_, rfl, fun v => by simp [term, termsValue]⟩
  obtain rfl : t = (c, num x) := by simpa [term] using ht
  rfl

theorem means_col (c : ℕ) : (col c : LinExpr Exact).Means fun v => v c :=
  (means_term 1 c).congr fun _ => one_mul _

theorem Means.add {e f : LinExpr Exact} {x y : (ℕ → ℝ) → ℝ} (he : e.Means x) (hf : f.Means y) :
    (e + f).Means fun v => x v + y v := by
  obtain ⟨cf, hcf⟩ := (isFinite_iff f.constant).mp hf.constant
  obtain ⟨ce, hce⟩ := (isFinite_iff e.constant).mp he.constant
  have hterms : FiniteTerms (e + f).terms ∧
      ∀ v, termsValue v (e + f).terms = termsValue v e.terms + termsValue v f.terms :=
    foldl_addTerm_plain hf.terms he.terms
  have hconst : (e + f).constant = num (ce + cf) := by
    show e.constant + f.constant = num (ce + cf)
    rw [hce, hcf, num_add]
  refine ⟨hterms.1, by rw [hconst]; rfl, fun v => ?_⟩
  rw [hterms.2, hconst, ← he.value, ← hf.value, hce, hcf]
  simp only [toReal_num]
  ring

theorem Means.sub {e f : LinExpr Exact} {x y : (ℕ → ℝ) → ℝ} (he : e.Means x) (hf : f.Means y) :
    (e - f).Means fun v => x v - y v := by
  obtain ⟨cf, hcf⟩ := (isFinite_iff f.constant).mp hf.constant
  obtain ⟨ce, hce⟩ := (isFinite_iff e.constant).mp he.constant
  have hval : FiniteTerms (e - f).terms ∧
      ∀ v, termsValue v (e - f).terms = termsValue v e.terms + -1 * termsValue v f.terms :=
    foldl_addTerm (-1) hf.terms he.terms
  have hconst : (e - f).constant = num (ce - cf) := by
    show e.constant - f.constant = num (ce - cf)
    rw [hce, hcf, num_sub]
  refine ⟨hval.1, by rw [hconst]; rfl, fun v => ?_⟩
  rw [hval.2, hconst, ← he.value, ← hf.value, hce, hcf]
  simp only [toReal_num]
  ring

theorem Means.scale {e : LinExpr Exact} {x : (ℕ → ℝ) → ℝ} (he : e.Means x) (k : ℝ) :
    (e.scale (num k)).Means fun v => x v * k := by
  obtain ⟨ce, hce⟩ := (isFinite_iff e.constant).mp he.constant
  refine ⟨fun t ht => ?_, ?_, fun v => ?_⟩
  · obtain ⟨s, hs, rfl⟩ := List.mem_map.mp ht
    obtain ⟨z, hz⟩ := (isFinite_iff s.2).mp (he.terms s hs)
    simp only [hz, num_mul, num_isFinite]
  · show Scalar.isFinite (e.constant * num k) = true
    rw [hce, num_mul, num_isFinite]
  · have hterms : termsValue v (e.scale (num k)).terms = termsValue v e.terms * k := by
      rw [termsValue, termsValue, ← List.sum_map_mul_right, LinExpr.scale, List.map_map]
      congr 1
      refine List.map_congr_left fun t ht => ?_
      obtain ⟨z, hz⟩ := (isFinite_iff t.2).mp (he.terms t ht)
      simp only [Function.comp_apply, hz, num_mul, toReal_num]
      ring
    have hconst : (e.scale (num k)).constant = num (ce * k) := by
      show e.constant * num k = num (ce * k)
      rw [hce, num_mul]
    rw [hterms, hconst, ← he.value, hce]
    simp only [toReal_num]
    ring

theorem means_sum {ι : Type} (xs : List ι) (e : ι → LinExpr Exact) (f : ι → (ℕ → ℝ) → ℝ)
    (h : ∀ x ∈ xs, (e x).Means (f x)) :
    (sum (xs.map e)).Means fun v => (xs.map fun x => f x v).sum := by
  suffices hfold : ∀ (a : LinExpr Exact) (g : (ℕ → ℝ) → ℝ), a.Means g →
      ((xs.map e).foldl LinExpr.add a).Means fun v => g v + (xs.map fun x => f x v).sum from
    (hfold _ _ (means_const 0)).congr fun _ => zero_add _
  induction xs with
  | nil => exact fun a g ha => ha.congr fun v => by simp
  | cons x xs ih =>
    intro a g ha
    have hx := h x List.mem_cons_self
    have hrest := ih (fun y hy => h y (List.mem_cons_of_mem _ hy)) _ _ (ha.add hx)
    exact hrest.congr fun v => by rw [List.map_cons, List.sum_cons, add_assoc]

end LinExpr

/-! ## Terms with infinite coefficients -/

/-- An infinite coefficient has the sign of the value of its column. -/
def Upward (v : ℕ → ℝ) (t : ℕ × Exact) : Prop :=
  (t.2 = inf → 0 ≤ v t.1) ∧ (t.2 = negInf → v t.1 ≤ 0)

namespace Upward
variable {v : ℕ → ℝ}

theorem of_finite {t : ℕ × Exact} (h : Scalar.isFinite t.2 = true) : Upward v t := by
  obtain ⟨c, x⟩ := t
  obtain ⟨y, rfl⟩ := (isFinite_iff x).mp h
  exact ⟨nofun, nofun⟩

theorem of_inf {c : ℕ} (h : 0 ≤ v c) : Upward v (c, inf) := ⟨fun _ => h, nofun⟩

theorem of_negInf {c : ℕ} (h : v c ≤ 0) : Upward v (c, negInf) := ⟨nofun, fun _ => h⟩

theorem add {c : ℕ} {x y : Exact} (hx : Upward v (c, x)) (hy : Upward v (c, y)) :
    Upward v (c, x + y) := by
  cases x <;> cases y <;>
    first | exact hx | exact hy | exact ⟨nofun, nofun⟩

/-- No such term is worth minus infinity. -/
theorem mul_ne_negInf {t : ℕ × Exact} (h : Upward v t) : t.2 * num (v t.1) ≠ negInf := by
  obtain ⟨c, x⟩ := t
  have hinfinity : ∀ s : ℝ, 0 ≤ s → infinityOf s ≠ negInf := by
    intro s hs heq
    rw [infinityOf] at heq
    split_ifs at heq with hpos hneg
    exact absurd hneg (not_lt.mpr hs)
  cases x with
  | num y => exact num_ne_negInf _
  | inf => exact hinfinity _ (h.1 rfl)
  | negInf => exact hinfinity _ (neg_nonneg.mpr (h.2 rfl))
  | nan => exact nan_ne_negInf

end Upward

section
variable {v : ℕ → ℝ} {us ts : List (ℕ × Exact)}

theorem addTerm_upward {c : ℕ} {x : Exact} (hx : Upward v (c, x)) (h : ∀ t ∈ ts, Upward v t) :
    ∀ t ∈ addTerm c x ts, Upward v t := by
  induction ts with
  | nil => exact List.forall_mem_singleton.mpr hx
  | cons s ts ih =>
    obtain ⟨d, y⟩ := s
    obtain ⟨hs, hts⟩ := List.forall_mem_cons.mp h
    rw [addTerm]
    split_ifs with hbefore heq
    · exact List.forall_mem_cons.mpr ⟨hx, h⟩
    · exact List.forall_mem_cons.mpr ⟨hs.add (heq ▸ hx), hts⟩
    · exact List.forall_mem_cons.mpr ⟨hs, ih hts⟩

theorem foldl_addTerm_upward (hu : ∀ u ∈ us, Upward v u) (ht : ∀ t ∈ ts, Upward v t) :
    ∀ t ∈ us.foldl (fun ts u => addTerm u.1 u.2 ts) ts, Upward v t := by
  induction us generalizing ts with
  | nil => exact ht
  | cons u us ih =>
    obtain ⟨hu, hus⟩ := List.forall_mem_cons.mp hu
    exact ih hus (addTerm_upward hu ht)

theorem finite_of_addTerm {c : ℕ} {x : Exact} (h : FiniteTerms (addTerm c x ts)) :
    Scalar.isFinite x = true ∧ FiniteTerms ts := by
  induction ts with
  | nil => exact finiteTerms_cons.mp h
  | cons s ts ih =>
    obtain ⟨d, y⟩ := s
    rw [addTerm] at h
    split_ifs at h with hbefore heq
    · exact finiteTerms_cons.mp h
    · obtain ⟨hsum, hts⟩ := finiteTerms_cons.mp h
      obtain ⟨hy, hx⟩ := isFinite_of_add hsum
      exact ⟨hx, finiteTerms_cons.mpr ⟨hy, hts⟩⟩
    · obtain ⟨hy, hrest⟩ := finiteTerms_cons.mp h
      obtain ⟨hx, hts⟩ := ih hrest
      exact ⟨hx, finiteTerms_cons.mpr ⟨hy, hts⟩⟩

/-- Merging equal columns hides no infinite coefficient. -/
theorem finite_of_foldl_addTerm
    (h : FiniteTerms (us.foldl (fun ts u => addTerm u.1 u.2 ts) ts)) :
    FiniteTerms us ∧ FiniteTerms ts := by
  induction us generalizing ts with
  | nil => exact ⟨List.forall_mem_nil _, h⟩
  | cons u us ih =>
    obtain ⟨hus, hadded⟩ := ih h
    obtain ⟨hu, hts⟩ := finite_of_addTerm hadded
    exact ⟨finiteTerms_cons.mpr ⟨hu, hus⟩, hts⟩

theorem valueOf_ne_negInf (h : ∀ t ∈ ts, Upward v t) :
    LinExpr.valueOf (fun i => num (v i)) ts ≠ negInf := by
  refine sum_ne_negInf fun y hy => ?_
  obtain ⟨t, hmem, rfl⟩ := List.mem_map.mp hy
  exact (h t hmem).mul_ne_negInf

theorem finite_of_valueOf (h : Scalar.isFinite (LinExpr.valueOf (fun i => num (v i)) ts) = true) :
    FiniteTerms ts := fun _ hmem =>
  isFinite_of_mul_num (isFinite_of_sum h _ (List.mem_map_of_mem hmem))

end

/-! ## Rows over exact numbers -/

namespace Row
open LinExpr

theorem support_value {e : LinExpr Exact} (h : FiniteTerms e.terms) (v : ℕ → ℝ) :
    FiniteTerms e.support ∧ termsValue v e.support = termsValue v e.terms := by
  refine ⟨fun t ht => h t (List.mem_of_mem_filter ht), ?_⟩
  rw [LinExpr.support]
  generalize e.terms = ts at h
  induction ts with
  | nil => rfl
  | cons t ts ih =>
    obtain ⟨c, y⟩ := t
    obtain ⟨hy, hts⟩ := finiteTerms_cons.mp h
    obtain ⟨z, rfl⟩ := (isFinite_iff y).mp hy
    have hrest := ih hts
    simp only [termsValue, zero_eq] at hrest ⊢
    by_cases hz : z = 0
    · subst hz
      simp [hrest]
    · simp [hz, hrest]

theorem ofExpr_holds_iff {e : LinExpr Exact} {f : (ℕ → ℝ) → ℝ} (h : e.Means f) (equality : Bool)
    (v : ℕ → ℝ) : (ofExpr e equality).holds (fun c => num (v c)) = true ↔
      if equality then f v = 0 else f v ≤ 0 := by
  obtain ⟨hfin, hval⟩ := support_value h.terms v
  obtain ⟨k, hk⟩ := (isFinite_iff e.constant).mp h.constant
  have hvalue := h.value v
  rw [hk, toReal_num] at hvalue
  simp only [holds, ofExpr]
  rw [valueOf_num hfin, hval, hk, num_neg]
  cases equality with
  | true =>
    simp only [if_true, num_eq, decide_eq_true_eq]
    constructor <;> intro h' <;> linarith
  | false =>
    simp only [Bool.false_eq_true, if_false, num_le, decide_eq_true_eq]
    constructor <;> intro h' <;> linarith

theorem eq_holds_iff {e f : LinExpr Exact} {x y : (ℕ → ℝ) → ℝ} (he : e.Means x) (hf : f.Means y)
    (v : ℕ → ℝ) : (Row.eq e f).holds (fun c => num (v c)) = true ↔ x v = y v := by
  rw [Row.eq, ofExpr_holds_iff (he.sub hf), if_pos rfl, sub_eq_zero]

theorem le_holds_iff {e f : LinExpr Exact} {x y : (ℕ → ℝ) → ℝ} (he : e.Means x) (hf : f.Means y)
    (v : ℕ → ℝ) : (Row.le e f).holds (fun c => num (v c)) = true ↔ x v ≤ y v := by
  rw [Row.le, ofExpr_holds_iff (he.sub hf), if_neg Bool.false_ne_true, sub_nonpos]

theorem ge_holds_iff {e f : LinExpr Exact} {x y : (ℕ → ℝ) → ℝ} (he : e.Means x) (hf : f.Means y)
    (v : ℕ → ℝ) : (Row.ge e f).holds (fun c => num (v c)) = true ↔ y v ≤ x v := by
  rw [Row.ge, ofExpr_holds_iff (hf.sub he), if_neg Bool.false_ne_true, sub_nonpos]

end Row

end Dispatch
