import Dispatch.Proofs.Plan.Reading
import Dispatch.Proofs.Stock.Drift

/-! # What rounding small flows to zero changes

* `Device.loss`, `Device.lost`: how far levels move when flows below the tolerance count as zero, in
  one slot and in all slots up to one.
* `Problem.siteLoss`: how far the flow of the site moves.
* `Problem.Absorbs`: the room of the checks is wide enough for these losses.
* `Model.Built.passes_of_held`: values that fit the program pass every check, if it is.
-/

namespace Dispatch
set_option autoImplicit false

open Exact Scalar

/-! ## Single flows -/

section
variable {t x : ℝ}

theorem cleaned_of_lt (h : |x| < t) : cleaned t x = 0 := if_pos h

theorem cleaned_of_le (h : t ≤ |x|) : cleaned t x = x := if_neg (not_lt.mpr h)

theorem abs_sub_cleaned_le (ht : 0 ≤ t) {b : ℝ} (hx : |x| ≤ b) : |x - cleaned t x| ≤ min t b := by
  rcases lt_or_ge |x| t with h | h
  · rw [cleaned_of_lt h, sub_zero]
    exact le_min h.le hx
  · rw [cleaned_of_le h, sub_self, abs_zero]
    exact le_min ht ((abs_nonneg x).trans hx)

/-- What is rounded away has the halves that are rounded away. -/
theorem halves_sub_cleaned (t x : ℝ) :
    upHalf x - upHalf (cleaned t x) = upHalf (x - cleaned t x) ∧
      downHalf x - downHalf (cleaned t x) = downHalf (x - cleaned t x) := by
  rcases lt_or_ge |x| t with h | h
  · simp [cleaned_of_lt h, upHalf, downHalf]
  · simp [cleaned_of_le h, upHalf, downHalf]

theorem sub_cleaned_le (ht : 0 ≤ t) {up : ℝ} (hx : x ≤ up) :
    x - cleaned t x ≤ min t (max up 0) := by
  rcases lt_or_ge |x| t with h | h
  · rw [cleaned_of_lt h, sub_zero]
    exact le_min ((le_abs_self x).trans h.le) (hx.trans (le_max_left _ _))
  · rw [cleaned_of_le h, sub_self]
    exact le_min ht (le_max_right _ _)

theorem cleaned_neg (t x : ℝ) : cleaned t (-x) = -cleaned t x := by
  rw [cleaned, cleaned, abs_neg]
  split_ifs
  · exact neg_zero.symm
  · rfl

end

/-! ## Levels -/

namespace Device

/-- No slot moves the level further when its flow is rounded. -/
noncomputable def loss (d : Device Exact) (s : Stock Exact) (t hours : ℝ) (j : ℕ) : ℝ :=
  max (min t (max (d.high j) 0) * s.upShare j) (min t (max (-d.low j) 0) / s.downShare j) * hours

noncomputable def lost (d : Device Exact) (s : Stock Exact) (t hours : ℝ) (n : ℕ) : ℝ :=
  ((List.range n).map (d.loss s t hours)).sum

theorem lost_succ (d : Device Exact) (s : Stock Exact) (t hours : ℝ) (n : ℕ) :
    d.lost s t hours (n + 1) = d.lost s t hours n + d.loss s t hours n := by
  rw [lost, List.range_succ, List.map_append, List.sum_append, List.map_singleton,
    List.sum_singleton, lost]

variable {d : Device Exact} {s : Stock Exact} {t hours : ℝ} {len j : ℕ}

theorem loss_nonneg (hslot : s.SoundSlot j) (ht : 0 ≤ t) (hh : 0 ≤ hours) : 0 ≤ d.loss s t hours j :=
  mul_nonneg (le_max_of_le_left
    (mul_nonneg (le_min ht (le_max_right _ _)) hslot.upShare_pos.le)) hh

theorem lost_mono (hs : s.Sound len) (ht : 0 ≤ t) (hh : 0 ≤ hours) {n k : ℕ} (hnk : n ≤ k)
    (hk : k ≤ len) : d.lost s t hours n ≤ d.lost s t hours k := by
  obtain ⟨m, rfl⟩ := Nat.exists_eq_add_of_le hnk
  rw [lost, lost, List.range_add, List.map_append, List.sum_append]
  refine le_add_of_nonneg_right (List.sum_nonneg fun x hx => ?_)
  rw [List.map_map] at hx
  obtain ⟨i, hi, rfl⟩ := List.mem_map.mp hx
  have hlt := List.mem_range.mp hi
  exact loss_nonneg (hs.slot (n + i) (by omega)) ht hh

theorem abs_realChange_cleaned_le (hslot : s.SoundSlot j) (ht : 0 ≤ t) (hh : 0 ≤ hours) {flow : ℝ}
    (hf : d.InBand j flow) :
    |s.realChange hours j (upHalf flow) (downHalf flow) -
      s.realChange hours j (upHalf (cleaned t flow)) (downHalf (cleaned t flow))| ≤
        d.loss s t hours j := by
  obtain ⟨hup, hdown⟩ := halves_sub_cleaned t flow
  have hneg : -(flow - cleaned t flow) ≤ min t (max (-d.low j) 0) := by
    have := sub_cleaned_le ht (neg_le_neg hf.1)
    rwa [cleaned_neg, ← neg_sub'] at this
  rw [s.realChange_sub, hup, hdown]
  exact abs_flowChange_le hslot hh (sub_cleaned_le ht hf.2) hneg

/-- Rounding its flows moves the levels of a device by no more than is lost. -/
theorem Sound.abs_path_sub_cleaned_le (h : d.Sound len) (hs : d.stock = some s) (ht : 0 ≤ t)
    (hh : 0 ≤ hours) {flow : ℕ → ℝ} (hf : ∀ j < len, d.InBand j (flow j)) {n : ℕ} (hn : n ≤ len) :
    |s.path hours flow n - s.path hours (fun j => cleaned t (flow j)) n| ≤ d.lost s t hours n :=
  (h.stock s hs).abs_path_sub_path_le hours
    (fun j hj => abs_realChange_cleaned_le ((h.stock s hs).slot j hj) ht hh (hf j hj)) hn

end Device

/-! ## The site -/

/-- Either everything is rounded away, or something is large enough to be left as it is. -/
theorem cleaned_all_or_sum_le {ι : Type} {t : ℝ} (ht : 0 ≤ t) (xs : List ι) {f b : ι → ℝ}
    (h : ∀ x ∈ xs, |f x| ≤ b x) :
    (∀ x ∈ xs, cleaned t (f x) = 0) ∨
      (xs.map fun x => |f x - cleaned t (f x)|).sum + t ≤ (xs.map fun x => min t (b x)).sum := by
  induction xs with
  | nil => exact .inl fun x hx => nomatch hx
  | cons x xs ih =>
    have hx := h x List.mem_cons_self
    have hxs : ∀ y ∈ xs, |f y| ≤ b y := fun y hy => h y (List.mem_cons_of_mem _ hy)
    simp only [List.map_cons, List.sum_cons, List.forall_mem_cons]
    rcases lt_or_ge |f x| t with hlt | hle
    · rcases ih hxs with hall | hrest
      · exact .inl ⟨cleaned_of_lt hlt, hall⟩
      · refine .inr ?_
        linarith [abs_sub_cleaned_le ht hx]
    · refine .inr ?_
      have hsum : (xs.map fun y => |f y - cleaned t (f y)|).sum ≤
          (xs.map fun y => min t (b y)).sum :=
        List.sum_le_sum fun y hy => abs_sub_cleaned_le ht (hxs y hy)
      rw [cleaned_of_le hle, sub_self, abs_zero, min_eq_left (hle.trans hx)]
      linarith

/-- Rounding parts and then their sum moves the sum by what rounding may take from the parts: the sum
is only rounded away where a part was not, or where all were. -/
theorem abs_sum_sub_cleaned_le {ι : Type} {t : ℝ} (ht : 0 ≤ t) (xs : List ι) {f b : ι → ℝ}
    (h : ∀ x ∈ xs, |f x| ≤ b x) :
    |(xs.map f).sum - cleaned t (xs.map fun x => cleaned t (f x)).sum| ≤
      (xs.map fun x => min t (b x)).sum := by
  have hparts : |(xs.map f).sum - (xs.map fun x => cleaned t (f x)).sum| ≤
      (xs.map fun x => |f x - cleaned t (f x)|).sum := by
    have hsplit : (xs.map f).sum =
        (xs.map fun x => f x - cleaned t (f x)).sum + (xs.map fun x => cleaned t (f x)).sum := by
      simp only [← List.sum_map_add, sub_add_cancel]
    rw [hsplit, add_sub_cancel_right]
    exact Problem.abs_sum_le xs _ _ fun x _ => le_rfl
  have hloss : (xs.map fun x => |f x - cleaned t (f x)|).sum ≤
      (xs.map fun x => min t (b x)).sum :=
    List.sum_le_sum fun x hx => abs_sub_cleaned_le ht (h x hx)
  rcases lt_or_ge |(xs.map fun x => cleaned t (f x)).sum| t with hlt | hle
  · rw [cleaned_of_lt hlt, sub_zero]
    rcases cleaned_all_or_sum_le ht xs h with hall | hsum
    · rw [List.map_congr_left hall, List.map_const', List.sum_replicate, nsmul_zero,
        sub_zero] at hparts
      exact hparts.trans hloss
    · have htriangle := abs_sub_abs_le_abs_sub (xs.map f).sum (xs.map fun x => cleaned t (f x)).sum
      linarith
  · rw [cleaned_of_le hle]
    exact hparts.trans hloss

namespace Problem

/-- The flow of the site moves no further when the flows of its devices are rounded. -/
noncomputable def siteLoss (p : Problem Exact) (t : ℝ) : ℝ :=
  ((p.devices.filter fun d => d.onSite).map fun d => min t d.bound).sum

theorem abs_siteFlow_sub_cleaned_le {p : Problem Exact} {t : ℝ} (ht : 0 ≤ t) {flow : ℕ → ℕ → ℝ}
    {j : ℕ} (h : ∀ i d, p.devices[i]? = some d → |flow i j| ≤ d.bound) :
    |p.siteFlow flow j - cleaned t (p.siteFlow (fun i j => cleaned t (flow i j)) j)| ≤
      p.siteLoss t := by
  rw [siteFlow, siteFlow, siteLoss, siteMembers, siteDevices_eq, List.map_map, List.map_map,
    List.map_map]
  refine abs_sum_sub_cleaned_le ht _ fun x hx => ?_
  exact h x.2 x.1 (List.mem_zipIdx_iff_getElem?.mp (List.mem_filter.mp hx).1)

/-! ## Room for the losses -/

/-- No lower limit is infinitely high, and no upper one infinitely low. -/
structure Attainable (p : Problem Exact) : Prop where
  stock : ∀ d ∈ p.devices, ∀ s, d.stock = some s → ∀ j < p.len,
    valueAt s.min j ≠ inf ∧ valueAt s.max j ≠ negInf
  site : p.siteMembers ≠ [] → ∀ j < p.len, valueAt p.site.min j ≠ inf ∧ valueAt p.site.max j ≠ negInf

/-- The checks leave room for what rounding loses, where it is looked at: at levels, at limits of the
site and at commitments on its flow. -/
structure Absorbs (p : Problem Exact) (t : ℝ) : Prop where
  level : ∀ d ∈ p.devices, ∀ s, d.stock = some s →
    d.lost s t p.realHours p.len ≤ d.levelRoom t p.realHours p.len
  site : (∃ j < p.len, Scalar.isFinite (valueAt p.site.min j) = true ∨
    Scalar.isFinite (valueAt p.site.max j) = true) → p.siteLoss t ≤ p.siteRoom t
  link : (∃ c ∈ p.commitments, c.kind = .flow ∧ p.committed? c = none) →
    p.siteLoss t ≤ (10 : ℕ) * t

end Problem

/-! ## Devices with wide bands -/

/-- On either side of zero the band of every slot is empty or reaches to 1 at least. -/
def Device.Wide (d : Device Exact) (len : ℕ) : Prop :=
  ∀ j < len, (d.high j ≤ 0 ∨ 1 ≤ d.high j) ∧ (0 ≤ d.low j ∨ d.low j ≤ -1)

section
variable {d : Device Exact} {s : Stock Exact} {t hours : ℝ} {len : ℕ}

theorem min_le_mul (ht : 0 ≤ t) {b : ℝ} (hb : b = 0 ∨ 1 ≤ b) : min t b ≤ t * b := by
  rcases hb with rfl | hb
  · rw [mul_zero]
    exact min_le_right _ _
  · exact (min_le_left _ _).trans (le_mul_of_one_le_right ht hb)

theorem Device.Wide.loss_le (hwide : d.Wide len) {j : ℕ} (hj : j < len) (hslot : s.SoundSlot j)
    (ht : 0 ≤ t) (hh : 0 ≤ hours) :
    d.loss s t hours j ≤
      t * (max (max (d.high j) 0 * s.upShare j) (max (-d.low j) 0 / s.downShare j) * hours) := by
  obtain ⟨hhigh, hlow⟩ := hwide j hj
  have hup : max (d.high j) 0 = 0 ∨ 1 ≤ max (d.high j) 0 :=
    hhigh.imp max_eq_right fun h => h.trans (le_max_left _ _)
  have hdown : max (-d.low j) 0 = 0 ∨ 1 ≤ max (-d.low j) 0 :=
    hlow.imp (fun h => max_eq_right (neg_nonpos.mpr h)) fun h => le_max_of_le_left (by linarith)
  rw [Device.loss, ← mul_assoc, mul_max_of_nonneg _ _ ht]
  refine mul_le_mul_of_nonneg_right (max_le_max ?_ ?_) hh
  · exact (mul_le_mul_of_nonneg_right (min_le_mul ht hup) hslot.upShare_pos.le).trans_eq
      (mul_assoc _ _ _)
  · exact (div_le_div_of_nonneg_right (min_le_mul ht hdown) hslot.downShare_pos.le).trans_eq
      (mul_div_assoc _ _ _)

/-- Rounding loses a share of what is reached, of the size of the tolerance. -/
theorem Device.Wide.lost_le (hwide : d.Wide len) (hs : s.Sound len) (ht : 0 ≤ t) (hh : 0 ≤ hours)
    {n : ℕ} (hn : n ≤ len) : d.lost s t hours n ≤ t * d.reach s hours n := by
  induction n with
  | zero => exact mul_nonneg ht (abs_nonneg _)
  | succ n ih =>
    have hslot := hwide.loss_le hn (hs.slot n hn) ht hh
    have hdrift := mul_nonneg ht (abs_nonneg (s.drift n))
    rw [Device.lost_succ, Device.reach, mul_add, mul_add]
    linarith [ih (by omega)]

theorem Device.Wide.bound_cases (hwide : d.Wide len) (h : d.Sound len) :
    d.bound = 0 ∨ 1 ≤ d.bound := by
  rcases le_or_gt 1 d.bound with hone | hlt
  · exact .inr hone
  · refine .inl (le_antisymm ?_ h.bound_nonneg)
    have hzero : ∀ j < len, d.low j = 0 ∧ d.high j = 0 := by
      intro j hj
      obtain ⟨hlow, -⟩ := abs_le.mp (h.abs_low_le hj)
      obtain ⟨-, hhigh⟩ := abs_le.mp (h.abs_high_le hj)
      have hband := h.low_le_high j hj
      obtain ⟨hhigh' | hhigh', hlow' | hlow'⟩ := hwide j hj
      · exact ⟨by linarith, by linarith⟩
      all_goals linarith
    rw [h.bound_eq]
    refine peak_le_iff.mpr ⟨le_rfl, fun x hx => ?_⟩
    obtain ⟨y, hy, rfl⟩ := List.mem_map.mp hx
    obtain ⟨z, hz, rfl⟩ := List.mem_map.mp hy
    rcases List.mem_append.mp hz with hz | hz
    · obtain ⟨j, hj, rfl⟩ := exists_valueAt hz
      have hj' : j < len := h.powerMin_length ▸ hj
      rw [h.powerMin_eq j hj', (hzero j hj').1, num_abs, abs_zero, toReal_num]
    · obtain ⟨j, hj, rfl⟩ := exists_valueAt hz
      have hj' : j < len := h.powerMax_length ▸ hj
      rw [h.powerMax_eq j hj', (hzero j hj').2, num_abs, abs_zero, toReal_num]

end

/-- Wide bands absorb every rounding, but that no more than ten devices may be on the site. -/
theorem Problem.Sound.absorbs_of_wide {p : Problem Exact} (hp : p.Sound) (hhours : 0 ≤ p.realHours)
    {t : ℝ} (ht : 0 ≤ t) (hwide : ∀ d ∈ p.devices, d.Wide p.len)
    (hfew : (p.devices.filter fun d => d.onSite).length ≤ 10) : p.Absorbs t := by
  refine ⟨fun d hd s hs => ?_, fun _ => ?_, fun _ => ?_⟩
  · have hsound := hp.device d hd
    have hreach : 0 ≤ d.reach s p.realHours p.len :=
      (abs_nonneg s.start).trans (hsound.reach_mono hs hhours (Nat.zero_le _) le_rfl)
    have hlen : (1 : ℝ) ≤ p.len := by exact_mod_cast hp.len_pos
    rw [Device.levelRoom, hsound.stockBound_eq hs, toReal_num]
    calc d.lost s t p.realHours p.len ≤ t * d.reach s p.realHours p.len :=
          (hwide d hd).lost_le (hsound.stock s hs) ht hhours le_rfl
      _ ≤ t * (1 + d.reach s p.realHours p.len) := mul_le_mul_of_nonneg_left (by linarith) ht
      _ ≤ t * (1 + d.reach s p.realHours p.len) * p.len :=
          le_mul_of_one_le_right (mul_nonneg ht (by linarith)) hlen
      _ ≤ _ := le_max_left _ _
  · have hbounds : p.siteLoss t ≤
        ((p.devices.filter fun d => d.onSite).map fun d => t * d.bound).sum :=
      List.sum_le_sum fun d hd => min_le_mul ht ((hwide d (List.mem_filter.mp hd).1).bound_cases
        (hp.device d (List.mem_filter.mp hd).1))
    rw [List.sum_map_mul_left] at hbounds
    rw [Problem.siteRoom, mul_add, mul_one]
    linarith
  · have hall := List.sum_le_card_nsmul ((p.devices.filter fun d => d.onSite).map fun d =>
      min t d.bound) t fun x hx => by
        obtain ⟨d, -, rfl⟩ := List.mem_map.mp hx
        exact min_le_left _ _
    rw [List.length_map, nsmul_eq_mul] at hall
    exact hall.trans (mul_le_mul_of_nonneg_right (by exact_mod_cast hfew) ht)

/-! ## Whole answers -/

/-- An answer with a value for every column. -/
def Answer.full (v : ℕ → ℝ) : Answer := fun i => some (v i)

@[simp] theorem Answer.filled_full (v : ℕ → ℝ) : (Answer.full v).filled = v := rfl

/-- A level that fits its limits passes, and so does one that is close to it. -/
theorem LevelFits.passes {s : Stock Exact} {len j : ℕ} (h : s.Sound len) {x y room : ℝ}
    (fits : LevelFits s j x) (hmin : valueAt s.min j ≠ inf) (hmax : valueAt s.max j ≠ negInf)
    (hclose : |x - y| ≤ room) : LevelPasses s room j y := by
  obtain ⟨hlow, hhigh⟩ := abs_le.mp hclose
  refine ⟨?_, ?_, fun e he => ?_⟩
  · cases hcase : valueAt s.min j with
    | num b =>
      have hfit := fits.low (by rw [hcase]; rfl)
      rw [h.initial_eq, hcase, num_add, num_le_num] at hfit
      rw [num_sub, num_lt_num]
      linarith
    | inf => exact absurd hcase hmin
    | negInf | nan => exact Bool.false_ne_true
  · cases hcase : valueAt s.max j with
    | num b =>
      have hfit := fits.high (by rw [hcase]; rfl)
      rw [h.initial_eq, hcase, num_add, num_le_num] at hfit
      rw [num_add, num_lt_num]
      linarith
    | negInf => exact absurd hcase hmax
    | inf | nan => exact Bool.false_ne_true
  · rw [fits.target e he] at hclose
    rw [abs_sub_comm]
    convert hclose using 2
    ring

theorem le_linkRoom {t up down : ℝ} (ht : 0 ≤ t) (hup : 0 ≤ up) (hdown : 0 ≤ down) (x q : ℝ) :
    (10 : ℕ) * t ≤ linkRoom t x q up down := by
  have hone : 1 ≤ 1 + |x| + |q| + up + down := by linarith [abs_nonneg x, abs_nonneg q]
  exact le_mul_of_one_le_right (by positivity) hone

/-- Deviations that account for what is measured pass, and for what is close to it as well. -/
theorem Accounts.linkPasses {t x y q up down : ℝ} {grouping : Grouping}
    (h : Accounts grouping x q up down) (ht : 0 ≤ t) (hup : 0 ≤ up) (hdown : 0 ≤ down)
    (hclose : |x - y| ≤ (10 : ℕ) * t) : LinkPasses t grouping y q up down := by
  have hroom := hclose.trans (le_linkRoom ht hup hdown y q)
  obtain ⟨hlow, hhigh⟩ := abs_le.mp hroom
  cases grouping with
  | each =>
    rw [accounts_each] at h
    have hsplit : y - q - up + down = -(x - y) := by linarith
    rwa [LinkPasses, hsplit, abs_neg]
  | any =>
    rw [accounts_any] at h
    exact ⟨by linarith, by linarith⟩

namespace Model.Built
variable {p : Problem Exact} {margin t : ℝ} {m : Model Exact} {v : ℕ → ℝ}

theorem flowPasses_full (hb : m.Built p (num margin)) (hp : p.Sound) (ht : 0 ≤ t)
    (held : DevicesHeld p (num margin) m.handles fun i => num (v i)) {i : ℕ} {d : Device Exact}
    (hd : p.devices[i]? = some d) {j : ℕ} (hj : j < p.len) :
    FlowPasses t d (m.handles.devices.getD i .empty) (.full v) j := by
  have hsound := hp.device_of_get hd
  have hband := hb.inBand hp held hd hj
  obtain ⟨hup, hdown⟩ := hb.halves hp held hd hj
  have hroom : t ≤ d.flowRoom t := le_mul_of_one_le_right ht (by linarith [hsound.bound_nonneg])
  have hmoved : |m.handles.flow v i j - cleaned t (m.handles.flow v i j)| ≤ d.flowRoom t :=
    (abs_sub_cleaned_le ht (hsound.abs_flow_le hj hband)).trans ((min_le_left _ _).trans hroom)
  obtain ⟨hlow, hhigh⟩ := abs_le.mp hmoved
  have hup' : 0 ≤ m.handles.up v i j := hup ▸ upHalf_nonneg _
  have hdown' : m.handles.down v i j ≤ 0 := hdown ▸ downHalf_nonpos _
  refine ⟨rfl, rfl, ?_, ?_, ?_, ?_, ?_⟩
  · exact (neg_nonpos.mpr (ht.trans hroom)).trans hup'
  · exact hdown'.trans (ht.trans hroom)
  · refine le_trans ?_ (ht.trans hroom)
    show min (m.handles.up v i j) (-m.handles.down v i j) ≤ 0
    rw [hup, hdown, upHalf, downHalf]
    rcases le_total 0 (m.handles.flow v i j) with h0 | h0
    · rw [min_eq_right h0, neg_zero]
      exact min_le_right _ _
    · rw [max_eq_right h0]
      exact min_le_left _ _
  · show d.low j - d.flowRoom t ≤ cleaned t (m.handles.flow v i j)
    linarith [hband.1]
  · show cleaned t (m.handles.flow v i j) ≤ d.high j + d.flowRoom t
    linarith [hband.2]

theorem devicePasses_full (hb : m.Built p (num margin)) (hp : p.Sound) (hhours : 0 ≤ p.realHours)
    (ht : 0 ≤ t) (hopen : p.Attainable) (habsorbs : p.Absorbs t)
    (held : DevicesHeld p (num margin) m.handles fun i => num (v i)) {i : ℕ} {d : Device Exact}
    (hd : p.devices[i]? = some d) : DevicePasses p t d (m.handles.devices.getD i .empty) (.full v) := by
  refine ⟨fun j hj => hb.flowPasses_full hp ht held hd hj, fun _ _ _ _ => rfl, fun s hs j hj => ?_⟩
  have hmem := List.mem_of_getElem? hd
  have hsound := (hp.device_of_get hd).stock s hs
  obtain ⟨hmin, hmax⟩ := hopen.stock d hmem s hs j hj
  obtain ⟨hlevel, fits⟩ := ((hb.devicesHeld_iff hp).mp held i d hd).level s hs j hj
  rw [hp.valueAt_replay hd hs _ hj, toReal_num]
  refine fits.passes hsound hmin hmax ?_
  rw [hlevel]
  calc |s.path p.realHours (m.handles.flow v i) (j + 1) -
        s.path p.realHours (fun j => cleaned t (m.handles.flow v i j)) (j + 1)|
      ≤ d.lost s t p.realHours (j + 1) :=
        (hp.device_of_get hd).abs_path_sub_cleaned_le hs ht hhours
          (fun j hj => hb.inBand hp held hd hj) hj
    _ ≤ d.lost s t p.realHours p.len := Device.lost_mono hsound ht hhours hj le_rfl
    _ ≤ _ := habsorbs.level d hmem s hs

theorem abs_siteFlow_sub_sitePower_le (hb : m.Built p (num margin)) (hp : p.Sound) (ht : 0 ≤ t)
    (held : DevicesHeld p (num margin) m.handles fun i => num (v i)) {j : ℕ} (hj : j < p.len) :
    |p.siteFlow (m.handles.flow v) j - m.handles.sitePower p t (.full v) j| ≤ p.siteLoss t :=
  Problem.abs_siteFlow_sub_cleaned_le ht fun _ _ hd =>
    (hp.device_of_get hd).abs_flow_le hj (hb.inBand hp held hd hj)

theorem sitePasses_full (hb : m.Built p (num margin)) (hp : p.Sound) (ht : 0 ≤ t)
    (hopen : p.Attainable) (habsorbs : p.Absorbs t)
    (held : DevicesHeld p (num margin) m.handles fun i => num (v i))
    (site : SitesHeld p m.handles fun i => num (v i)) (hmembers : p.siteMembers ≠ []) {j : ℕ}
    (hj : j < p.len) : SitePasses p (p.siteRoom t) j (m.handles.sitePower p t (.full v) j) := by
  have hmoved := hb.abs_siteFlow_sub_sitePower_le hp ht held hj
  obtain ⟨hlow, hhigh⟩ := siteHeld_iff.mp (site hmembers j hj)
  obtain ⟨hmin, hmax⟩ := hopen.site hmembers j hj
  refine ⟨?_, ?_⟩
  · cases hcase : valueAt p.site.min j with
    | num b =>
      have hfinite : Scalar.isFinite (valueAt p.site.min j) = true := by rw [hcase]; rfl
      have hroom := hmoved.trans (habsorbs.site ⟨j, hj, .inl hfinite⟩)
      have hfit := hlow hfinite
      rw [hcase, num_le_num] at hfit
      rw [num_sub, num_le_num]
      linarith [(abs_le.mp hroom).2]
    | inf => exact absurd hcase hmin
    | negInf => exact negInf_le_num _
    | nan =>
      have := hp.site.min_not_nan j hj
      rw [hcase] at this
      cases this
  · cases hcase : valueAt p.site.max j with
    | num b =>
      have hfinite : Scalar.isFinite (valueAt p.site.max j) = true := by rw [hcase]; rfl
      have hroom := hmoved.trans (habsorbs.site ⟨j, hj, .inr hfinite⟩)
      have hfit := hhigh hfinite
      rw [hcase, num_le_num] at hfit
      rw [num_add, num_le_num]
      linarith [(abs_le.mp hroom).1]
    | negInf => exact absurd hcase hmax
    | inf => exact num_le_inf _
    | nan =>
      have := hp.site.max_not_nan j hj
      rw [hcase] at this
      cases this

/-- What a commitment measures moves by ten times the tolerance at most. -/
theorem abs_scope_sub_measured_le (hb : m.Built p (num margin)) (hp : p.Sound) (ht : 0 ≤ t)
    (habsorbs : p.Absorbs t) (held : DevicesHeld p (num margin) m.handles fun i => num (v i))
    {c : Commitment Exact} (hc : c ∈ p.commitments) {j : ℕ} (hj : j < p.len) :
    |scope p m v c j - m.handles.measured p t (.full v) c j| ≤ (10 : ℕ) * t := by
  have hzero : (0 : ℝ) ≤ (10 : ℕ) * t := by positivity
  rw [scope, Problem.measured, Handles.measured]
  cases hkind : c.kind with
  | flow =>
    cases hi : p.committed? c with
    | none =>
      exact (hb.abs_siteFlow_sub_sitePower_le hp ht held hj).trans
        (habsorbs.link ⟨c, hc, hkind, hi⟩)
    | some i =>
      refine (abs_sub_cleaned_le ht le_rfl).trans ((min_le_left _ _).trans ?_)
      exact le_mul_of_one_le_left ht (by norm_num)
  | stock =>
    cases hi : p.committed? c with
    | none => simpa using hzero
    | some i => simpa using hzero

/-- Where the room of the checks absorbs what rounding loses, values that fit the program pass. -/
theorem passes_of_held (hb : m.Built p (num margin)) (hp : p.Sound) (hhours : 0 ≤ p.realHours)
    (ht : 0 ≤ t) (hopen : p.Attainable) (habsorbs : p.Absorbs t)
    (held : DevicesHeld p (num margin) m.handles fun i => num (v i))
    (site : SitesHeld p m.handles fun i => num (v i))
    (commitments : CommitmentsHeld p (num margin) m.handles fun i => num (v i)) :
    (Answer.full v).Passes p m.handles t := by
  refine ⟨fun i d hd => hb.devicePasses_full hp hhours ht hopen habsorbs held hd,
    fun hmembers j hj => hb.sitePasses_full hp ht hopen habsorbs held site hmembers hj,
    fun c cols hmem g hg j hj => ?_⟩
  have hc := (List.of_mem_zip hmem).1
  obtain ⟨group, hgroup, hshape⟩ := hb.exists_group hmem hg
  have fits := (hb.commitmentsHeld_iff hp).mp commitments c cols hmem group g hgroup
  rw [hshape.slots] at hj
  have hactive := (hp.commitment c hc).mem_activeSlots_of_group (List.of_mem_zip hgroup).1 hj
  exact (fits.accounts j hj).linkPasses ht fits.up_nonneg fits.down_nonneg
    (hb.abs_scope_sub_measured_le hp ht habsorbs held hc ((hp.commitment c hc).slot_lt j hactive))

end Model.Built

end Dispatch
