import Mathlib.Data.List.Forall2
import Dispatch.Fault

/-! # Computations that may fail

When a chain of steps, a loop or a renaming of errors ends well: just when every step does.

* `Checked.FailsWith`: every failure of a computation is of one sort.
* `Checked.Same`: two computations come to the same, or fail both.
-/

namespace Dispatch.Checked
set_option autoImplicit false

variable {ε ε' β γ ι : Type}

theorem bind_eq_ok {x : Except ε β} {f : β → Except ε γ} {c : γ} :
    x >>= f = .ok c ↔ ∃ b, x = .ok b ∧ f b = .ok c := by
  cases x with
  | error e => simp [bind, Except.bind]
  | ok b => simp [bind, Except.bind]

@[simp] theorem pure_eq_ok {b c : β} : (pure b : Except ε β) = .ok c ↔ b = c := by
  simp [pure, Except.pure]

theorem mapError_eq_ok {x : Except ε β} {f : ε → ε'} {b : β} :
    x.mapError f = .ok b ↔ x = .ok b := by
  cases x with
  | error e => simp [Except.mapError]
  | ok c => simp [Except.mapError]

theorem guard_eq_ok {p : Prop} [Decidable p] {e : ε} {u : Unit} :
    (if p then .error e else pure u : Except ε Unit) = .ok u ↔ ¬p := by
  by_cases h : p
  · simp [h]
  · simp [h, pure, Except.pure]

/-- A guard in front of further steps. -/
theorem guardThen_eq_ok {p : Prop} [Decidable p] {e : ε} {x : Except ε γ} {f : β → Except ε γ}
    {c : γ} : (if p then Except.error e >>= f else x) = .ok c ↔ ¬p ∧ x = .ok c := by
  by_cases h : p
  · simp [h, bind, Except.bind]
  · simp [h]

theorem forM_eq_ok {xs : List ι} {f : ι → Except ε Unit} {u : Unit} :
    xs.forM f = .ok u ↔ ∀ x ∈ xs, f x = .ok u := by
  induction xs with
  | nil => simp [List.forM, pure, Except.pure]
  | cons x xs ih =>
    show (f x >>= fun _ => xs.forM f) = .ok u ↔ _
    rw [bind_eq_ok, List.forall_mem_cons]
    constructor
    · rintro ⟨b, hx, hxs⟩
      exact ⟨hx, ih.mp hxs⟩
    · rintro ⟨hx, hxs⟩
      exact ⟨u, hx, ih.mpr hxs⟩

theorem forM_range_eq_ok {n : ℕ} {f : ℕ → Except ε Unit} {u : Unit} :
    (List.range n).forM f = .ok u ↔ ∀ j < n, f j = .ok u :=
  forM_eq_ok.trans (forall_congr' fun _ => by rw [List.mem_range])

theorem mapM_eq_ok {xs : List ι} {f : ι → Except ε β} {bs : List β} :
    xs.mapM f = .ok bs ↔ List.Forall₂ (fun x b => f x = .ok b) xs bs := by
  induction xs generalizing bs with
  | nil =>
    rw [List.mapM_nil, pure_eq_ok, List.forall₂_nil_left_iff, eq_comm]
  | cons x xs ih =>
    rw [List.mapM_cons, bind_eq_ok, List.forall₂_cons_left_iff]
    constructor
    · rintro ⟨b, hx, h⟩
      obtain ⟨bs', hxs, h⟩ := bind_eq_ok.mp h
      exact ⟨b, bs', hx, ih.mp hxs, (pure_eq_ok.mp h).symm⟩
    · rintro ⟨b, bs', hx, hxs, rfl⟩
      exact ⟨b, hx, bind_eq_ok.mpr ⟨bs', ih.mpr hxs, rfl⟩⟩

/-- A loop of which it is known when each step passes, and what it then gives. -/
theorem mapM_eq_ok_of_forall {xs : List ι} {f : ι → Except ε β} {passes : ι → Prop} {g : ι → β}
    (h : ∀ x ∈ xs, ∀ b, f x = .ok b ↔ passes x ∧ b = g x) {bs : List β} :
    xs.mapM f = .ok bs ↔ (∀ x ∈ xs, passes x) ∧ bs = xs.map g := by
  induction xs generalizing bs with
  | nil => rw [List.mapM_nil, pure_eq_ok, List.map_nil, eq_comm]; simp
  | cons x xs ih =>
    have hxs := fun y hy => h y (List.mem_cons_of_mem x hy)
    rw [List.mapM_cons, bind_eq_ok, List.forall_mem_cons, List.map_cons]
    constructor
    · rintro ⟨b, hb, hrest⟩
      obtain ⟨bs', hbs, hrest⟩ := bind_eq_ok.mp hrest
      obtain ⟨hpass, rfl⟩ := (h x List.mem_cons_self b).mp hb
      obtain ⟨hall, rfl⟩ := (ih hxs).mp hbs
      exact ⟨⟨hpass, hall⟩, (pure_eq_ok.mp hrest).symm⟩
    · rintro ⟨⟨hpass, hall⟩, rfl⟩
      exact ⟨g x, (h x List.mem_cons_self _).mpr ⟨hpass, rfl⟩,
        bind_eq_ok.mpr ⟨xs.map g, (ih hxs).mpr ⟨hall, rfl⟩, rfl⟩⟩

/-- A loop of which no step fails. -/
theorem mapM_eq_map {xs : List ι} {f : ι → Except ε β} {g : ι → β} (h : ∀ x ∈ xs, f x = .ok (g x)) :
    xs.mapM f = .ok (xs.map g) :=
  mapM_eq_ok.mpr (List.forall₂_map_right_iff.mpr (List.forall₂_same.mpr h))

/-- A loop fails as its first step that fails. -/
theorem mapM_eq_error {xs : List ι} {f : ι → Except ε β} {e : ε} :
    xs.mapM f = .error e ↔
      ∃ i, ∃ h : i < xs.length, f xs[i] = .error e ∧ ∀ k, ∀ hk : k < i, ∃ b, f xs[k] = .ok b := by
  induction xs with
  | nil => simp [pure, Except.pure]
  | cons x xs ih =>
    rw [List.mapM_cons]
    cases hx : f x with
    | error e' =>
      show Except.error e' = .error e ↔ _
      rw [Except.error.injEq]
      constructor
      · rintro rfl
        exact ⟨0, Nat.zero_lt_succ _, hx, fun k hk => absurd hk (Nat.not_lt_zero k)⟩
      · rintro ⟨i, hi, he, hbefore⟩
        cases i with
        | zero => exact Except.error.inj (hx.symm.trans he)
        | succ i =>
          obtain ⟨b, hb⟩ := hbefore 0 (Nat.zero_lt_succ i)
          exact nomatch hx.symm.trans hb
    | ok b =>
      have hrest : (Except.ok b >>= fun b => xs.mapM f >>= fun bs => pure (b :: bs)) = .error e ↔
          xs.mapM f = .error e := by
        cases xs.mapM f <;> simp [bind, Except.bind, pure, Except.pure]
      rw [hrest, ih]
      constructor
      · rintro ⟨i, hi, he, hbefore⟩
        refine ⟨i + 1, Nat.succ_lt_succ hi, he, fun k hk => ?_⟩
        cases k with
        | zero => exact ⟨b, hx⟩
        | succ k => exact hbefore k (Nat.lt_of_succ_lt_succ hk)
      · rintro ⟨i, hi, he, hbefore⟩
        cases i with
        | zero => exact nomatch hx.symm.trans he
        | succ i =>
          exact ⟨i, Nat.lt_of_succ_lt_succ hi, he, fun k hk => hbefore (k + 1) (Nat.succ_lt_succ hk)⟩

/-- Picking from a list, where the choice fails on no element. -/
theorem filterM_eq {xs : List ι} {f : ι → Except ε Bool} {p : ι → Bool}
    (h : ∀ x ∈ xs, f x = .ok (p x)) : xs.filterM f = .ok (xs.filter p) := by
  -- What has been picked so far stands in front, the last first.
  have hpicked : ∀ acc, List.filterAuxM f xs acc = .ok ((xs.filter p).reverse ++ acc) := by
    induction xs with
    | nil => exact fun acc => rfl
    | cons x xs ih =>
      intro acc
      obtain ⟨hx, hxs⟩ := List.forall_mem_cons.mp h
      rw [List.filterAuxM, bind_eq_ok]
      refine ⟨p x, hx, (ih hxs _).trans ?_⟩
      cases hpick : p x with
      | true => simp [hpick]
      | false => simp [hpick]
  rw [List.filterM, bind_eq_ok]
  exact ⟨_, hpicked [], by simp [pure, Except.pure]⟩

/-! ## How steps fail -/

/-- Whenever the computation fails, it does so with such an error. -/
def FailsWith (q : ε → Prop) (x : Except ε β) : Prop := ∀ e, x = .error e → q e

variable {q : ε → Prop}

theorem failsWith_ok (b : β) : FailsWith q (.ok b) := fun _ h => nomatch h

theorem failsWith_error {e : ε} (h : q e) : FailsWith q (.error e : Except ε β) := by
  rintro _ ⟨⟩
  exact h

theorem FailsWith.bind_of_ok {x : Except ε β} {f : β → Except ε γ} (hx : FailsWith q x)
    (hf : ∀ b, x = .ok b → FailsWith q (f b)) : FailsWith q (x >>= f) := by
  cases x with
  | error e => exact failsWith_error (hx e rfl)
  | ok b => exact hf b rfl

theorem FailsWith.bind {x : Except ε β} {f : β → Except ε γ} (hx : FailsWith q x)
    (hf : ∀ b, FailsWith q (f b)) : FailsWith q (x >>= f) :=
  hx.bind_of_ok fun b _ => hf b

theorem FailsWith.ite {p : Prop} [Decidable p] {x y : Except ε β} (hx : FailsWith q x)
    (hy : FailsWith q y) : FailsWith q (if p then x else y) := by
  by_cases h : p
  · rwa [if_pos h]
  · rwa [if_neg h]

theorem FailsWith.mapError {r : ε' → Prop} {x : Except ε β} {f : ε → ε'} (hx : FailsWith q x)
    (hf : ∀ e, q e → r (f e)) : FailsWith r (x.mapError f) := by
  cases x with
  | error e => exact failsWith_error (hf e (hx e rfl))
  | ok b => exact failsWith_ok b

theorem FailsWith.mapM_of_mem {f : ι → Except ε β} {xs : List ι} (h : ∀ x ∈ xs, FailsWith q (f x)) :
    FailsWith q (xs.mapM f) := by
  induction xs with
  | nil => exact failsWith_ok []
  | cons x xs ih =>
    obtain ⟨hx, hxs⟩ := List.forall_mem_cons.mp h
    rw [List.mapM_cons]
    exact hx.bind fun b => (ih hxs).bind fun bs => failsWith_ok (b :: bs)

theorem FailsWith.mapM {f : ι → Except ε β} (h : ∀ x, FailsWith q (f x)) (xs : List ι) :
    FailsWith q (xs.mapM f) :=
  mapM_of_mem fun x _ => h x

theorem FailsWith.filterM_of_mem {f : ι → Except ε Bool} {xs : List ι}
    (h : ∀ x ∈ xs, FailsWith q (f x)) : FailsWith q (xs.filterM f) := by
  have hpicked : ∀ acc, FailsWith q (List.filterAuxM f xs acc) := by
    induction xs with
    | nil => exact fun acc => failsWith_ok acc
    | cons x xs ih =>
      obtain ⟨hx, hxs⟩ := List.forall_mem_cons.mp h
      exact fun acc => hx.bind fun b => ih hxs _
  exact (hpicked []).bind fun picked => failsWith_ok picked.reverse

theorem FailsWith.forM {f : ι → Except ε Unit} (h : ∀ x, FailsWith q (f x)) (xs : List ι) :
    FailsWith q (xs.forM f) := by
  induction xs with
  | nil => exact failsWith_ok ()
  | cons x xs ih => exact (h x).bind fun _ => ih

/-! ## Steps that come to the same -/

/-- The computations come to the same, or fail both, however differently. -/
def Same (x y : Except ε β) : Prop := ∀ b, x = .ok b ↔ y = .ok b

theorem Same.refl (x : Except ε β) : Same x x := fun _ => Iff.rfl

theorem same_error (e e' : ε) : Same (.error e : Except ε β) (.error e') := by
  intro b
  simp

theorem Same.symm {x y : Except ε β} (h : Same x y) : Same y x := fun b => (h b).symm

theorem Same.bind {x y : Except ε β} {f g : β → Except ε γ} (h : Same x y)
    (hf : ∀ b, Same (f b) (g b)) : Same (x >>= f) (y >>= g) := by
  intro c
  rw [bind_eq_ok, bind_eq_ok]
  exact exists_congr fun b => and_congr (h b) (hf b c)

theorem Same.mapError {x y : Except ε β} (h : Same x y) (f : ε → ε') :
    Same (x.mapError f) (y.mapError f) := by
  intro b
  rw [mapError_eq_ok, mapError_eq_ok]
  exact h b

theorem Same.mapM {κ : Type} {xs : List ι} {ys : List κ} {f : ι → Except ε β} {g : κ → Except ε β}
    (h : List.Forall₂ (fun x y => Same (f x) (g y)) xs ys) : Same (xs.mapM f) (ys.mapM g) := by
  induction h with
  | nil => exact Same.refl _
  | cons hxy _ ih =>
    rw [List.mapM_cons, List.mapM_cons]
    exact hxy.bind fun b => ih.bind fun bs => Same.refl _

end Dispatch.Checked
