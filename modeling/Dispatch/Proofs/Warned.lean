import Dispatch.Proofs.Checked
import Dispatch.Warning

/-! # Computations that collect warnings

* `Warned.Yields`: a computation that comes to a result, whatever it warns of on the way.
* `Warned.FailsWith`: every failure of a computation is of one sort.
* `Warned.Same`: two computations come to the same with the same warnings, or fail both.

What yields a result does so by steps that yield theirs; the warnings never matter.
-/

namespace Dispatch.Warned
set_option autoImplicit false

variable {ε ε' β γ ι : Type}

/-- From some warnings on, the computation comes to `b`. -/
def Yields (m : Warned ε β) (b : β) : Prop :=
  ∃ ws ws' : List Warning, StateT.run (ExceptT.run m) ws = (.ok b, ws')

theorem yields_of_run {m : Warned ε β} {b : β} (h : m.run.1 = .ok b) : m.Yields b :=
  ⟨[], m.run.2, Prod.ext h rfl⟩

theorem yields_pure {b c : β} (h : Yields (pure b : Warned ε β) c) : b = c := by
  obtain ⟨ws, ws', h⟩ := h
  exact Except.ok.inj (Prod.ext_iff.mp h).1

theorem yields_pair {b b' : β} {c c' : γ} (h : Yields (pure (b, c) : Warned ε (β × γ)) (b', c')) :
    b' = b ∧ c' = c := by
  obtain ⟨hb, hc⟩ := Prod.ext_iff.mp (yields_pure h)
  exact ⟨hb.symm, hc.symm⟩

theorem lift_ok (b : β) : (lift (.ok b) : Warned ε β) = pure b := rfl

theorem adapt_pure (f : ε → ε') (b : β) : (ExceptT.adapt f (pure b) : Warned ε' β) = pure b := rfl

theorem yields_lift {r : Except ε β} {b : β} (h : Yields (lift r) b) : r = .ok b := by
  obtain ⟨ws, ws', h⟩ := h
  exact (Prod.ext_iff.mp h).1

theorem run_bind (m : Warned ε β) (f : β → Warned ε γ) (ws : List Warning) :
    StateT.run (ExceptT.run (m >>= f)) ws =
      match StateT.run (ExceptT.run m) ws with
      | (.ok b, ws₁) => StateT.run (ExceptT.run (f b)) ws₁
      | (.error e, ws₁) => (.error e, ws₁) := by
  rw [ExceptT.run_bind, StateT.run_bind]
  rcases hm : StateT.run (ExceptT.run m) ws with ⟨_ | b, ws₁⟩
  · rfl
  · rfl

/-- A chain ends well just when both of its parts do. -/
theorem run_bind_eq_ok {m : Warned ε β} {f : β → Warned ε γ} {ws ws' : List Warning} {c : γ} :
    StateT.run (ExceptT.run (m >>= f)) ws = (.ok c, ws') ↔
      ∃ b ws₁, StateT.run (ExceptT.run m) ws = (.ok b, ws₁) ∧
        StateT.run (ExceptT.run (f b)) ws₁ = (.ok c, ws') := by
  rw [run_bind]
  rcases hm : StateT.run (ExceptT.run m) ws with ⟨e | b, ws₁⟩
  · constructor
    · intro h
      cases h
    · rintro ⟨b, ws₂, h, -⟩
      cases h
  · constructor
    · intro h
      exact ⟨b, ws₁, rfl, h⟩
    · rintro ⟨b', ws₂, h, hf⟩
      cases h
      exact hf

theorem yields_bind {m : Warned ε β} {f : β → Warned ε γ} {c : γ} (h : Yields (m >>= f) c) :
    ∃ b, m.Yields b ∧ (f b).Yields c := by
  obtain ⟨ws, ws', h⟩ := h
  obtain ⟨b, ws₁, hm, hf⟩ := run_bind_eq_ok.mp h
  exact ⟨b, ⟨ws, ws₁, hm⟩, ⟨ws₁, ws', hf⟩⟩

theorem run_adapt_eq_ok {f : ε → ε'} {m : Warned ε β} {ws ws' : List Warning} {b : β} :
    StateT.run (ExceptT.run (ExceptT.adapt f m)) ws = (.ok b, ws') ↔
      StateT.run (ExceptT.run m) ws = (.ok b, ws') := by
  have hrun : StateT.run (ExceptT.run (ExceptT.adapt f m)) ws =
      ((StateT.run (ExceptT.run m) ws).1.mapError f, (StateT.run (ExceptT.run m) ws).2) := rfl
  rw [hrun, Prod.ext_iff, Prod.ext_iff, Checked.mapError_eq_ok]

theorem yields_adapt {f : ε → ε'} {m : Warned ε β} {b : β} (h : Yields (ExceptT.adapt f m) b) :
    m.Yields b := by
  obtain ⟨ws, ws', h⟩ := h
  exact ⟨ws, ws', run_adapt_eq_ok.mp h⟩

theorem yields_mapM {f : ι → Warned ε β} {xs : List ι} {bs : List β} (h : Yields (xs.mapM f) bs) :
    List.Forall₂ (fun x b => (f x).Yields b) xs bs := by
  induction xs generalizing bs with
  | nil =>
    rw [List.mapM_nil] at h
    rw [← yields_pure h]
    exact .nil
  | cons x xs ih =>
    rw [List.mapM_cons] at h
    obtain ⟨b, hb, h⟩ := yields_bind h
    obtain ⟨bs', hbs, h⟩ := yields_bind h
    rw [← yields_pure h]
    exact .cons hb (ih hbs)

/-! ## How steps fail -/

/-- Whenever the computation fails, it does so with such an error. -/
def FailsWith (q : ε → Prop) (m : Warned ε β) : Prop :=
  ∀ ws e ws', StateT.run (ExceptT.run m) ws = (.error e, ws') → q e

section FailsWith
variable {q : ε → Prop}

theorem failsWith_pure (b : β) : FailsWith q (pure b : Warned ε β) := by
  intro ws e ws' h
  cases h

theorem failsWith_warn (w : Warning) : FailsWith q (warn w) := by
  intro ws e ws' h
  cases h

theorem failsWith_lift {x : Except ε β} (h : Checked.FailsWith q x) : FailsWith q (lift x) :=
  fun _ e _ hrun => h e (Prod.ext_iff.mp hrun).1

theorem FailsWith.bind {m : Warned ε β} {f : β → Warned ε γ} (hm : FailsWith q m)
    (hf : ∀ b, FailsWith q (f b)) : FailsWith q (m >>= f) := by
  intro ws e ws' h
  rw [run_bind] at h
  rcases hrun : StateT.run (ExceptT.run m) ws with ⟨e' | b, ws₁⟩
  · rw [hrun] at h
    cases h
    exact hm ws e _ hrun
  · rw [hrun] at h
    exact hf b ws₁ e ws' h

/-- What has been read is known further on. -/
theorem failsWith_lift_bind {x : Except ε β} {f : β → Warned ε γ} (hx : Checked.FailsWith q x)
    (hf : ∀ b, x = .ok b → FailsWith q (f b)) : FailsWith q (lift x >>= f) := by
  intro ws e ws' h
  rw [run_bind] at h
  cases x with
  | error e' =>
    cases h
    exact hx e rfl
  | ok b => exact hf b rfl ws e ws' h

theorem FailsWith.adapt {r : ε' → Prop} {m : Warned ε β} {f : ε → ε'} (hm : FailsWith q m)
    (hf : ∀ e, q e → r (f e)) : FailsWith r (ExceptT.adapt f m) := by
  intro ws e ws' h
  have hrun : StateT.run (ExceptT.run (ExceptT.adapt f m)) ws =
      ((StateT.run (ExceptT.run m) ws).1.mapError f, (StateT.run (ExceptT.run m) ws).2) := rfl
  rw [hrun] at h
  rcases hm' : StateT.run (ExceptT.run m) ws with ⟨e' | b, ws₁⟩
  · rw [hm'] at h
    cases h
    exact hf e' (hm ws e' ws₁ hm')
  · rw [hm'] at h
    cases h

theorem FailsWith.mapM_of_mem {f : ι → Warned ε β} {xs : List ι} (h : ∀ x ∈ xs, FailsWith q (f x)) :
    FailsWith q (xs.mapM f) := by
  induction xs with
  | nil => exact failsWith_pure []
  | cons x xs ih =>
    obtain ⟨hx, hxs⟩ := List.forall_mem_cons.mp h
    rw [List.mapM_cons]
    exact hx.bind fun b => (ih hxs).bind fun bs => failsWith_pure (b :: bs)

end FailsWith

/-! ## Computations that come to the same -/

/-- The computations come to the same with the same warnings, or fail both. -/
def Same (m n : Warned ε β) : Prop :=
  ∀ ws b ws', StateT.run (ExceptT.run m) ws = (.ok b, ws') ↔
    StateT.run (ExceptT.run n) ws = (.ok b, ws')

theorem Same.refl (m : Warned ε β) : Same m m := fun _ _ _ => Iff.rfl

theorem Same.lift {x y : Except ε β} (h : Checked.Same x y) :
    Same (Warned.lift x) (Warned.lift y) := by
  intro ws b ws'
  show (x, ws) = _ ↔ (y, ws) = _
  rw [Prod.mk.injEq, Prod.mk.injEq, h b]

theorem Same.bind {m n : Warned ε β} {f g : β → Warned ε γ} (h : Same m n)
    (hf : ∀ b, Same (f b) (g b)) : Same (m >>= f) (n >>= g) := by
  intro ws c ws'
  rw [run_bind_eq_ok, run_bind_eq_ok]
  exact exists_congr fun b => exists_congr fun ws₁ => and_congr (h ws b ws₁) (hf b ws₁ c ws')

theorem Same.adapt {m n : Warned ε β} (h : Same m n) (f : ε → ε') :
    Same (ExceptT.adapt f m) (ExceptT.adapt f n) := by
  intro ws b ws'
  rw [run_adapt_eq_ok, run_adapt_eq_ok]
  exact h ws b ws'

theorem Same.mapM {κ : Type} {xs : List ι} {ys : List κ} {f : ι → Warned ε β} {g : κ → Warned ε β}
    (h : List.Forall₂ (fun x y => Same (f x) (g y)) xs ys) : Same (xs.mapM f) (ys.mapM g) := by
  induction h with
  | nil => exact Same.refl _
  | cons hxy _ ih =>
    rw [List.mapM_cons, List.mapM_cons]
    exact hxy.bind fun b => ih.bind fun bs => Same.refl _

end Dispatch.Warned
