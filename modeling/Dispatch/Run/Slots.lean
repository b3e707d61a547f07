/-! # Solver slots

* `Slots`: how many solvers may be at work at once, and how many are.
* `Slots.acquire?`, `Slots.release?`: taking a free slot, and giving one back.
-/

namespace Dispatch
set_option autoImplicit false

structure Slots where
  /-- None for any number. -/
  capacity : Option Nat
  busy : Nat
deriving DecidableEq, Repr

namespace Slots

def ofCapacity (n : Nat) : Slots := ⟨some (max n 1), 0⟩

def unlimited : Slots := ⟨none, 0⟩

def hasFree (s : Slots) : Bool :=
  match s.capacity with
  | none => true
  | some n => s.busy < n

def acquire? (s : Slots) : Option Slots :=
  if s.hasFree then some { s with busy := s.busy + 1 } else none

def release? (s : Slots) : Option Slots :=
  if s.busy = 0 then none else some { s with busy := s.busy - 1 }

def release (s : Slots) : Slots := { s with busy := s.busy - 1 }

/-- The busy slots do not outnumber the capacity. -/
def Within (s : Slots) : Prop := ∀ n, s.capacity = some n → s.busy ≤ n

theorem acquire?_within {s t : Slots} (h : s.acquire? = some t) : t.Within := by
  intro n hn
  simp only [acquire?, Option.ite_none_right_eq_some, Option.some.injEq] at h
  obtain ⟨hfree, rfl⟩ := h
  have hcap : s.capacity = some n := hn
  simp only [hasFree, hcap, decide_eq_true_eq] at hfree
  exact hfree

end Slots

end Dispatch
