import Dispatch.Run.Slots

/-! # Callers that share solver slots

* `SolverStage`, `CallStage`: how far a solver has come, and how far the call that has it started.
* `CallEvent`: what may happen to a call.
* `SlotUse`: what an event does with the slots.
* `Callers`: the slots and the stages of all calls.
* `Callers.after?`: the calls after an event; none if the event cannot happen.
* `Callers.Reaches`: what the calls can come to, whatever the order of the events, together with
  the log of what each did with the slots.

A call holds its slot from the moment it takes one; with the start of its solver the slot passes to
the solver, which keeps it until it ends, whether somebody waits for the reply or not.
-/

namespace Dispatch
set_option autoImplicit false

inductive SolverStage where
  | working
  /-- Its reply is out, and it is about to end. -/
  | replied
  /-- It is about to end without a reply. -/
  | dying
  | ended
deriving DecidableEq, Repr

inductive CallStage where
  /-- For a free slot. -/
  | waiting
  /-- It has a slot, and no solver yet. -/
  | holding
  /-- No slot came free in time. -/
  | refused
  /-- The solver could not be started. -/
  | unstarted
  /-- With whether the caller still waits for the reply. -/
  | started (attended : Bool) (solver : SolverStage)
deriving DecidableEq, Repr

namespace CallStage

/-- It has a solver that has not ended. -/
def isLive : CallStage → Bool
  | started _ solver => solver != .ended
  | _ => false

def holdsSlot (s : CallStage) : Bool := s == holding || s.isLive

/-- The caller has no answer yet. -/
def isPending : CallStage → Bool
  | waiting | holding | started true _ => true
  | _ => false

/-- It took a slot at some time. -/
def hadSlot : CallStage → Bool
  | waiting | refused => false
  | _ => true

theorem holdsSlot_of_isLive {s : CallStage} (h : s.isLive = true) : s.holdsSlot = true := by
  simp [holdsSlot, h]

theorem hadSlot_of_holdsSlot {s : CallStage} (h : s.holdsSlot = true) : s.hadSlot = true := by
  cases s <;> first | rfl | cases h

/-- Between taking its slot and starting its solver a call has no answer. -/
theorem isLive_or_isPending {s : CallStage} (h : s.holdsSlot = true) :
    s.isLive = true ∨ s.isPending = true := by
  simp only [holdsSlot, Bool.or_eq_true, beq_iff_eq] at h
  rcases h with rfl | h
  · exact .inr rfl
  · exact .inl h

end CallStage

inductive CallEvent where
  | takeSlot
  | giveUp
  | start
  | failToStart
  | reply
  | die
  /-- The solver ends. -/
  | finish
  /-- The caller sees the reply, or that there will be none. -/
  | read
  | abandon
deriving DecidableEq, Repr

inductive SlotUse where
  | keep
  /-- A slot is looked for, and none is free. -/
  | lack
  | take
  | giveBack
deriving DecidableEq, Repr

/-- The slots after a use of them; none if they do not allow it. -/
def SlotUse.after? : SlotUse → Slots → Option Slots
  | keep, s => some s
  | lack, s => if s.hasFree then none else some s
  | take, s => s.acquire?
  | giveBack, s => s.release?

/-- The stage after an event, and what the event does with the slots. -/
def CallStage.after? : CallStage → CallEvent → Option (CallStage × SlotUse)
  | waiting, .takeSlot => some (holding, .take)
  | waiting, .giveUp => some (refused, .lack)
  | holding, .start => some (started true .working, .keep)
  | holding, .failToStart => some (unstarted, .giveBack)
  | started attended .working, .reply => some (started attended .replied, .keep)
  | started attended .working, .die => some (started attended .dying, .keep)
  | started attended .replied, .finish | started attended .dying, .finish =>
    some (started attended .ended, .giveBack)
  | started true .replied, .read => some (started false .replied, .keep)
  | started true .dying, .read => some (started false .dying, .keep)
  | started true .ended, .read => some (started false .ended, .keep)
  | started true solver, .abandon => some (started false solver, .keep)
  | _, _ => none

structure Callers where
  slots : Slots
  stages : List CallStage
deriving DecidableEq, Repr

namespace Callers

/-- Before the first call. -/
def ofSlots (slots : Slots) : Callers := ⟨slots, []⟩

def live (c : Callers) : Nat := c.stages.countP CallStage.isLive

def holders (c : Callers) : Nat := c.stages.countP CallStage.holdsSlot

/-- One more call. -/
def call (c : Callers) : Callers := ⟨c.slots, c.stages ++ [.waiting]⟩

def after? (c : Callers) (i : Nat) (event : CallEvent) : Option (SlotUse × Callers) := do
  let stage ← c.stages[i]?
  let (next, slotUse) ← stage.after? event
  let slots ← slotUse.after? c.slots
  return (slotUse, ⟨slots, c.stages.set i next⟩)

theorem after?_eq_some_iff {c d : Callers} {i : Nat} {event : CallEvent} {slotUse : SlotUse} :
    c.after? i event = some (slotUse, d) ↔
      ∃ stage next slots, c.stages[i]? = some stage ∧ stage.after? event = some (next, slotUse) ∧
        slotUse.after? c.slots = some slots ∧ d = ⟨slots, c.stages.set i next⟩ := by
  simp only [after?, Option.bind_eq_bind, Option.bind_eq_some_iff, Option.pure_def,
    Option.some.injEq, Prod.exists, Prod.mk.injEq]
  grind

/-- The log names the call of every event and what the event did with the slots. -/
inductive Reaches (start : Callers) : List (Nat × SlotUse) → Callers → Prop where
  | refl : Reaches start [] start
  | call {log : List (Nat × SlotUse)} {c : Callers} :
      Reaches start log c → Reaches start log c.call
  | step {log : List (Nat × SlotUse)} {c d : Callers} {slotUse : SlotUse} (i : Nat)
      (event : CallEvent) : Reaches start log c → c.after? i event = some (slotUse, d) →
      Reaches start (log ++ [(i, slotUse)]) d

theorem live_le_holders (c : Callers) : c.live ≤ c.holders :=
  List.countP_mono_left fun _ _ h => CallStage.holdsSlot_of_isLive h

end Callers

end Dispatch
