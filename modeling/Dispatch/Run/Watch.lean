import Dispatch.Run.Slots
import Dispatch.Plan
import Dispatch.Warning

/-! # Watching solvers

* `Solver`: something that is handed a program and a budget, and replies after some time, or dies.
* `Watch`: the solver slots, the time, and when each solve that was given up will end.
* `Watch.deadline?`: the end of a wait, if the clock shows that time.
* `Watch.awaitSlot`: waiting for a slot.
* `World`: the watch together with the state of the solver and the warnings so far.
* `solveWatched`: one solve, given up when it exceeds its budget and some grace.

A solve that is given up keeps its slot until it ends, so that the slots bound the solvers at work
and not only those that somebody waits for. A budget whose grace makes it too long, or whose deadline no
clock shows, crashes the solve before it looks for a slot.
-/

namespace Dispatch
set_option autoImplicit false

/-! ## Solvers -/

structure Reply (α : Type) where
  takes : Span
  /-- None if it dies. -/
  result : Option (Except (SolveFault α) (Assignment α))

/-- A solver with a memory of its own. -/
structure Solver (α σ : Type) where
  name : String
  solve : Program α → Span → StateM σ (Reply α)

/-! ## The watch -/

structure Watch where
  slots : Slots
  now : Span
  /-- When the solves end that nobody waits for any more. -/
  abandoned : List Span
deriving DecidableEq, Repr

namespace Watch

def ofSlots (slots : Slots) : Watch := ⟨slots, .zero, []⟩

/-- Let time pass; what ends in the meantime gives its slot back. -/
def advance (w : Watch) (t : Span) : Watch :=
  let ended := w.abandoned.filter (· ≤ t)
  { slots := ended.foldl (fun s _ => s.release) w.slots
    now := t
    abandoned := w.abandoned.filter fun e => !(e ≤ t) }

def firstEnd? (w : Watch) : Option Span :=
  match w.abandoned with
  | [] => none
  | e :: rest => some (rest.foldl (fun a b => if b < a then b else a) e)

/-- The first time that no clock shows: the seconds of a clock are signed 64-bit words. -/
def clockEnd : Span := Span.ofSeconds 9223372036854775808

/-- The end of a wait that begins now. -/
def deadline? (w : Watch) (wait : Span) : Option Span :=
  if w.now + wait < clockEnd then some (w.now + wait) else none

/-- Take a slot, waiting for one if need be, but not after the deadline. -/
def acquire (w : Watch) (deadline : Span) : Option Watch × Watch :=
  match w.slots.acquire? with
  | some slots => (some { w with slots := slots }, w)
  | none =>
    let w' := match w.firstEnd? with
      | some e => if e ≤ deadline then w.advance e else w.advance deadline
      | none => w.advance deadline
    (w'.slots.acquire?.map fun slots => { w' with slots := slots }, w')

/-- Wait for a slot as long as for a reply. None for a wait that is too long or has no deadline. -/
def awaitSlot (w : Watch) (budget grace : Span) : Option (Option Watch × Watch) :=
  match budget.plus? grace with
  | none => none
  | some patience => (w.deadline? patience).map w.acquire

/-- Whether a reply comes after the patience is over. A wait that has no deadline does not end. -/
def isLate (w : Watch) (patience takes : Span) : Bool :=
  match w.deadline? patience with
  | none => false
  | some deadline => deadline < w.now + takes

theorem awaitSlot_eq_none_iff {w : Watch} {budget grace : Span} :
    w.awaitSlot budget grace = none ↔
      Span.longest ≤ budget + grace ∨ clockEnd ≤ w.now + (budget + grace) := by
  rw [awaitSlot, Span.plus?, Span.le_iff, Span.le_iff]
  by_cases h : budget + grace < Span.longest
  · rw [if_pos h]
    rw [Span.lt_iff] at h
    simp only [deadline?, Option.map_eq_none_iff, ite_eq_right_iff, reduceCtorEq, imp_false,
      Span.lt_iff]
    omega
  · rw [if_neg h]
    rw [Span.lt_iff] at h
    simp only [true_iff]
    omega

theorem isLate_iff {w : Watch} {patience takes : Span} :
    w.isLate patience takes = true ↔ w.now + patience < clockEnd ∧ patience < takes := by
  rw [isLate, deadline?]
  by_cases h : w.now + patience < clockEnd
  · rw [if_pos h]
    simp only [decide_eq_true_eq, h, true_and]
    rw [Span.lt_iff, Span.lt_iff, Span.nanos_add, Span.nanos_add]
    omega
  · simp [h]

def settle (w : Watch) : Watch :=
  w.abandoned.foldl (fun w e => if w.now < e then w.advance e else w.advance w.now) w

end Watch

/-! ## One solve -/

structure World (σ : Type) where
  watch : Watch
  solver : σ
  warnings : List Warning

namespace World
variable {σ : Type}

def ofSlots (slots : Slots) (solver : σ) : World σ := ⟨.ofSlots slots, solver, []⟩

def warn (w : Warning) : StateM (World σ) Unit :=
  modify fun world => { world with warnings := world.warnings ++ [w] }

def setWatch (w : Watch) : StateM (World σ) Unit :=
  modify fun world => { world with watch := w }

end World

variable {α σ : Type}

def askSolver (solver : Solver α σ) (program : Program α) (budget : Span) :
    StateM (World σ) (Reply α) :=
  modifyGet fun world =>
    let (reply, memory) := solver.solve program budget world.solver
    (reply, { world with solver := memory })

def solveWatched (solver : Solver α σ) (program : Program α) (budget grace : Span) :
    StateM (World σ) (Checked α (Except (SolveFault α) (Assignment α))) := do
  let patience := budget + grace
  let watch := (← get).watch
  match watch.awaitSlot budget grace with
  | none => return .error .unrepresentable
  | some (none, later) => do
    World.setWatch later
    return .ok (.error (.failed (.slotsBusy (later.slots.capacity.getD 0) patience)))
  | some (some held, _) => do
    let reply ← askSolver solver program budget
    if held.isLate patience reply.takes then do
      let given := held.advance (held.now + patience)
      World.setWatch { given with abandoned := given.abandoned ++ [held.now + reply.takes] }
      World.warn .solverAbandoned
      return .ok (.error (.timeout budget))
    else do
      let done := held.advance (held.now + reply.takes)
      World.setWatch { done with slots := done.slots.release }
      return .ok (reply.result.getD (.error (.failed .died)))

end Dispatch
