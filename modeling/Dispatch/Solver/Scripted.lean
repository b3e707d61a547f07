import Dispatch.Run.Watch

/-! # A solver that follows a script

* `Cue`: what the solver does when it is called.
* `scripted`: a solver that takes its cues from a list, the last one over and over, and notes the
  budgets it was given.
-/

namespace Dispatch
set_option autoImplicit false

inductive Cue (α : Type) where
  | values (values : List (Option α))
  | fault (fault : SolveFault α)
  | die
  /-- Take this long, then find the program infeasible. -/
  | hang (time : Span)
deriving Repr

namespace Cue
variable {α : Type}

def reply : Cue α → Reply α
  | values vs => ⟨.zero, some (.ok fun i => (vs[i]?).join)⟩
  | fault f => ⟨.zero, some (.error f)⟩
  | die => ⟨.zero, none⟩
  | hang time => ⟨time, some (.error .infeasible)⟩

end Cue

structure Script (α : Type) where
  cues : List (Cue α)
  budgets : List Span
deriving Repr

namespace Script
variable {α : Type}

def ofCues (cues : List (Cue α)) : Script α := ⟨cues, []⟩

/-- The next cue; the last one stays. -/
def next (s : Script α) (budget : Span) : Cue α × Script α :=
  let budgets := s.budgets ++ [budget]
  match s.cues with
  | [] => (.die, { s with budgets := budgets })
  | [cue] => (cue, { s with budgets := budgets })
  | cue :: rest => (cue, ⟨rest, budgets⟩)

end Script

def scripted {α : Type} : Solver α (Script α) where
  name := "scripted"
  solve _ budget := modifyGet fun s =>
    let (cue, s) := s.next budget
    (cue.reply, s)

end Dispatch
