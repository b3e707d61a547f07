import Dispatch.Run.Watch
import Dispatch.Solver.Kind
import Dispatch.Solver.Simplex

/-! # Branch and bound

* `Branch`: a part of the choices for the binary columns, still to be searched.
* `Search`: the program without its integrality, and which columns are binary.
* `Search.run`: goes through the branches, and keeps the best point found so far.
* `exactSolver`: the built-in solver.

A branch in which the program without integrality costs no less than the best point so far cannot
hold a better one. A point of the others in which some binary column lies between 0 and 1 is cut off
by the two branches in which the column is fixed.
-/

namespace Dispatch
set_option autoImplicit false

variable {α : Type} [Scalar α]
open Scalar

structure Branch (α : Type) where
  box : Box α
  tableau : Tableau α
deriving Repr

structure Search (α : Type) where
  objective : Array α
  binaries : List Nat
  moves : Nat
deriving Repr

structure Incumbent (α : Type) where
  cost : α
  values : Array α
deriving Repr

namespace Search

/-- Numbers this close count as equal. -/
def margin : α := lit 1 9

def fraction (t : Tableau α) (v : Nat) : α := minNum (abs (t.value v)) (abs (1 - t.value v))

def undecided? (s : Search α) (t : Tableau α) : Option Nat :=
  let consider (best : Option Nat) (v : Nat) : Option Nat :=
    if lt (fraction t v) margin then best
    else match best with
      | none => some v
      | some w => if lt (fraction t w) (fraction t v) then some v else best
  s.binaries.foldl consider none

def price (s : Search α) (v : Nat) : α := s.objective.getD v 0

def cost (s : Search α) (t : Tableau α) : α :=
  (s.objective.zip t.values).foldl (fun sum (c, x) => sum + c * x) 0

/-- Whether points of this cost cannot beat the best so far. -/
def beaten (best : Option (Incumbent α)) (cost : α) : Bool :=
  match best with
  | none => false
  | some b => le (b.cost - lit 1 11 * (1 + abs b.cost)) cost

/-- Both choices for a column, the nearer one first. -/
def split (b : Branch α) (t : Tableau α) (v : Nat) : List (Branch α) :=
  let zero : Branch α := ⟨b.box.fix v 0, t⟩
  let one : Branch α := ⟨b.box.fix v 1, t⟩
  if lt (t.value v) (lit 5 1) then [zero, one] else [one, zero]

/-- At most `fuel` branches. Without an answer they did not suffice. -/
def run (s : Search α) : Nat → List (Branch α) → Option (Incumbent α) →
    Option (Except (SolveFault α) (Array α))
  | _, [], none => some (.error .infeasible)
  | _, [], some best => some (.ok best.values)
  | 0, _ :: _, _ => none
  | fuel + 1, b :: rest, best =>
    match Tableau.minimise b.box s.price (s.moves / 2) s.moves (b.tableau.within b.box) with
    | .infeasible => s.run fuel rest best
    | .unbounded => some (.error .unbounded)
    | .unfinished => none
    | .optimal t =>
      if beaten best (s.cost t) then s.run fuel rest best
      else match s.undecided? t with
        | none => s.run fuel rest (some ⟨s.cost t, t.values⟩)
        | some v => s.run fuel (split b t v ++ rest) best

def binariesOf (p : Program α) : List Nat :=
  p.columns.toList.zipIdx.filterMap fun (c, i) => if c.integer then some i else none

def ofProgram (p : Program α) : Search α where
  objective := Tableau.denseRow p.columns.size p.objective.terms
  binaries := binariesOf p
  moves := 1000 + 50 * (p.columns.size + p.rows.size)

end Search

def branchLimit : Nat := 200000

/-- A cheapest point that satisfies the program, if the search comes to an end. -/
def Program.solve? (p : Program α) : Option (Except (SolveFault α) (Array α)) :=
  (Search.ofProgram p).run branchLimit [⟨.ofProgram p, .ofProgram p⟩] none

/-- The built-in solver. A search that does not come to an end has exceeded its budget. -/
def exactSolver : Solver α Unit where
  name := SolverKind.microlp.backendName
  solve program budget :=
    let result := match program.solve? with
      | none => .error (.timeout budget)
      | some (.error fault) => .error fault
      | some (.ok values) => .ok fun i => if i < program.columns.size then values[i]? else none
    pure ⟨.zero, some result⟩

end Dispatch
