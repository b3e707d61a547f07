import Dispatch.Scalar

/-! # Mixed-integer programs

* `LinExpr`: a constant plus multiples of columns, one coefficient per column, in the order of the
  columns.
* `Column`, `Row`, `Program`: variables with bounds, linear conditions on them, and a linear
  objective to minimise. A program knows how many of its columns are binary.
* `Row.holds`, `Column.holds`, `Program.feasible`: what it means for values to fit.
-/

namespace Dispatch
set_option autoImplicit false

variable {α : Type} [Scalar α]

/-! ## Linear expressions -/

/-- Add a multiple of a column to terms in ascending order of their columns. -/
def addTerm (column : Nat) (x : α) : List (Nat × α) → List (Nat × α)
  | [] => [(column, x)]
  | (c, y) :: rest =>
    if column < c then (column, x) :: (c, y) :: rest
    else if column = c then (c, y + x) :: rest
    else (c, y) :: addTerm column x rest

structure LinExpr (α : Type) where
  terms : List (Nat × α)
  constant : α
deriving DecidableEq, Repr

namespace LinExpr

def const (x : α) : LinExpr α := ⟨[], x⟩

def term (x : α) (column : Nat) : LinExpr α := ⟨[(column, x)], 0⟩

def col (column : Nat) : LinExpr α := term 1 column

def add (e f : LinExpr α) : LinExpr α :=
  ⟨f.terms.foldl (fun ts (c, x) => addTerm c x ts) e.terms, e.constant + f.constant⟩

/-- Subtracting adds -1 times each term. -/
def sub (e f : LinExpr α) : LinExpr α :=
  ⟨f.terms.foldl (fun ts (c, x) => addTerm c (-1 * x) ts) e.terms, e.constant - f.constant⟩

def scale (e : LinExpr α) (k : α) : LinExpr α :=
  ⟨e.terms.map fun (c, x) => (c, x * k), e.constant * k⟩

def sum (es : List (LinExpr α)) : LinExpr α := es.foldl add (const 0)

instance : Add (LinExpr α) := ⟨add⟩

instance : Sub (LinExpr α) := ⟨sub⟩

def support (e : LinExpr α) : List (Nat × α) := e.terms.filter fun (_, x) => !Scalar.eq x 0

def valueOf (values : Nat → α) (terms : List (Nat × α)) : α :=
  Scalar.sum (terms.map fun (c, x) => x * values c)

def value (e : LinExpr α) (values : Nat → α) : α := valueOf values e.terms + e.constant

end LinExpr

/-! ## Programs -/

structure Column (α : Type) where
  name : String
  lower : α
  upper : α
  integer : Bool
deriving DecidableEq, Repr

/-- A condition that a sum of terms equals a number, or does not exceed it. -/
structure Row (α : Type) where
  terms : List (Nat × α)
  equality : Bool
  rhs : α
deriving DecidableEq, Repr

namespace Row

/-- All terms to the left, the constant to the right. -/
def ofExpr (e : LinExpr α) (equality : Bool) : Row α := ⟨e.support, equality, -e.constant⟩

def eq (left right : LinExpr α) : Row α := ofExpr (left - right) true

def le (left right : LinExpr α) : Row α := ofExpr (left - right) false

def ge (left right : LinExpr α) : Row α := ofExpr (right - left) false

def holds (r : Row α) (values : Nat → α) : Bool :=
  let v := LinExpr.valueOf values r.terms
  if r.equality then Scalar.eq v r.rhs else Scalar.le v r.rhs

end Row

namespace Column

def binary : Column α := ⟨"", 0, 1, true⟩

def holds (c : Column α) (v : α) : Bool :=
  Scalar.le c.lower v && Scalar.le v c.upper &&
    (!c.integer || Scalar.eq v 0 || Scalar.eq v 1)

end Column

structure Program (α : Type) where
  columns : Array (Column α)
  rows : Array (Row α)
  objective : LinExpr α
  integerCount : Nat
deriving Repr

namespace Program

def summary (p : Program α) : String :=
  "LinearProgram \x7b columns: " ++ toString p.columns.size ++ ", integer_columns: " ++
    toString p.integerCount ++ ", rows: " ++ toString p.rows.size ++ " \x7d"

def feasible (p : Program α) (values : Nat → α) : Bool :=
  p.columns.toList.zipIdx.all (fun (c, i) => c.holds (values i)) &&
    p.rows.toList.all fun r => r.holds values

end Program

end Dispatch
