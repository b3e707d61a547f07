import Dispatch.Program.Basic

/-! # Tableaus

* `Box`: a lower and an upper bound for each variable.
* `Tableau`: some variables, the basic ones, written as sums of multiples of the others, together with
  a value for every variable.
* `Tableau.ofProgram`: the tableau whose basic variables are the left sides of the rows.
* `Tableau.within`: move the variables that are not basic into their bounds.
* `Tableau.exchange`: a basic variable and one that is not change places.

The variables of a program are its columns, followed by one variable per row that stands for the left
side of the row. A row is then nothing but a bound on its variable.
-/

namespace Dispatch
set_option autoImplicit false

variable {α : Type} [Scalar α]
open Scalar

/-! ## Bounds -/

structure Box (α : Type) where
  lower : Array α
  upper : Array α
deriving Repr

namespace Box

def ofProgram (p : Program α) : Box α where
  lower := p.columns.map Column.lower ++
    p.rows.map fun r => if r.equality then r.rhs else negInfinity
  upper := p.columns.map Column.upper ++ p.rows.map Row.rhs

def lowerAt (b : Box α) (v : Nat) : α := b.lower.getD v negInfinity

def upperAt (b : Box α) (v : Nat) : α := b.upper.getD v infinity

def clamp (b : Box α) (v : Nat) (x : α) : α :=
  if lt x (b.lowerAt v) then b.lowerAt v else if lt (b.upperAt v) x then b.upperAt v else x

/-- Leave a variable no choice. -/
def fix (b : Box α) (v : Nat) (x : α) : Box α :=
  ⟨b.lower.setIfInBounds v x, b.upper.setIfInBounds v x⟩

end Box

/-! ## Tableaus -/

structure Tableau (α : Type) where
  /-- For each basic variable the multiples of the variables that are not basic. -/
  rows : Array (Array α)
  basic : Array Nat
  nonbasic : Array Nat
  values : Array α
deriving Repr

namespace Tableau

def value (t : Tableau α) (v : Nat) : α := t.values.getD v 0

def denseRow (width : Nat) (terms : List (Nat × α)) : Array α :=
  terms.foldl (fun a (c, x) => a.modify c (· + x)) (Array.replicate width 0)

def ofProgram (p : Program α) : Tableau α where
  rows := p.rows.map fun r => denseRow p.columns.size r.terms
  basic := (Array.range p.rows.size).map (p.columns.size + ·)
  nonbasic := Array.range p.columns.size
  values := Array.replicate (p.columns.size + p.rows.size) 0

def rowValue (t : Tableau α) (row : Array α) : α :=
  (row.zip t.nonbasic).foldl (fun sum (a, v) => sum + a * t.value v) 0

def balanced (t : Tableau α) : Tableau α :=
  { t with
    values := (t.rows.zip t.basic).foldl (fun vs (row, v) => vs.setIfInBounds v (t.rowValue row))
      t.values }

/-- Move the variables that are not basic into their bounds, and let the basic ones follow. -/
def within (t : Tableau α) (box : Box α) : Tableau α :=
  balanced { t with
    values := t.nonbasic.foldl (fun vs v => vs.setIfInBounds v (box.clamp v (t.value v))) t.values }

/-! ## Exchanging variables -/

/-- Magnitudes below this one are left over from rounding. -/
def dust : α := lit 1 12

def tidy (x : α) : α := if lt (abs x) dust then 0 else x

/-- A row solved for the variable in place `k`. -/
@[specialize]
def solveFor (row : Array α) (k : Nat) : Array α :=
  let a := row.getD k 0
  (row.map fun x => -(x / a)).setIfInBounds k (1 / a)

/-- Put the sum for the variable in place `k` into a row that uses the variable. -/
@[specialize]
def substitute (row : Array α) (k : Nat) (sum : Array α) : Array α :=
  let a := row.getD k 0
  if Scalar.eq a 0 then row
  else Array.zipWith (fun x y => if Scalar.eq y 0 then x else tidy (x + a * y))
    (row.setIfInBounds k 0) sum

/-- The basic variable of row `i` and the variable in place `k` change places. -/
def exchange (t : Tableau α) (i k : Nat) : Tableau α :=
  let sum := solveFor (t.rows.getD i #[]) k
  { t with
    rows := (t.rows.map fun row => substitute row k sum).setIfInBounds i sum
    basic := t.basic.setIfInBounds i (t.nonbasic.getD k 0)
    nonbasic := t.nonbasic.setIfInBounds k (t.basic.getD i 0) }

end Tableau

end Dispatch
