import Dispatch.Solver.Tableau

/-! # The simplex method

* `Slopes`: how fast what is to be reduced grows with each variable that is not basic.
* `Move`: one of these variables goes up or down until something stops it.
* `Tableau.stop`: what stops it first: a bound of its own, or one of a basic variable.
* `Tableau.minimise`: moves until none helps.

What is to be reduced is, as long as some variable misses its bounds, the sum of the distances to the
bounds that are missed, and after that the objective.
-/

namespace Dispatch
set_option autoImplicit false

variable {α : Type} [Scalar α]
open Scalar

/-! ## Bounds with a margin for rounding -/

namespace Box

def slack (bound : α) : α := lit 1 9 * (1 + abs bound)

def below (b : Box α) (v : Nat) (x : α) : Bool :=
  isFinite (b.lowerAt v) && lt x (b.lowerAt v - slack (b.lowerAt v))

def above (b : Box α) (v : Nat) (x : α) : Bool :=
  isFinite (b.upperAt v) && lt (b.upperAt v + slack (b.upperAt v)) x

end Box

namespace Tableau

def inside (t : Tableau α) (box : Box α) : Bool :=
  t.basic.all fun v => !(box.below v (t.value v)) && !(box.above v (t.value v))

/-! ## Slopes -/

/-- How fast the distance of a variable to its bounds grows with the variable. -/
def distanceSlope (t : Tableau α) (box : Box α) (v : Nat) : α :=
  if box.below v (t.value v) then -1 else if box.above v (t.value v) then 1 else 0

/-- The slope in each variable that is not basic, from the slopes in all variables. The basic ones
follow the others. -/
@[specialize]
def slopes (t : Tableau α) (direct : Nat → α) (through : Nat → α) : Array α :=
  (t.rows.zip t.basic).foldl
    (fun sums (row, v) =>
      let slope := through v
      if Scalar.eq slope 0 then sums
      else Array.zipWith (fun s a => if Scalar.eq a 0 then s else s + slope * a) sums row)
    (t.nonbasic.map direct)

/-! ## Choosing a variable -/

/-- The variable in a place goes up or down. -/
structure Move where
  place : Nat
  up : Bool
deriving DecidableEq, Repr

/-- Slopes below this magnitude do not count. -/
def flat : α := lit 1 11

/-- The move in a place that reduces, if its variable has room. -/
def moveAt? (t : Tableau α) (box : Box α) (slope : α) (place v : Nat) : Option Move :=
  let x := t.value v
  if lt slope (-flat) && lt x (box.upperAt v) then some ⟨place, true⟩
  else if lt flat slope && lt (box.lowerAt v) x then some ⟨place, false⟩
  else none

/-- The steepest move that reduces, or with `careful` the first one in the order of the variables. -/
def choose? (t : Tableau α) (box : Box α) (slopes : Array α) (careful : Bool) : Option Move :=
  let better (slope : α) (v : Nat) (old : Option (Move × α × Nat)) : Bool :=
    match old with
    | none => true
    | some (_, best, w) => if careful then v < w else lt best (abs slope)
  let consider (best : Option (Move × α × Nat)) (entry : (α × Nat) × Nat) :
      Option (Move × α × Nat) :=
    let ((slope, v), place) := entry
    match t.moveAt? box slope place v with
    | some move => if better slope v best then some (move, abs slope, v) else best
    | none => best
  ((slopes.zip t.nonbasic).zipIdx.foldl consider none).map Prod.fst

/-! ## Stopping it -/

/-- Rates below this magnitude do not count. -/
def still : α := lit 1 9

/-- What ends a move: how far it goes, and the row of the basic variable that it brings to a bound,
with the bound; none where the moving variable reaches a bound of its own. -/
structure Stop (α : Type) where
  length : α
  row : Option (Nat × α)
deriving Repr

/-- The bound that a basic variable reaches which changes at some rate. One outside its bounds is
stopped by the bound it comes back to. -/
def barrier (t : Tableau α) (box : Box α) (v : Nat) (rate : α) : α :=
  if lt 0 rate then (if box.below v (t.value v) then box.lowerAt v else
    if box.above v (t.value v) then infinity else box.upperAt v)
  else (if box.above v (t.value v) then box.upperAt v else
    if box.below v (t.value v) then negInfinity else box.lowerAt v)

/-- How far the moving variable can go on its own. -/
def room (t : Tableau α) (box : Box α) (move : Move) : α :=
  let v := t.nonbasic.getD move.place 0
  if move.up then box.upperAt v - t.value v else t.value v - box.lowerAt v

/-- What stops a move first. Of two that stop it equally soon, the one that changes faster, or with
`careful` the first one in the order of the variables. -/
def stop (t : Tableau α) (box : Box α) (move : Move) (careful : Bool) : Stop α :=
  let consider (best : Stop α × α × Nat) (entry : (Array α × Nat) × Nat) : Stop α × α × Nat :=
    let ((row, v), i) := entry
    let a := row.getD move.place 0
    let rate := if move.up then a else -a
    if lt (abs rate) still then best
    else
      let bound := t.barrier box v rate
      if !isFinite bound then best
      else
        let length := maxNum ((bound - t.value v) / rate) 0
        let (old, oldRate, w) := best
        let sooner := lt length old.length
        let tied := Scalar.eq length old.length && old.row.isSome &&
          (if careful then v < w else lt oldRate (abs rate))
        if sooner || tied then (⟨length, some (i, bound)⟩, abs rate, v) else best
  ((t.rows.zip t.basic).zipIdx.foldl consider (⟨t.room box move, none⟩, 0, 0)).1

/-! ## Moving -/

/-- The values after a variable has gone some way; the basic ones follow. -/
def shifted (t : Tableau α) (place : Nat) (way : α) : Array α :=
  let v := t.nonbasic.getD place 0
  (t.rows.zip t.basic).foldl
    (fun vs (row, w) =>
      let a := row.getD place 0
      if Scalar.eq a 0 then vs else vs.setIfInBounds w (vs.getD w 0 + a * way))
    (t.values.setIfInBounds v (t.value v + way))

def apply (t : Tableau α) (box : Box α) (move : Move) (stop : Stop α) : Tableau α :=
  let values := t.shifted move.place (if move.up then stop.length else -stop.length)
  match stop.row with
  | some (i, bound) =>
    let moved := t.exchange i move.place
    { moved with values := values.setIfInBounds (t.basic.getD i 0) bound }
  | none =>
    let v := t.nonbasic.getD move.place 0
    let bound := if move.up then box.upperAt v else box.lowerAt v
    { t with values := values.setIfInBounds v bound }

/-! ## Minimising -/

inductive Outcome (α : Type) where
  | infeasible
  | unbounded
  | unfinished
  | optimal (t : Tableau α)
deriving Repr

/-- At most `fuel` moves; the later ones are chosen with care, so that they do not go round in
circles. -/
def minimise (box : Box α) (objective : Nat → α) (careful : Nat) : Nat → Tableau α → Outcome α
  | 0, _ => .unfinished
  | fuel + 1, t =>
    let inside := t.inside box
    let slopes :=
      if inside then t.slopes objective objective
      else t.slopes (fun _ => 0) (t.distanceSlope box)
    let careful? := fuel < careful
    match t.choose? box slopes careful? with
    | none => if inside then .optimal t else .infeasible
    | some move =>
      let stop := t.stop box move careful?
      if isFinite stop.length then minimise box objective careful fuel (t.apply box move stop)
      else .unbounded

end Tableau

end Dispatch
