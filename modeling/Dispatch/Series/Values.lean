import Dispatch.Scalar

/-! # Values per slot

* `valueAt`: the value of a series in a slot; zero beyond its end.
* `givenAt`: the value of a series with gaps; none beyond its end.
* `largest`: the largest of some magnitudes, zero if there are none.
-/

namespace Dispatch
set_option autoImplicit false

variable {α : Type} [Scalar α]

def valueAt (xs : List α) (j : Nat) : α := xs.getD j 0

def givenAt (xs : List (Option α)) (j : Nat) : Option α := xs.getD j none

def largest (xs : List α) : α := xs.foldl Scalar.maxNum 0

end Dispatch
