import Dispatch.Fault
import Dispatch.Named

/-! # Solvers

* `SolverKind`: the solvers a configuration may name.
* `SolverKind.backend`: the name of a solver that is built in; any other is not supported.
-/

namespace Dispatch
set_option autoImplicit false

inductive SolverKind where
  | microlp
  | highs
  | cbc
deriving DecidableEq, Repr

instance : Named SolverKind where
  all := [.microlp, .highs, .cbc]
  name
    | .microlp => "microlp"
    | .highs => "highs"
    | .cbc => "cbc"

namespace SolverKind

def isAvailable (k : SolverKind) : Bool := k == .microlp

def backendName (k : SolverKind) : String := "good_lp/" ++ Named.name k

def backend {α : Type} (k : SolverKind) : Checked α String :=
  if k.isAvailable then .ok k.backendName else .error (.unsupported (.solver (Named.name k)))

end SolverKind

end Dispatch
