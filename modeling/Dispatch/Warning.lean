/-! # Warnings

* `Warning`: what deserves attention and is no failure by itself.
* `Warned`: a computation that may fail and collects warnings, which it keeps when it fails.
-/

namespace Dispatch
set_option autoImplicit false

inductive Warning where
  | emptyStorageAssumed
  | consumptionBreachIgnored
  | productionBreachIgnored
  | unexpectedTransition
  | solverAbandoned
  | solveFailed
  | retrying
deriving DecidableEq, Repr

namespace Warning

def message : Warning → String
  | emptyStorageAssumed => "no soc-at-start given, assuming an empty storage"
  | consumptionBreachIgnored =>
    "site-consumption-breach-price given without a capacity, ignoring it"
  | productionBreachIgnored =>
    "site-production-breach-price given without a capacity, ignoring it"
  | unexpectedTransition => "unexpected driver transition"
  | solverAbandoned => "solver exceeded its budget, abandoning it"
  | solveFailed => "solve failed"
  | retrying => "solve failed, retrying"

end Warning

abbrev Warned (ε β : Type) := ExceptT ε (StateM (List Warning)) β

namespace Warned
variable {ε β : Type}

def warn (w : Warning) : Warned ε Unit := modify (· ++ [w])

def run (m : Warned ε β) : Except ε β × List Warning := StateT.run (ExceptT.run m) []

def lift (r : Except ε β) : Warned ε β := ExceptT.mk (pure r)

end Warned

end Dispatch
