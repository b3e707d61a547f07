import Dispatch.Config.Basic
import Dispatch.Request.Writer

/-! # Writing configurations

* `Config.toJson`: a configuration in the shape it is read from.
-/

namespace Dispatch
set_option autoImplicit false

variable {α : Type} [Scalar α] [NumJson α]

namespace SolverConfig

def toJson (c : SolverConfig) : Json :=
  .object [("backend", choiceJson c.backend), ("time_limit_seconds", .nat c.timeLimitSeconds),
    ("grace_millis", .nat c.graceMillis)]

end SolverConfig

namespace PlanningConfig

def toJson (c : PlanningConfig α) : Json :=
  .object [("prefer_charging_sooner", .bool c.chargeSooner),
    ("tie_break_relative", finiteJson c.tieBreakRelative),
    ("tie_break_curve", choiceJson c.tieBreakCurve), ("big_m_margin", finiteJson c.margin),
    ("tolerance", finiteJson c.tolerance)]

end PlanningConfig

namespace RetryPolicy

def toJson (p : RetryPolicy α) : Json :=
  .object [("max_attempts", .nat p.maxAttempts), ("budget_growth", finiteJson p.growth)]

end RetryPolicy

namespace LoggingConfig

def toJson (c : LoggingConfig) : Json :=
  .object [("filter", .string c.filter), ("json", .bool c.json)]

end LoggingConfig

namespace Config

def toJson (c : Config α) : Json :=
  .object [("solver", c.solver.toJson), ("scheduler", c.planning.toJson),
    ("retry", c.retry.toJson), ("service", .object [("max_concurrent_jobs", .nat c.jobs)]),
    ("logging", c.logging.toJson)]

end Config

end Dispatch
