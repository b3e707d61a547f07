import Dispatch.Config.Setting
import Dispatch.Run.Retry
import Dispatch.Solver.Kind

/-! # Configurations

* `Config`: what an operator may set.
* `Config.defaults`: the settings that hold unless others are laid over them.
* `Config.ofSetting?`: the configuration that settings write; keys that mean nothing are ignored.
* `Config.valid`: every number is in its range.
* `Config.read`: layers of settings laid over the defaults, read and checked.
* `Config.solveSettings`, `Config.schedulerSettings`: the settings of a run and of the attempts.
-/

namespace Dispatch
set_option autoImplicit false

/-! ## Sections -/

structure SolverConfig where
  backend : SolverKind
  timeLimitSeconds : Nat
  graceMillis : Nat
deriving DecidableEq, Repr

structure PlanningConfig (α : Type) where
  chargeSooner : Bool
  /-- No preference among plans of equal cost unless this is positive. -/
  tieBreakRelative : α
  tieBreakCurve : BiasCurve
  margin : α
  tolerance : α
deriving DecidableEq, Repr

structure LoggingConfig where
  filter : String
  json : Bool
deriving DecidableEq, Repr

structure Config (α : Type) where
  solver : SolverConfig
  planning : PlanningConfig α
  retry : RetryPolicy α
  jobs : Nat
  logging : LoggingConfig
deriving DecidableEq, Repr

inductive ConfigFault where
  | unreadable
  | outOfRange
deriving DecidableEq, Repr

namespace ConfigFault

def message : ConfigFault → String
  | unreadable => "reading configuration"
  | outOfRange => "invalid configuration"

end ConfigFault

variable {α : Type} [Scalar α]
open Scalar

/-! ## Reading -/

namespace SolverConfig

def ofSetting? (s : Setting) : Option SolverConfig := do
  let fields ← s.entries? ["backend", "time_limit_seconds", "grace_millis"]
  return {
    backend := ← Setting.need fields "backend" Setting.choice?
    timeLimitSeconds := ← Setting.need fields "time_limit_seconds" (Setting.nat? Setting.wordLimit)
    graceMillis := ← Setting.need fields "grace_millis" (Setting.nat? Setting.wordLimit) }

end SolverConfig

namespace PlanningConfig

def ofSetting? (s : Setting) : Option (PlanningConfig α) := do
  let fields ← s.entries? ["prefer_charging_sooner", "tie_break_relative", "tie_break_curve",
    "big_m_margin", "tolerance"]
  return {
    chargeSooner := ← Setting.need fields "prefer_charging_sooner" Setting.flag?
    tieBreakRelative := ← Setting.need fields "tie_break_relative" Setting.number?
    tieBreakCurve := ← Setting.need fields "tie_break_curve" Setting.choice?
    margin := ← Setting.need fields "big_m_margin" Setting.number?
    tolerance := ← Setting.need fields "tolerance" Setting.number? }

end PlanningConfig

namespace RetryPolicy

def ofSetting? (s : Setting) : Option (RetryPolicy α) := do
  let fields ← s.entries? ["max_attempts", "budget_growth"]
  return {
    maxAttempts := ← Setting.need fields "max_attempts" (Setting.nat? 4294967296)
    growth := ← Setting.need fields "budget_growth" Setting.number? }

end RetryPolicy

namespace LoggingConfig

def ofSetting? (s : Setting) : Option LoggingConfig := do
  let fields ← s.entries? ["filter", "json"]
  return {
    filter := ← Setting.need fields "filter" Setting.text?
    json := ← Setting.need fields "json" Setting.flag? }

end LoggingConfig

namespace Config

def jobsOf? (s : Setting) : Option Nat := do
  let fields ← s.entries? ["max_concurrent_jobs"]
  Setting.need fields "max_concurrent_jobs" (Setting.nat? Setting.wordLimit)

def ofSetting? (s : Setting) : Option (Config α) := do
  let fields ← s.entries? ["solver", "scheduler", "retry", "service", "logging"]
  return {
    solver := ← Setting.need fields "solver" SolverConfig.ofSetting?
    planning := ← Setting.need fields "scheduler" PlanningConfig.ofSetting?
    retry := ← Setting.need fields "retry" RetryPolicy.ofSetting?
    jobs := ← Setting.need fields "service" jobsOf?
    logging := ← Setting.need fields "logging" LoggingConfig.ofSetting? }

/-! ## Defaults -/

def decimal (digits places : Nat) : Setting := .float (.finite ⟨false, digits, -(places : Int)⟩)

def defaults : Setting := .table [
  ("solver", .table [
    ("backend", .text "microlp"),
    ("time_limit_seconds", .integer 30),
    ("grace_millis", .integer 2000)]),
  ("scheduler", .table [
    ("prefer_charging_sooner", .flag true),
    ("tie_break_relative", decimal 1 3),
    ("tie_break_curve", .text "linear"),
    ("big_m_margin", decimal 1 1),
    ("tolerance", decimal 1 6)]),
  ("retry", .table [
    ("max_attempts", .integer 3),
    ("budget_growth", decimal 2 0)]),
  ("service", .table [("max_concurrent_jobs", .integer 4)]),
  ("logging", .table [
    ("filter", .text "info"),
    ("json", .flag true)])]

/-! ## Ranges -/

/-- Not below the one and not above the other; a NaN is neither. -/
def inRange (low high x : α) : Bool := !(lt x low) && !(lt high x)

def valid (c : Config α) : Bool :=
  1 ≤ c.solver.timeLimitSeconds && c.solver.timeLimitSeconds ≤ 86400 &&
    c.solver.graceMillis ≤ 60000 &&
    inRange 0 (lit 5 1) c.planning.tieBreakRelative &&
    inRange 0 (ofNat 10) c.planning.margin &&
    inRange (lit 1 12) (lit 1 2) c.planning.tolerance &&
    1 ≤ c.retry.maxAttempts && c.retry.maxAttempts ≤ 10 &&
    inRange 1 (ofNat 10) c.retry.growth &&
    1 ≤ c.jobs && c.jobs ≤ 256

/-! ## Layers -/

def isTable : Setting → Bool
  | .table _ => true
  | _ => false

/-- Later layers are laid over earlier ones. A layer that could not be read, or is no table, spoils
them all. -/
def read (layers : List (Option Setting)) : Except ConfigFault (Config α) :=
  match layers.mapM fun layer => layer.filter isTable with
  | none => .error .unreadable
  | some layers =>
    match (ofSetting? (layers.foldl Setting.merge defaults) : Option (Config α)) with
    | none => .error .unreadable
    | some c => if c.valid then .ok c else .error .outOfRange

theorem valid_of_read {layers : List (Option Setting)} {c : Config α} (h : read layers = .ok c) :
    c.valid = true := by
  simp only [read] at h
  split at h
  · cases h
  · split at h
    · cases h
    · split at h
      · cases h; assumption
      · cases h

/-! ## Settings -/

def tieBreak (c : Config α) : TieBreak α where
  enabled := gt c.planning.tieBreakRelative 0
  relative := c.planning.tieBreakRelative
  curve := c.planning.tieBreakCurve

def solveSettings (c : Config α) : SolveSettings α where
  budget := Span.ofSeconds c.solver.timeLimitSeconds
  grace := Span.ofMillis c.solver.graceMillis
  tolerance := c.planning.tolerance
  margin := c.planning.margin
  tieBreak := c.tieBreak

def schedulerSettings (c : Config α) : Checked α (SchedulerSettings α) := do
  let _ ← (c.solver.backend.backend : Checked α String)
  return { solve := c.solveSettings, retry := c.retry, chargeSooner := c.planning.chargeSooner }

end Config

end Dispatch
