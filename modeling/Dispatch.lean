import Dispatch.Commitment
import Dispatch.Config.Basic
import Dispatch.Config.Environment
import Dispatch.Config.Setting
import Dispatch.Config.Toml
import Dispatch.Config.Writer
import Dispatch.Decimal.Basic
import Dispatch.Decimal.Binary
import Dispatch.Decimal.Literal
import Dispatch.Decimal.Notation
import Dispatch.Device
import Dispatch.Failure
import Dispatch.Fault
import Dispatch.Grid
import Dispatch.Json.Basic
import Dispatch.Json.Parser
import Dispatch.Json.Printer
import Dispatch.Json.Record
import Dispatch.Main
import Dispatch.Named
import Dispatch.Plan
import Dispatch.Problem
import Dispatch.Program.Basic
import Dispatch.Program.Build
import Dispatch.Program.Objective
import Dispatch.Quantity.Basic
import Dispatch.Quantity.Reader
import Dispatch.Request.Basic
import Dispatch.Request.Reader
import Dispatch.Request.RunOnce
import Dispatch.Request.Problem
import Dispatch.Request.Writer
import Dispatch.Run.Attempt
import Dispatch.Run.Callers
import Dispatch.Run.Retry
import Dispatch.Run.Slots
import Dispatch.Run.State
import Dispatch.Run.Watch
import Dispatch.Scalar
import Dispatch.Schedule.Basic
import Dispatch.Schedule.Id
import Dispatch.Schedule.Json
import Dispatch.Series.Basic
import Dispatch.Series.Values
import Dispatch.Service.Basic
import Dispatch.Service.Status
import Dispatch.Service.Traffic
import Dispatch.Site
import Dispatch.Solver.BranchAndBound
import Dispatch.Solver.Kind
import Dispatch.Solver.Scripted
import Dispatch.Solver.Simplex
import Dispatch.Solver.Tableau
import Dispatch.Stock
import Dispatch.Text.Blank
import Dispatch.Text.Printable
import Dispatch.Text.Quoted
import Dispatch.TieBreak
import Dispatch.Time.Calendar
import Dispatch.Time.Duration
import Dispatch.Time.Instant
import Dispatch.Time.InstantText
import Dispatch.Time.Span
import Dispatch.Time.Zone
import Dispatch.Time.ZoneTable
import Dispatch.Warning
import Dispatch.Proofs.Exact.Basic
import Dispatch.Proofs.Exact.Series
import Dispatch.Proofs.Program.Emission
import Dispatch.Proofs.Program.Linear
import Dispatch.Proofs.Program.Parts
import Dispatch.Proofs.Program.Layout
import Dispatch.Proofs.Problem.Plans
import Dispatch.Proofs.Problem.Costs
import Dispatch.Proofs.Program.Flows
import Dispatch.Proofs.Program.Limits
import Dispatch.Proofs.Program.Deviations
import Dispatch.Proofs.Program.Exactness
import Dispatch.Proofs.Program.Preference
import Dispatch.Proofs.Program.PreferenceCost
import Dispatch.Proofs.Program.Floor
import Dispatch.Proofs.Warned
import Dispatch.Proofs.Series.Overlay
import Dispatch.Proofs.Request.Limits
import Dispatch.Proofs.Request.Bill
import Dispatch.Proofs.Request.Assembly
import Dispatch.Proofs.Request.Charges
import Dispatch.Proofs.Request.Translation
import Dispatch.Proofs.Checked
import Dispatch.Proofs.Problem.Sound
import Dispatch.Proofs.Stock.Trajectory
import Dispatch.Proofs.Stock.Drift
import Dispatch.Proofs.Stock.Shares
import Dispatch.Proofs.Stock.Reachable
import Dispatch.Proofs.Request.LeastBill
import Dispatch.Proofs.Request.HardLimits
import Dispatch.Proofs.Request.Levels
import Dispatch.Proofs.Request.FlatTariff
import Dispatch.Proofs.Plan.Checks
import Dispatch.Proofs.Plan.Reading
import Dispatch.Proofs.Plan.Rounding
import Dispatch.Proofs.Plan.Backing
import Dispatch.Proofs.Run.Attempt
import Dispatch.Proofs.Plan.Telling
import Dispatch.Proofs.Run.Gate
import Dispatch.Proofs.Run.Reported
import Dispatch.Proofs.Run.Acceptance
import Dispatch.Proofs.Run.Bounded
import Dispatch.Proofs.Request.Placement
import Dispatch.Proofs.Time.Tiling
import Dispatch.Proofs.Run.SharedSlots
import Dispatch.Proofs.Run.Budgets
import Dispatch.Proofs.Run.Retries
import Dispatch.Proofs.Run.WatchedCalls
import Dispatch.Proofs.Service.Permits
import Dispatch.Proofs.Service.Accounts
import Dispatch.Proofs.Request.Fields
import Dispatch.Proofs.Request.Units
import Dispatch.Proofs.Request.Restated
import Dispatch.Proofs.Request.Currencies
import Dispatch.Proofs.Stock.Decays
import Dispatch.Proofs.Request.Written
import Dispatch.Proofs.Request.Respelled
import Dispatch.Proofs.Time.Regular
import Dispatch.Proofs.Request.Windows
import Dispatch.Proofs.Series.Segments
import Dispatch.Proofs.Quantity.Scaled
import Dispatch.Proofs.Series.Samples
import Dispatch.Proofs.Exact.Scaling
import Dispatch.Proofs.Stock.Splitting
import Dispatch.Proofs.Request.Refined
import Dispatch.Proofs.Quantity.Grammar
import Dispatch.Proofs.Quantity.Displayed
import Dispatch.Proofs.Time.Components
import Dispatch.Proofs.Request.Answers
import Dispatch.Proofs.Request.Crashes
import Dispatch.Proofs.Exact.Bounded
import Dispatch.Proofs.Program.CostSplit
import Dispatch.Proofs.Program.SkippedLimits
import Dispatch.Proofs.Run.ReadBack
import Dispatch.Proofs.Run.LookUp
import Dispatch.Proofs.Run.Screened
import Dispatch.Proofs.Run.Finite
import Dispatch.Proofs.Stock.Bound
import Dispatch.Proofs.Program.Columns
import Dispatch.Proofs.Program.TimeOrder
