import Dispatch.Config.Basic
import Dispatch.Config.Environment
import Dispatch.Json.Printer
import Dispatch.Schedule.Json
import Dispatch.Service.Basic
import Dispatch.Solver.BranchAndBound
import Std.Time.DateTime.Timestamp

/-! # The command line

Called with the path of a request, the program plans it and prints the schedule. Settings come from
`config/default.toml`, if there is one, and from environment variables.
-/

open Dispatch

namespace Dispatch.CommandLine
set_option autoImplicit false

def settingsPath : String := "config/default.toml"

def bindings : IO (List (String × String)) :=
  (Environment.names Config.defaults).filterMapM fun name => do
    return (← IO.getEnv name).map fun text => (name, text)

def contents? (path : String) : IO (Option String) := do
  try return some (← IO.FS.readFile path) catch _ => return none

def layers : IO (List (Option Setting)) := do
  let file := (← contents? settingsPath).toList.map Toml.read?
  return file ++ [some (Environment.layer (← bindings))]

def randomId : IO ScheduleId := do
  return .ofRandom (← (List.replicate 32 ()).mapM fun _ => IO.rand 0 15)

def now : IO LocalTime := do
  let t ← Std.Time.Timestamp.now
  let nanos := t.toNanosecondsSinceUnixEpoch.val
  return Zone.utc.localTime ⟨nanos.fdiv 1000000000, (nanos.fmod 1000000000).toNat⟩

def plan (config : Config Float) (request : Request Float) :
    Except String (Schedule Float) := do
  let settings ← config.schedulerSettings.mapError Fault.message
  let (result, _) := (runJob settings exactSolver (.request request)).run
    (.ofCapacity config.jobs ())
  result.mapError Failure.message

def run (path : String) : IO (Except String String) := do
  match (Config.read (← layers) : Except ConfigFault (Config Float)) with
  | .error fault => return .error fault.message
  | .ok config =>
    let text ← IO.FS.readFile path
    match (Json.parse? text).bind Request.ofJson? with
    | none => return .error ("parsing " ++ path)
    | some request =>
      match plan config request with
      | .error message => return .error message
      | .ok schedule =>
        let stored : StoredSchedule Float := ⟨← randomId, ← now, schedule⟩
        return .ok stored.toJson.pretty

end Dispatch.CommandLine

def main (args : List String) : IO UInt32 := do
  let outcome ← match args with
    | path :: _ => CommandLine.run path
    | [] => pure (.error "usage: dispatch REQUEST")
  match outcome with
  | .ok text => IO.println text; return 0
  | .error message => IO.eprintln ("Error: " ++ message); return 1
