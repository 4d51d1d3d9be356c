import PodBudget.Settings.Load
import PodBudget.Json.Records
import PodBudget.Json.Printer

/-! The command line: it shows the settings that an agent started in the same way would run with. -/
namespace PodBudget.Main

open Settings

def usage : String := "Usage: tokenscale-agent [OPTIONS]

Options:
  -c, --config <CONFIG>        Config file; a missing file is ignored [default: tokenscale.yaml]
      --node-name <NODE_NAME>  Node name from the Kubernetes downward API [env: NODE_NAME=]
      --monitoring-only        Sample and report, but never write limits
      --api-port <API_PORT>    Port for the health/metrics API
  -h, --help                   Print help
  -V, --version                Print version"

def version : String := "tokenscale-agent 0.1.0"

def complaint : ArgumentError → String
  | .unknown => "error: unexpected argument"
  | .conflict => "error: an argument cannot be used multiple times"
  | .missingValue => "error: a value is required for an option"
  | .invalidValue => "error: invalid value for an option"
  | .unneededValue => "error: unexpected value for an option"
  | .helpAsked => usage
  | .versionAsked => version

def variableNames : List String :=
  let names := Json.settingsFields (α := Float) |>.names
  let policyNames := Json.policyFields (α := Float) |>.names
  Arguments.nodeVariable :: names.map (fun name => "TOKENSCALE_" ++ name.toUpper) ++
    policyNames.map fun name => "TOKENSCALE_ALLOCATION__" ++ name.toUpper

def readVariables : IO (List (String × String)) := do
  let found ← variableNames.mapM fun name => do return (← IO.getEnv name).map (name, ·)
  return found.filterMap id

def readFile? (path : String) : IO (Option String) := do
  try
    return some (← IO.FS.readFile path)
  catch _ => return none

def run (arguments : List String) : IO UInt32 := do
  let environment ← readVariables
  match Arguments.read arguments environment with
  | .error error =>
    if error = .helpAsked ∨ error = .versionAsked then
      IO.println (complaint error)
      return 0
    else
      IO.eprintln (complaint error)
      return 2
  | .ok arguments =>
    let file ← readFile? arguments.config
    match (load arguments arguments.config file environment : Except LoadError (Settings Float)) with
    | .ok settings =>
      IO.println (Json.print (Json.settings.write settings))
      return 0
    | .error error =>
      IO.eprintln s!"Error: {error.message}"
      return 1

end PodBudget.Main

def main (arguments : List String) : IO UInt32 := PodBudget.Main.run arguments
