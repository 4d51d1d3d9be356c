import PodBudget.Settings.Reading
import PodBudget.Settings.File
import PodBudget.Settings.Environment
import PodBudget.Settings.Arguments

/-!
The settings of an agent from all their sources. The lowest are the defaults; then come the file, the
environment and the command line, each over the ones before.
-/
namespace PodBudget.Settings

inductive LoadError where
  | unreadable (path : String)
  | unconvertible
  | invalid (error : SettingsError)
  deriving DecidableEq, Repr

def LoadError.message : LoadError → String
  | .unreadable path => s!"Failed to read configuration from {path}"
  | .unconvertible => "Invalid agent configuration"
  | .invalid error => error.message

variable {α : Type} [Number α]

/-- The settings of the file and of the environment. A file that is not there sets nothing. -/
def ofSources (path : String) (file : Option String) (environment : List (String × String)) :
    Except LoadError (Settings α) := do
  let entries ← match file.filter fun _ => File.isDocument path with
    | none => pure []
    | some text =>
      match (File.entries? text : Option (List (String × Tree α))) with
      | some entries => pure entries
      | none => throw (.unreadable path)
  let tree := insertAll (insertAll (.object []) entries) (Environment.entries environment)
  match ofTable? (members tree) with
  | some settings => return settings
  | none => throw .unconvertible

def override (settings : Settings α) (arguments : Arguments) : Settings α :=
  { settings with
    nodeName := arguments.nodeName.getD settings.nodeName
    apiPort := arguments.apiPort.getD settings.apiPort
    monitoringOnly := arguments.monitoringOnly || settings.monitoringOnly }

def load (arguments : Arguments) (path : String) (file : Option String) (environment : List (String × String)) :
    Except LoadError (Settings α) := do
  let settings ← ofSources path file environment
  ((settings.override arguments).validate).mapError .invalid

end PodBudget.Settings
