import PodBudget.Decimal.Integer

/-!
The command line. An option takes one value, behind an equals sign or as the next argument, and may be given
once. Arguments are read from left to right, and the first that is wrong decides; the value of an option is
looked at when the next option is read.
-/
namespace PodBudget.Settings

structure Arguments where
  config : String
  nodeName : Option String
  monitoringOnly : Bool
  apiPort : Option Nat
  deriving DecidableEq, Repr

inductive ArgumentError where
  | unknown
  | conflict
  | missingValue
  | invalidValue
  | unneededValue
  | helpAsked
  | versionAsked
  deriving DecidableEq, Repr

namespace Arguments

inductive Valued where
  | config
  | nodeName
  | apiPort
  deriving DecidableEq, Repr

inductive Flag where
  | monitoringOnly
  | help
  | version
  deriving DecidableEq, Repr

inductive Known where
  | valued (option : Valued)
  | flag (flag : Flag)
  deriving DecidableEq, Repr

def ofLong? : String → Option Known
  | "config" => some (.valued .config)
  | "node-name" => some (.valued .nodeName)
  | "api-port" => some (.valued .apiPort)
  | "monitoring-only" => some (.flag .monitoringOnly)
  | "help" => some (.flag .help)
  | "version" => some (.flag .version)
  | _ => none

def ofShort? : Char → Option Known
  | 'c' => some (.valued .config)
  | 'h' => some (.flag .help)
  | 'V' => some (.flag .version)
  | _ => none

structure Reading where
  config : Option String
  nodeName : Option String
  apiPort : Option Nat
  monitoringOnly : Bool
  pending : Option (Valued × Option String)
  trailing : Bool
  deriving DecidableEq, Repr

namespace Reading

def new : Reading := ⟨none, none, none, false, none, false⟩

def port? (text : String) : Option Nat :=
  match Decimal.signedWord? text.toList with
  | some value => if 0 ≤ value ∧ value ≤ Word.most16 then some value.toNat else none
  | none => none

def give (reading : Reading) (option : Valued) (value : String) : Except ArgumentError Reading :=
  match option with
  | .config =>
    if reading.config.isSome then .error .conflict
    else if value.isEmpty then .error .missingValue
    else .ok { reading with config := some value }
  | .nodeName =>
    if reading.nodeName.isSome then .error .conflict else .ok { reading with nodeName := some value }
  | .apiPort =>
    if reading.apiPort.isSome then .error .conflict
    else
      match port? value with
      | some port => .ok { reading with apiPort := some port }
      | none => .error .invalidValue

/-- Takes the last option in, which has to have its value by now. -/
def settle (reading : Reading) : Except ArgumentError Reading :=
  match reading.pending with
  | none => .ok reading
  | some (_, none) => .error .missingValue
  | some (option, some value) => { reading with pending := none }.give option value

def raise (reading : Reading) : Flag → Except ArgumentError Reading
  | .help => .error .helpAsked
  | .version => .error .versionAsked
  | .monitoringOnly =>
    if reading.monitoringOnly then .error .conflict else .ok { reading with monitoringOnly := true }

def take (reading : Reading) (known : Known) (attached : Option String) : Except ArgumentError Reading :=
  match known, attached with
  | .valued option, some value => do (← reading.settle).give option value
  | .valued option, none => do return { ← reading.settle with pending := some (option, none) }
  | .flag _, some _ => .error .unneededValue
  | .flag flag, none => do (← reading.settle).raise flag

def takeLong (reading : Reading) (text : List Char) : Except ArgumentError Reading :=
  let name := text.takeWhile (· != '=')
  let attached := match text.dropWhile (· != '=') with
    | [] => none
    | _ :: value => some (String.ofList value)
  match ofLong? (String.ofList name) with
  | some known => reading.take known attached
  | none => .error .unknown

/-- An argument behind one dash: options of one letter, the last of which may have its value attached. -/
def takeShort (reading : Reading) (letter : Char) (rest : List Char) : Except ArgumentError Reading :=
  match ofShort? letter with
  | none => .error .unknown
  | some (.flag flag) => do (← reading.settle).raise flag
  | some (.valued option) =>
    match rest with
    | [] => reading.take (.valued option) none
    | '=' :: value => reading.take (.valued option) (some (String.ofList value))
    | value => reading.take (.valued option) (some (String.ofList value))

def takeValue (reading : Reading) (text : String) : Except ArgumentError Reading :=
  match reading.pending with
  | some (option, none) => .ok { reading with pending := some (option, some text) }
  | _ => .error .unknown

def step (reading : Reading) (argument : String) : Except ArgumentError Reading :=
  if reading.trailing then .error .unknown
  else
    match argument.toList with
    | ['-', '-'] => .ok { reading with trailing := true }
    | '-' :: '-' :: text => reading.takeLong text
    | '-' :: letter :: rest => reading.takeShort letter rest
    | _ => reading.takeValue argument

end Reading

def defaultConfig : String := "tokenscale.yaml"

def nodeVariable : String := "NODE_NAME"

def read (arguments : List String) (environment : List (String × String)) : Except ArgumentError Arguments := do
  let reading ← (← arguments.foldlM Reading.step Reading.new).settle
  return {
    config := reading.config.getD defaultConfig
    nodeName := reading.nodeName <|> environment.lookup nodeVariable
    monitoringOnly := reading.monitoringOnly
    apiPort := reading.apiPort }

end Arguments
end PodBudget.Settings
