import PodBudget.Settings.Basic
import PodBudget.Settings.Tree
import PodBudget.Decimal.Reading

/-!
Settings out of a tree. Values are converted to what a setting asks for: words stand for truth values, texts for
the numbers that they spell, and numbers are rounded to whole ones. What a tree leaves out has its default, and
what it has beyond the settings is passed over.
-/
namespace PodBudget.Settings

variable {α : Type} [Number α]

def wordFlag? (text : String) : Option Bool :=
  let word := lower text
  if word = "true" ∨ word = "on" ∨ word = "yes" then some true
  else if word = "false" ∨ word = "off" ∨ word = "no" then some false
  else none

def asFlag? : Tree α → Option Bool
  | .bool value => some value
  | .integer value => some (value != 0)
  | .float value => some !(value == 0)
  | .string text => if text = "1" then some true else if text = "0" then some false else wordFlag? text
  | _ => none

/-- Natural numbers of a word; numbers below zero are rounded up to it, but whole ones below zero are refused. -/
def asWord? : Tree α → Option Nat
  | .bool value => some value.toNat
  | .integer value => if value < 0 then none else some value.toNat
  | .float value => some (Number.nearestWord value)
  | .string text =>
    match wordFlag? text with
    | some flag => some flag.toNat
    | none => Decimal.word? text.toList
  | _ => none

def asNatural? (most : Nat) (tree : Tree α) : Option Nat := (asWord? tree).filter (· ≤ most)

def asNumber? : Tree α → Option α
  | .bool value => some (Number.ofNat value.toNat)
  | .integer value => some (Number.ofInt value)
  | .float value => some value
  | .string text =>
    match wordFlag? text with
    | some flag => some (Number.ofNat flag.toNat)
    | none => Decimal.number? text.toList
  | _ => none

def asText? : Tree α → Option String
  | .bool value => some (toString value)
  | .integer value => some (toString value)
  | .float value => some (Number.shortest value)
  | .string text => some text
  | _ => none

def asOptionalText? : Tree α → Option (Option String)
  | .null => some none
  | tree => (asText? tree).map some

def asQueueCap? : Tree α → Option QueueCap
  | .string text | .object [(text, _)] =>
    [QueueCap.unbounded, .reservation].find? fun cap => cap.name == lower text
  | _ => none

def field (table : List (String × Tree α)) (name : String) (convert : Tree α → Option β) (otherwise : β) :
    Option β :=
  match table.lookup name with
  | some tree => convert tree
  | none => some otherwise

def policyNames : List String :=
  ["static_weight", "carry_over", "queue_cap", "min_limit", "cpu_capacity", "gpu_capacity",
    "initial_cpu_limit", "initial_gpu_limit"]

def policyOfTable? (table : List (String × Tree α)) : Option (Policy α) := do
  let usual : Policy α := Policy.default
  return {
    staticWeight := ← field table "static_weight" asNumber? usual.staticWeight
    carryOver := ← field table "carry_over" asNumber? usual.carryOver
    queueCap := ← field table "queue_cap" asQueueCap? usual.queueCap
    minLimit := ← field table "min_limit" asNumber? usual.minLimit
    capacity := ⟨← field table "cpu_capacity" asNumber? usual.capacity.cpu,
      ← field table "gpu_capacity" asNumber? usual.capacity.gpu⟩
    initialLimits := ⟨← field table "initial_cpu_limit" asNumber? usual.initialLimits.cpu,
      ← field table "initial_gpu_limit" asNumber? usual.initialLimits.gpu⟩ }

def asPolicy? : Tree α → Option (Policy α)
  | .object table => policyOfTable? table
  | .array items => policyOfTable? (policyNames.zip items)
  | _ => none

def ofTable? (table : List (String × Tree α)) : Option (Settings α) := do
  let usual : Settings α := Settings.default
  return {
    nodeName := ← field table "node_name" asText? usual.nodeName
    apiPort := ← field table "api_port" (asNatural? Word.most16) usual.apiPort
    periodSecs := ← field table "monitoring_period_secs" asWord? usual.periodSecs
    discoverySecs := ← field table "discovery_interval_secs" asWord? usual.discoverySecs
    monitoringOnly := ← field table "monitoring_only" asFlag? usual.monitoringOnly
    kubeletSocket := ← field table "kubelet_socket" asText? usual.kubeletSocket
    tokenResource := ← field table "token_resource_name" asText? usual.tokenResource
    tokensPerDevice := ← field table "tokens_per_device" asNumber? usual.tokensPerDevice
    groupRoot := ← field table "cgroup_root" asText? usual.groupRoot
    templates := ⟨← field table "cpu_path_template" asText? usual.templates.cpu,
      ← field table "gpu_path_template" asText? usual.templates.gpu⟩
    rebalanceFile := ← field table "gemini_conf_path" asText? usual.rebalanceFile
    activityFile := ← field table "activity_pulse_path" asOptionalText? usual.activityFile
    policy := ← field table "allocation" asPolicy? usual.policy }

end PodBudget.Settings
