import PodBudget.Monitor.State
import PodBudget.Node.Template

/-! The settings of an agent, their defaults, and what makes them invalid. -/
namespace PodBudget

structure Settings (α : Type) where
  nodeName : String
  apiPort : Nat
  periodSecs : Nat
  discoverySecs : Nat
  monitoringOnly : Bool
  kubeletSocket : String
  tokenResource : String
  tokensPerDevice : α
  groupRoot : String
  templates : Node.PathTemplates
  rebalanceFile : String
  activityFile : Option String
  policy : Policy α
  deriving DecidableEq, Repr

inductive SettingsError where
  | period
  | discoveryInterval
  | minLimit
  | capacity
  | staticWeight
  deriving DecidableEq, Repr

def SettingsError.message : SettingsError → String
  | .period => "monitoring_period_secs must be positive"
  | .discoveryInterval => "discovery_interval_secs must be positive"
  | .minLimit => "allocation.min_limit must not be negative"
  | .capacity => "allocation capacities must be positive"
  | .staticWeight => "allocation.static_weight must not be negative"

namespace Settings

variable {α : Type} [Number α]

def default : Settings α where
  nodeName := "unknown"
  apiPort := 9091
  periodSecs := 1
  discoverySecs := 1
  monitoringOnly := false
  kubeletSocket := "/var/lib/kubelet/pod-resources/kubelet.sock"
  tokenResource := "tokenscale.io/token"
  tokensPerDevice := 1
  groupRoot := "/sys/fs/cgroup"
  templates := Node.Template.defaults
  rebalanceFile := "/sys/kernel/gpu/gemini/resource_conf"
  activityFile := none
  policy := Policy.default

/-- The first rule that the settings break, if any. What is not a number breaks none. -/
def fault? (settings : Settings α) : Option SettingsError :=
  if settings.periodSecs = 0 then some .period
  else if settings.discoverySecs = 0 then some .discoveryInterval
  else if settings.policy.minLimit < 0 then some .minLimit
  else if settings.policy.capacity.cpu ≤ 0 ∨ settings.policy.capacity.gpu ≤ 0 then some .capacity
  else if settings.policy.staticWeight < 0 then some .staticWeight
  else none

def validate (settings : Settings α) : Except SettingsError (Settings α) :=
  match settings.fault? with
  | some error => .error error
  | none => .ok settings

def monitorConfig (settings : Settings α) : MonitorConfig α where
  nodeName := settings.nodeName
  period := settings.periodSecs * 1000000000
  monitoringOnly := settings.monitoringOnly
  policy := settings.policy

end Settings
end PodBudget
