import PodBudget.Kind
import PodBudget.Text.Quoted

/-! The journal of a node: what happened to its pods, and how an entry is written. -/
namespace PodBudget

inductive Event (α : Type) where
  | podAdmitted (pod : String) (reservation : α)
  | podPromoted (pod : String) (limits : PerKind α)
  | podCompleted (pod : String) (updates : Nat) (queue : α)
  | limitsApplied (pod : String) (limits : PerKind α) (queue : α) (joint : Bool)
  | jointSolved (pods : Nat) (violated : List String) (passes : Nat)
  | jointFailed (pods : Nat) (error : String)
  | agentStarted (version : String) (monitoringOnly : Bool)
  | agentShutdown (reason : String)
  deriving DecidableEq, Repr

inductive Level where
  | debug
  | info
  | warn
  deriving DecidableEq, Repr

def Level.name : Level → String
  | .debug => "debug"
  | .info => "info"
  | .warn => "warn"

inductive Field (α : Type) where
  | text (value : String)
  | number (value : α)
  | count (value : Nat)
  | flag (value : Bool)
  deriving DecidableEq, Repr

namespace Event

variable {α : Type}

def name : Event α → String
  | podAdmitted .. => "pod_admitted"
  | podPromoted .. => "pod_promoted"
  | podCompleted .. => "pod_completed"
  | limitsApplied .. => "limits_applied"
  | jointSolved .. => "joint_solve"
  | jointFailed .. => "joint_allocation_failed"
  | agentStarted .. => "agent_started"
  | agentShutdown .. => "agent_shutdown"

def level : Event α → Level
  | limitsApplied .. => .debug
  | jointFailed .. => .warn
  | _ => .info

def message : Event α → String
  | podAdmitted .. => "Pod admitted with token reservation"
  | podPromoted .. => "Pod resources materialised, limits seeded"
  | podCompleted .. => "Pod completed"
  | limitsApplied .. => "Applied new limits"
  | jointSolved .. => "Per-pod plans exceeded node capacity, solved jointly"
  | jointFailed .. => "Joint solve failed, keeping previous limits"
  | agentStarted .. => "Tokenscale agent started"
  | agentShutdown .. => "Tokenscale agent shutting down"

def details : Event α → List (String × Field α)
  | podAdmitted pod reservation => [("pod_name", .text pod), ("token_reservation", .number reservation)]
  | podPromoted pod limits =>
    [("pod_name", .text pod), ("cpu_limit", .number limits.cpu), ("gpu_limit", .number limits.gpu)]
  | podCompleted pod updates queue =>
    [("pod_name", .text pod), ("update_count", .count updates), ("token_queue", .number queue)]
  | limitsApplied pod limits queue joint =>
    [("pod_name", .text pod), ("cpu_limit", .number limits.cpu), ("gpu_limit", .number limits.gpu),
      ("token_queue", .number queue), ("joint", .flag joint)]
  | jointSolved pods violated passes =>
    [("pods", .count pods), ("violated", .text (Text.quotedList violated)),
      ("passes", .count passes)]
  | jointFailed pods error => [("pods", .count pods), ("error", .text error)]
  | agentStarted version monitoringOnly =>
    [("agent_version", .text version), ("monitoring_only", .flag monitoringOnly)]
  | agentShutdown reason => [("reason", .text reason)]

def entry (node : String) (event : Event α) : List (String × Field α) :=
  [("event", .text event.name), ("node", .text node)] ++ event.details ++
    [("message", .text event.message), ("level", .text event.level.name)]

def pod? : Event α → Option String
  | podAdmitted pod _ | podPromoted pod _ | podCompleted pod _ _ | limitsApplied pod _ _ _ => some pod
  | _ => none

end Event
end PodBudget
