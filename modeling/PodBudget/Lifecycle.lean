/-! The stages of a pod, and moves between them that are refused. -/
namespace PodBudget

/-- The stages of a pod, in the order in which it passes them. -/
inductive PodStatus where
  | initializing
  | notReady
  | running
  | completed
  deriving DecidableEq, Repr

namespace PodStatus

def rank : PodStatus → Nat
  | .initializing => 0
  | .notReady => 1
  | .running => 2
  | .completed => 3

def name : PodStatus → String
  | .initializing => "initializing"
  | .notReady => "not_ready"
  | .running => "running"
  | .completed => "completed"

def title : PodStatus → String
  | .initializing => "Initializing"
  | .notReady => "NotReady"
  | .running => "Running"
  | .completed => "Completed"

end PodStatus

structure Regression where
  pod : String
  origin : PodStatus
  target : PodStatus
  deriving DecidableEq, Repr

def Regression.message (error : Regression) : String :=
  s!"pod {error.pod} cannot move from {error.origin.title} to {error.target.title}"

end PodBudget
