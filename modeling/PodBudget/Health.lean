import PodBudget.Roster
import PodBudget.Word

/-!
Health of the parts of the agent. Each part reports for itself, and the node is as well as the worst of them.
A part that keeps failing counts its failures in a row.
-/
namespace PodBudget

inductive ComponentStatus where
  | healthy
  | degraded
  | unhealthy
  deriving DecidableEq, Repr

namespace ComponentStatus

def severity : ComponentStatus → Nat
  | .healthy => 0
  | .degraded => 1
  | .unhealthy => 2

def name : ComponentStatus → String
  | .healthy => "healthy"
  | .degraded => "degraded"
  | .unhealthy => "unhealthy"

def isOperational (status : ComponentStatus) : Bool := status != .unhealthy

def worse (a b : ComponentStatus) : ComponentStatus := if a.severity < b.severity then b else a

def worst (statuses : List ComponentStatus) : ComponentStatus := statuses.foldl worse .healthy

end ComponentStatus

structure ComponentHealth where
  status : ComponentStatus
  message : Option String
  failures : Nat
  updatedAt : Int
  deriving DecidableEq, Repr

namespace ComponentHealth

/-- The most failures in a row that are counted. -/
def maxFailures : Nat := Word.most32

def healthy (time : Int) : ComponentHealth := ⟨.healthy, none, 0, time⟩
def degraded (message : String) (time : Int) : ComponentHealth := ⟨.degraded, some message, 0, time⟩
def unhealthy (message : String) (time : Int) : ComponentHealth := ⟨.unhealthy, some message, 0, time⟩

end ComponentHealth

structure HealthReport where
  status : ComponentStatus
  components : Roster ComponentHealth

structure Readiness where
  ready : Bool
  reason : Option String
  deriving DecidableEq, Repr

/-- What each part has reported last, and whether the agent has been declared ready. -/
structure Health where
  components : Roster ComponentHealth
  declaredReady : Bool

namespace Health

def monitorPart : String := "monitor"
def probePart : String := "probe"
def discoveryPart : String := "discovery"

def new : Health := ⟨.empty, false⟩

def update (health : Health) (part : String) (state : ComponentHealth) : Health :=
  { health with components := health.components.insert part state }

def register (health : Health) (part : String) (time : Int) : Health := health.update part (.healthy time)
def setHealthy (health : Health) (part : String) (time : Int) : Health := health.update part (.healthy time)

def setDegraded (health : Health) (part message : String) (time : Int) : Health :=
  health.update part (.degraded message time)

def setUnhealthy (health : Health) (part message : String) (time : Int) : Health :=
  health.update part (.unhealthy message time)

/-- Takes the outcome of a piece of work: success makes its part healthy, and a failure adds to the failures
in a row. -/
def report (health : Health) (part : String) (failure : Option String) (time : Int) : Health :=
  match failure with
  | none => health.setHealthy part time
  | some message =>
    let before := ((health.components.get? part).map (·.failures)).getD 0
    health.update part
      { ComponentHealth.degraded message time with failures := min (before + 1) ComponentHealth.maxFailures }

def setReady (health : Health) (ready : Bool) : Health := { health with declaredReady := ready }

def status (health : Health) : ComponentStatus :=
  .worst (health.components.values.map (·.status))

def summary (health : Health) : HealthReport := ⟨health.status, health.components⟩

def readiness (health : Health) : Readiness :=
  let reason :=
    if !health.declaredReady then some "Monitor not yet running"
    else if !health.status.isOperational then some "Critical component unhealthy"
    else none
  ⟨reason.isNone, reason⟩

end Health
end PodBudget
