import PodBudget.Monitor.State
import PodBudget.Joint.Search

/-!
The allocation pass. Every running pod is charged for the time since its last update and plans for itself;
where the plans together exceed the node, all limits are solved jointly. If that fails the limits in force
stay, and the time is charged all the same.
-/
namespace PodBudget

inductive Allocation where
  | skipped
  | perPod
  | joint (passes : Nat)
  | keptPrevious
  deriving DecidableEq, Repr

def Allocation.title : Allocation → String
  | .skipped => "Skipped"
  | .perPod => "PerPod"
  | .joint passes => s!"Joint({passes})"
  | .keptPrevious => "KeptPrevious"

namespace Monitor

variable {σ α : Type} [Number α]

/-- Settles a pod's queue up to now and renews its weights. -/
def charge (policy : Policy α) (fallback now : Nat) (pod : Pod α) : Pod α :=
  let since := pod.lastUpdate.getD fallback
  (pod.settleQueue (Number.seconds (now - since)) policy.queueCap).updateWeights policy.staticWeight

def demand (remaining : α) (pod : Pod α) (plan : Plan α) : Joint.Demand α where
  usage := pod.usage
  weight := pod.weights
  available := plan.available
  budgetRate := plan.budgetRate remaining

def solveJointly (policy : Policy α) (remaining : α) (pods : List (Pod α)) (plans : List (Plan α)) :
    Except (Joint.JointError α) (List (PerKind α) × Nat) := do
  let demands := List.zipWith (demand remaining) pods plans
  let solution ← Joint.solve demands.toArray.toVector policy
  return (solution.limits.toList, solution.passes)

def applyOne (node : Node σ α) (now : Nat) (joint : Bool) (pod : Pod α) (limits : PerKind α) :
    Dealing σ α (Nat × Pod α) := do
  let (report, pod) ← pod.applyLimits node limits now
  (Event.limitsApplied pod.name limits pod.queue joint).log
  return (report.failed, pod)

def applyEach (node : Node σ α) (now : Nat) (joint : Bool) (running : Roster (Pod α))
    (limits : List (PerKind α)) : Dealing σ α (Nat × Roster (Pod α)) := fun scene =>
  let visit (_ : String) (pod : Pod α) (limits : PerKind α) : StateM (Nat × Scene σ α) (Pod α) :=
    fun (failed, scene) =>
      let ((more, pod), scene) := applyOne node now joint pod limits scene
      (pod, failed + more, scene)
  let (running, failed, scene) := running.zipTraverse visit limits (0, scene)
  ((failed, running), scene)

def enforce (node : Node σ α) (monitor : Monitor α) (now : Moment) (joint : Bool) (limits : List (PerKind α)) :
    Dealing σ α (Monitor α) := do
  let (failed, running) ← applyEach node now.instant joint monitor.running limits
  let monitor := { monitor with running, lastUpdate := now.instant }
  let monitor := monitor.count fun tally => { tally with writeErrors := tally.writeErrors + failed }
  return monitor.report fun health =>
    let health := health.setHealthy Health.monitorPart now.unix
    if 0 < failed then health.setDegraded Health.probePart s!"{failed} limit writes failed" now.unix
    else health.setHealthy Health.probePart now.unix

/-- Keeps every limit and notes that the time up to now is paid for. -/
def keepPrevious (monitor : Monitor α) (now : Moment) (pods : Nat) (error : Joint.JointError α) :
    Dealing σ α (Monitor α) := do
  (Event.jointFailed pods error.message).log
  let monitor := monitor.count fun tally => { tally with jointFailures := tally.jointFailures + 1 }
  let monitor := monitor.report fun health =>
    health.setDegraded Health.monitorPart s!"joint solve failed: {error.message}" now.unix
  return { monitor with
    running := monitor.running.map fun _ pod => pod.stamp now.instant
    lastUpdate := now.instant }

def allocate (node : Node σ α) (monitor : Monitor α) (remaining : α) (now : Moment) :
    Dealing σ α (Allocation × Monitor α) := do
  if monitor.running.isEmpty then return (.skipped, monitor)
  let policy := monitor.config.policy
  let running := monitor.running.map fun _ pod => charge policy monitor.lastUpdate now.instant pod
  let monitor := { monitor with running }
  let plans := running.values.map fun pod => pod.plan remaining policy
  let violated := Joint.violatedCeilings (plans.map (·.limits)) policy
  if violated.isEmpty then
    return (.perPod, ← monitor.enforce node now false (plans.map (·.limits)))
  let monitor := monitor.count fun tally => { tally with jointSolves := tally.jointSolves + 1 }
  match solveJointly policy remaining running.values plans with
  | .ok (limits, passes) =>
    (Event.jointSolved running.size (violated.map Kind.name) passes).log
    return (.joint passes, ← monitor.enforce node now true limits)
  | .error error => return (.keptPrevious, ← monitor.keepPrevious now running.size error)

end Monitor
end PodBudget
