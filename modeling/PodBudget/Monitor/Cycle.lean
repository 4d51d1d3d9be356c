import PodBudget.Monitor.Sampling
import PodBudget.Monitor.Allocation

/-!
One cycle of the controller: sample the running pods, allocate, promote the pods whose resources have
appeared, and publish a snapshot.
-/
namespace PodBudget

/-- What makes a cycle run: the end of a period, or activity in the middle of one. -/
inductive Trigger where
  | tick
  | pulse
  deriving DecidableEq, Repr

structure CycleReport where
  completed : List String
  promoted : List String
  allocation : Allocation
  deriving DecidableEq, Repr

namespace Monitor

variable {σ α : Type} [Number α]

/-- The least part of a period that a pulse plans for. -/
def minRemainingFraction : α := 0.1

def remaining (monitor : Monitor α) (trigger : Trigger) (now : Nat) : α :=
  let period := monitor.config.period
  match trigger with
  | .tick => Number.seconds period
  | .pulse =>
    Number.max (Number.seconds (period - (now - monitor.lastExpired)))
      (Number.seconds period * minRemainingFraction)

def seed (node : Node σ α) (monitor : Monitor α) (pod : Pod α) : Dealing σ α (ApplyReport × Pod α) :=
  if monitor.config.monitoringOnly then return (.none, pod)
  else pod.seedLimits node monitor.config.policy.initialLimits

/-- Makes a pod ready to run: its first limits are written, its counters read for a base. -/
def prepare (node : Node σ α) (monitor : Monitor α) (now : Nat) (pod : Pod α) (paths : PerKind String) :
    Dealing σ α (ApplyReport × Pod α) := do
  let (report, pod) ← monitor.seed node (pod.attach paths)
  let pod ← pod.sampleAll node Kind.all
  return (report, pod.stamp now)

def promote (node : Node σ α) (monitor : Monitor α) (now : Nat) (name : String) (pod : Pod α)
    (paths : PerKind String) : Dealing σ α (Monitor α) := do
  let (report, pod) ← monitor.prepare node now pod paths
  let pod ← pod.moveTo .running
  (Event.podPromoted name pod.limits).log
  let monitor := monitor.count fun tally => { tally with writeErrors := tally.writeErrors + report.failed }
  return { monitor with
    notReady := monitor.notReady.erase name
    running := monitor.running.insert name pod }

def promoteEach (node : Node σ α) (monitor : Monitor α) (now : Nat) :
    List String → Dealing σ α (List String × Monitor α)
  | [] => return ([], monitor)
  | name :: rest => do
    match ← node.askPaths name, monitor.notReady.get? name with
    | some paths, some pod =>
      let monitor ← monitor.promote node now name pod paths
      let (promoted, monitor) ← monitor.promoteEach node now rest
      return (name :: promoted, monitor)
    | _, _ => monitor.promoteEach node now rest

def promoteReady (node : Node σ α) (monitor : Monitor α) (now : Nat) :
    Dealing σ α (List String × Monitor α) :=
  monitor.promoteEach node now monitor.notReady.names

def allocateIfActing (node : Node σ α) (monitor : Monitor α) (remaining : α) (now : Moment) :
    Dealing σ α (Allocation × Monitor α) :=
  if monitor.config.monitoringOnly then return (.skipped, monitor)
  else monitor.allocate node remaining now

def publish (monitor : Monitor α) (unix : Int) : Monitor α :=
  { monitor with published := monitor.snapshot unix }.count fun tally => { tally with cycles := tally.cycles + 1 }

def afterSampling (node : Node σ α) (monitor : Monitor α) (remaining : α) (now : Moment)
    (completed : List String) : Dealing σ α (CycleReport × Monitor α) := do
  let (allocation, monitor) ← monitor.allocateIfActing node remaining now
  let (promoted, monitor) ← monitor.promoteReady node now.instant
  return (⟨completed, promoted, allocation⟩, monitor.publish now.unix)

def expire (monitor : Monitor α) (trigger : Trigger) (now : Nat) : Monitor α :=
  if trigger = .tick then { monitor with lastExpired := now } else monitor

/-- One cycle, when the reports of the workers come in as `arrival` has it: in some order, and some of them
maybe not at all. -/
def cycle (node : Node σ α) (monitor : Monitor α) (trigger : Trigger) (now : Moment)
    (arrival : List Sample → List Sample) : Dealing σ α (CycleReport × Monitor α) := do
  let samples ← takeSamples node monitor.running.entries
  let (completed, sampled) ← (monitor.expire trigger now.instant).takeIn (arrival samples)
  sampled.afterSampling node (monitor.remaining trigger now.instant) now completed

def runCycle (node : Node σ α) (monitor : Monitor α) (trigger : Trigger) (now : Moment) :
    Dealing σ α (CycleReport × Monitor α) :=
  monitor.cycle node trigger now id

end Monitor
end PodBudget
