import PodBudget.Snapshot
import PodBudget.Health

/-! The state of the node's controller, and what an admission does to it. -/
namespace PodBudget

/-- An instant in nanoseconds, and the time of day in Unix seconds. -/
structure Moment where
  instant : Nat
  unix : Int
  deriving DecidableEq, Repr

structure Admission (α : Type) where
  name : String
  reservation : α
  deriving DecidableEq, Repr

structure MonitorConfig (α : Type) where
  nodeName : String
  period : Nat
  monitoringOnly : Bool
  policy : Policy α
  deriving DecidableEq, Repr

structure Tally where
  cycles : Nat
  jointSolves : Nat
  jointFailures : Nat
  writeErrors : Nat
  deriving DecidableEq, Repr

def Tally.zero : Tally := ⟨0, 0, 0, 0⟩

structure Monitor (α : Type) where
  config : MonitorConfig α
  notReady : Roster (Pod α)
  running : Roster (Pod α)
  completed : Roster (Pod α)
  /-- Instant of the last tick, from which the rest of the period is reckoned. -/
  lastExpired : Nat
  /-- Instant of the last allocation pass. -/
  lastUpdate : Nat
  published : NodeSnapshot α
  tally : Tally
  health : Option Health

namespace Monitor

variable {σ α : Type} [Number α]

def new (config : MonitorConfig α) (health : Option Health) (now : Nat) : Monitor α where
  config
  notReady := .empty
  running := .empty
  completed := .empty
  lastExpired := now
  lastUpdate := now
  published := .blank config.nodeName
  tally := .zero
  health

def pod? (monitor : Monitor α) (name : String) : Option (Pod α) :=
  monitor.running.get? name <|> monitor.notReady.get? name <|> monitor.completed.get? name

def isLive (monitor : Monitor α) (name : String) : Bool :=
  monitor.running.contains name || monitor.notReady.contains name

/-- Takes a pod in. A live name is refused; a completed record gives way to the new pod. -/
def enroll (monitor : Monitor α) (admission : Admission α) : Dealing σ α (Bool × Monitor α) :=
  if monitor.isLive admission.name then return (false, monitor)
  else do
    let pod ← (Pod.new admission.name admission.reservation).moveTo .notReady
    (Event.podAdmitted admission.name admission.reservation).log
    return (true, { monitor with
      completed := monitor.completed.erase admission.name
      notReady := monitor.notReady.insert admission.name pod })

def snapshot (monitor : Monitor α) (unix : Int) : NodeSnapshot α where
  node := monitor.config.nodeName
  takenAt := unix
  running := monitor.running.values.map Pod.snapshot
  notReady := monitor.notReady.values.map Pod.snapshot
  completed := monitor.completed.values.map Pod.snapshot

def report (monitor : Monitor α) (change : Health → Health) : Monitor α :=
  { monitor with health := monitor.health.map change }

def count (monitor : Monitor α) (change : Tally → Tally) : Monitor α :=
  { monitor with tally := change monitor.tally }

end Monitor
end PodBudget
