import PodBudget.Monitor.State

/-!
Sampling of the running pods. Each pod is read by a worker of its own, and the readings are folded in once all
workers have reported; a pod whose source is gone completes.
-/
namespace PodBudget

structure Sample where
  name : String
  readings : Readings

namespace Monitor

variable {σ α : Type} [Number α]

def readHandles (node : Node σ α) : List Node.Handle → Dealing σ α Readings
  | [] => return []
  | handle :: rest => do
    let outcome ← node.readCounter handle
    return (handle.kind, outcome) :: (← readHandles node rest)

def takeSamples (node : Node σ α) : List (String × Pod α) → Dealing σ α (List Sample)
  | [] => return []
  | (name, pod) :: rest => do
    let readings ← readHandles node pod.handles
    return ⟨name, readings⟩ :: (← takeSamples node rest)

def foldSample (running : Roster (Pod α)) (gone : List String) (sample : Sample) :
    Roster (Pod α) × List String :=
  match running.get? sample.name with
  | none => (running, gone)
  | some pod =>
    let (present, next) := pod.recordSamples sample.readings
    (running.modify sample.name fun _ => next, if present then gone else gone ++ [sample.name])

def foldSamples (running : Roster (Pod α)) (samples : List Sample) : Roster (Pod α) × List String :=
  samples.foldl (fun (running, gone) sample => foldSample running gone sample) (running, [])

def complete (monitor : Monitor α) (name : String) : Dealing σ α (Monitor α) :=
  match monitor.running.get? name with
  | none => return monitor
  | some pod => do
    let pod ← pod.moveTo .completed
    (Event.podCompleted name pod.updates pod.queue).log
    return { monitor with
      running := monitor.running.erase name
      completed := monitor.completed.insert name pod }

def completeAll (monitor : Monitor α) : List String → Dealing σ α (Monitor α)
  | [] => return monitor
  | name :: rest => do (← monitor.complete name).completeAll rest

/-- Takes the reports of the workers in, in the order in which they arrive. -/
def takeIn (monitor : Monitor α) (samples : List Sample) : Dealing σ α (List String × Monitor α) := do
  let (running, gone) := foldSamples monitor.running samples
  return (gone, ← { monitor with running }.completeAll gone)

end Monitor
end PodBudget
