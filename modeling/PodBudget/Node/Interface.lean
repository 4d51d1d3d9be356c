import PodBudget.Node.Probe
import PodBudget.Event
import PodBudget.Lifecycle

/-!
The node as its controller meets it. A node is any state with four operations, and nothing is assumed of what
they answer: pods may come and go, reads and writes may fail. What is asked of it is recorded act by act,
together with the journal, so that the order of reads, writes and events can be read off a run.
-/
namespace PodBudget

/-- A node over its state `σ`, whose limits are numbers of `α`. -/
structure Node (σ α : Type) where
  resolve : σ → String → Option (PerKind String) × σ
  read : σ → Node.Handle → Except Node.ProbeFault Node.Reading × σ
  write : σ → Node.Handle → α → Except Node.ProbeFault Unit × σ
  rebalance : σ → Except Node.ProbeFault Unit × σ

/-- One dealing with the outside, with its outcome. -/
inductive Act (α : Type) where
  | resolved (pod : String) (paths : Option (PerKind String))
  | read (handle : Node.Handle) (outcome : Except Node.ProbeFault Node.Reading)
  | wrote (handle : Node.Handle) (value : α) (outcome : Except Node.ProbeFault Unit)
  | rebalanced (outcome : Except Node.ProbeFault Unit)
  | logged (event : Event α)
  | refused (regression : Regression)

namespace Act

variable {α : Type}

def event? : Act α → Option (Event α)
  | .logged event => some event
  | _ => none

def written? : Act α → Option (Node.Handle × α)
  | .wrote handle value (.ok ()) => some (handle, value)
  | _ => none

def isRebalance : Act α → Bool
  | .rebalanced _ => true
  | _ => false

def isFailedWrite : Act α → Bool
  | .wrote _ _ (.error _) => true
  | _ => false

def regression? : Act α → Option Regression
  | .refused regression => some regression
  | _ => none

end Act

/-- The state of a node and what has been done to it, oldest first. -/
structure Scene (σ α : Type) where
  node : σ
  acts : List (Act α)

/-- A computation that deals with a node. -/
abbrev Dealing (σ α β : Type) := StateM (Scene σ α) β

namespace Node

variable {σ α : Type}

def askPaths (node : Node σ α) (pod : String) : Dealing σ α (Option (PerKind String)) := fun scene =>
  let (paths, state) := node.resolve scene.node pod
  (paths, ⟨state, scene.acts ++ [.resolved pod paths]⟩)

def readCounter (node : Node σ α) (handle : Handle) : Dealing σ α (Except ProbeFault Reading) := fun scene =>
  let (outcome, state) := node.read scene.node handle
  (outcome, ⟨state, scene.acts ++ [.read handle outcome]⟩)

def writeLimit (node : Node σ α) (handle : Handle) (value : α) : Dealing σ α (Except ProbeFault Unit) :=
  fun scene =>
    let (outcome, state) := node.write scene.node handle value
    (outcome, ⟨state, scene.acts ++ [.wrote handle value outcome]⟩)

def notify (node : Node σ α) : Dealing σ α (Except ProbeFault Unit) := fun scene =>
  let (outcome, state) := node.rebalance scene.node
  (outcome, ⟨state, scene.acts ++ [.rebalanced outcome]⟩)

end Node

def Event.log {σ α : Type} (event : Event α) : Dealing σ α Unit := fun scene =>
  ((), { scene with acts := scene.acts ++ [.logged event] })

def Regression.note {σ α : Type} (regression : Regression) : Dealing σ α Unit := fun scene =>
  ((), { scene with acts := scene.acts ++ [.refused regression] })

end PodBudget
