import PodBudget.Pod
import PodBudget.Roster

/-! The state of a node as it is published: one record for each pod it knows, by stage. -/
namespace PodBudget

structure ResourceSnapshot (α : Type) where
  kind : Kind
  limit : α
  usage : α
  average : α
  weight : α
  deriving DecidableEq, Repr

structure PodSnapshot (α : Type) where
  name : String
  status : PodStatus
  reservation : α
  queue : α
  updates : Nat
  resources : List (ResourceSnapshot α)
  deriving DecidableEq, Repr

structure NodeSnapshot (α : Type) where
  node : String
  takenAt : Int
  running : List (PodSnapshot α)
  notReady : List (PodSnapshot α)
  completed : List (PodSnapshot α)
  deriving DecidableEq, Repr

def NodeSnapshot.blank {α : Type} (node : String) : NodeSnapshot α := ⟨node, 0, [], [], []⟩

variable {α : Type} [Number α]

def Resource.snapshot (resource : Resource α) : ResourceSnapshot α where
  kind := resource.kind
  limit := resource.limit
  usage := resource.usage
  average := resource.average
  weight := resource.weight

def Pod.snapshot (pod : Pod α) : PodSnapshot α where
  name := pod.name
  status := pod.status
  reservation := pod.reservation
  queue := pod.queue
  updates := pod.updates
  resources := Kind.all.map fun kind => (pod.resource kind).snapshot

end PodBudget
