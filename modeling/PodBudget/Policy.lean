import PodBudget.Kind

/-! How a node turns tokens into limits: the tunables of every allocation pass. -/
namespace PodBudget

inductive QueueCap where
  | unbounded
  /-- The queue never exceeds one second of the pod's reservation. -/
  | reservation
  deriving DecidableEq, Repr

def QueueCap.name : QueueCap → String
  | .unbounded => "unbounded"
  | .reservation => "reservation"

structure Policy (α : Type) where
  /-- A positive value fixes the weights; otherwise they follow usage. -/
  staticWeight : α
  carryOver : α
  queueCap : QueueCap
  minLimit : α
  capacity : PerKind α
  initialLimits : PerKind α
  deriving DecidableEq, Repr

variable {α : Type} [Number α]

def Policy.default : Policy α where
  staticWeight := 0
  carryOver := 0
  queueCap := .unbounded
  minLimit := 10
  capacity := ⟨600, 100⟩
  initialLimits := ⟨100, 50⟩

end PodBudget
