import PodBudget.Policy

/-! The token account of a pod: what it may spend in a period, and what is left after one. -/
namespace PodBudget.Tokens

variable {α : Type} [Number α]

/-- Tokens that a pod may spend over the remaining seconds of a period. -/
def available (reservation queue remaining carryOver : α) : α :=
  reservation * remaining + carryOver * queue

/-- The queue after `elapsed` seconds: it grows by the reservation and shrinks by what the limits cost, and it
never falls below 0. -/
def settle (queue reservation : α) (limits : PerKind α) (elapsed : α) (cap : QueueCap) : α :=
  let next := Number.max (queue + reservation * elapsed - limits.pricedSum * elapsed) 0
  match cap with
  | .unbounded => next
  | .reservation => Number.min next reservation

end PodBudget.Tokens
