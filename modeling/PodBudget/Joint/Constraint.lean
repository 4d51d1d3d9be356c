import PodBudget.Policy

/-!
The node-wide problem: the limits of all pods at once, under each pod's budget, the node's ceilings and the
floors. Every constraint reads `a · x ≤ b`; its terms list the coefficients that are not 0.
-/
namespace PodBudget.Joint

/-- What one pod brings to the joint problem. -/
structure Demand (α : Type) where
  usage : PerKind α
  weight : PerKind α
  available : α
  budgetRate : α
  deriving DecidableEq, Repr

abbrev Point (α : Type) (n : Nat) := Vector (PerKind α) n

abbrev Unknown (n : Nat) := Fin n × Kind

def Point.limit {α : Type} {n : Nat} (point : Point α n) (unknown : Unknown n) : α :=
  (Vector.get point unknown.1).get unknown.2

def unknowns (n : Nat) : List (Unknown n) :=
  (List.finRange n).flatMap fun pod => Kind.all.map fun kind => (pod, kind)

inductive Constraint (n : Nat) where
  | budget (pod : Fin n)
  | ceiling (kind : Kind)
  | floor (pod : Fin n) (kind : Kind)
  deriving DecidableEq, Repr

namespace Constraint

variable {α : Type} [Number α] {n : Nat}

/-- Every constraint of a problem with `n` pods, in the order in which a blocked step looks at them. -/
def all (n : Nat) : List (Constraint n) :=
  (List.finRange n).map .budget ++ Kind.all.map .ceiling ++
    (unknowns n).map fun unknown => .floor unknown.1 unknown.2

def floorCost (policy : Policy α) : α :=
  Number.total (Kind.all.map fun kind => kind.price * policy.minLimit)

def terms : Constraint n → List (Unknown n × α)
  | .budget pod => Kind.all.map fun kind => ((pod, kind), kind.price)
  | .ceiling kind => (List.finRange n).map fun pod => ((pod, kind), 1)
  | .floor pod kind => [((pod, kind), -1)]

/-- A budget below the cost of the floors is raised to it: the floors win. -/
def bound (demands : Vector (Demand α) n) (policy : Policy α) : Constraint n → α
  | .budget pod => Number.max (demands.get pod).budgetRate (floorCost policy)
  | .ceiling kind => policy.capacity.get kind
  | .floor _ _ => -policy.minLimit

def coefficient (constraint : Constraint n) (unknown : Unknown n) : α :=
  match (constraint.terms (α := α)).find? (fun term => term.1 == unknown) with
  | some term => term.2
  | none => 0

def apply (constraint : Constraint n) (point : Point α n) : α :=
  Number.total (constraint.terms.map fun term => term.2 * point.limit term.1)

end Constraint
end PodBudget.Joint
