import PodBudget.Tokens

/-!
The limits of one pod for the rest of a period, in closed form. They minimise the weighted squared distance
to the usage less the value of the tokens spent. Where that spends more than the budget, the budget becomes
an equation and the minimum is taken on it.
-/
namespace PodBudget

variable {α : Type} [Number α]

def Plan.minRemaining : α := 1e-3

/-- Weights of the kinds in the objective. A positive `staticWeight` fixes them by price. Otherwise a kind
weighs more where its smoothed usage is small beside the pod's other kind, and all weigh more when the usage
departs from its average. -/
def adaptiveWeights (usage average : PerKind α) (staticWeight : α) : PerKind α :=
  if 0 < staticWeight then .of fun kind => kind.price * staticWeight
  else
    let spread := Number.total (Kind.all.map fun kind => average.get kind + 1)
    let burst := 15 * Number.total (Kind.all.map fun kind => (average.get kind + 1) / (usage.get kind + 1))
    .of fun kind => burst * kind.price * spread / (average.get kind + 1)

structure Plan (α : Type) where
  raw : PerKind α
  limits : PerKind α
  available : α
  /-- Tokens that the minimum without a budget would leave. -/
  leftover : α
  constrained : Bool
  deriving DecidableEq, Repr

namespace Plan

/-- The minimum when tokens are no object. -/
def unconstrained (usage weight : PerKind α) (available : α) : PerKind α :=
  .of fun kind => usage.get kind + kind.price * available / (2 * weight.get kind)

/-- The minimum among the limits that spend the budget to the last token. -/
def budgeted (usage weight : PerKind α) (available remaining : α) : PerKind α :=
  let rise := available / remaining - usage.pricedSum
  let spread := Number.total (Kind.all.map fun kind => kind.price * kind.price / weight.get kind)
  .of fun kind => usage.get kind + kind.price * rise / (weight.get kind * spread)

def compute (usage weight : PerKind α) (available remaining minLimit : α) : Plan α :=
  let span := Number.max remaining minRemaining
  let free := unconstrained usage weight available
  let leftover := available - span * free.pricedSum
  let constrained := !decide (0 ≤ leftover)
  let raw := if constrained then budgeted usage weight available span else free
  { raw, limits := raw.map (Number.max · minLimit), available, leftover, constrained }

def budgetRate (plan : Plan α) (remaining : α) : α :=
  plan.available / Number.max remaining minRemaining

end Plan
end PodBudget
