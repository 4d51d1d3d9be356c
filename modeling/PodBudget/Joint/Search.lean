import PodBudget.Joint.Stationary

/-!
The node-wide allocation by an active set. The search starts with every limit on its floor. Each pass solves
the stationarity system of the working set and walks towards its point until a constraint outside the set
blocks the way and joins it. A pass that does not move lets go of the working constraint with the most
negative multiplier, and the search is over when there is none.
-/
namespace PodBudget.Joint

variable {α : Type} [Number α] {n : Nat}

def multiplierTolerance : α := 1e-6

/-- Relative step up to which a pass counts as standing still. -/
def stepTolerance : α := 1e-9

def capacityTolerance : α := 1e-3

inductive JointError (α : Type) where
  | unsolved (cause : Linear.SolveError)
  | overCapacity (kind : Kind) (sum capacity : α)
  | unsettled (passes : Nat)
  deriving DecidableEq, Repr

def JointError.message : JointError α → String
  | .unsolved cause => cause.message
  | .overCapacity kind sum capacity =>
    s!"{kind.name} limits sum to {Number.fixed 3 sum}, above capacity {Number.fixed 3 capacity}"
  | .unsettled passes => s!"active set did not settle after {passes} passes"

def violatedCeilings (limits : List (PerKind α)) (policy : Policy α) : List Kind :=
  Kind.all.filter fun kind =>
    decide (policy.capacity.get kind < Number.total (limits.map (·.get kind)))

/-- Where a search stands: the limits, and the constraints held with equality, oldest first. -/
structure Search (α : Type) (n : Nat) where
  point : Point α n
  working : List (Constraint n)
  deriving DecidableEq, Repr

namespace Search

def start (n : Nat) (policy : Policy α) : Search α n where
  point := Vector.replicate n ⟨policy.minLimit, policy.minLimit⟩
  working := []

def scale (search : Search α n) : α :=
  1 + (unknowns n).foldl (fun most u => Number.max most (Number.abs (search.point.limit u))) 0

def stepTo (search : Search α n) (target : Point α n) : Point α n :=
  Vector.ofFn fun pod => .of fun kind => (Vector.get target pod).get kind - (Vector.get search.point pod).get kind

def standsStill (search : Search α n) (step : Point α n) : Bool :=
  (unknowns n).all fun u => decide (Number.abs (step.limit u) ≤ stepTolerance * search.scale)

/-- Position of the most negative multiplier, the first of equals, if one is negative beyond tolerance. -/
def release? (multipliers : List α) : Option Nat :=
  let step (best : Option (Nat × α)) (entry : α × Nat) : Option (Nat × α) :=
    if entry.1 < -multiplierTolerance then
      match best with
      | some (spot, least) => if entry.1 < least then some (entry.2, entry.1) else some (spot, least)
      | none => some (entry.2, entry.1)
    else best
  (multipliers.zipIdx.foldl step none).map (·.1)

/-- How far a step may go, and what stops it there. -/
structure Reach (α : Type) (n : Nat) where
  fraction : α
  blocking : Option (Constraint n)

def Reach.meet (search : Search α n) (demands : Vector (Demand α) n) (policy : Policy α) (step : Point α n)
    (reach : Reach α n) (constraint : Constraint n) : Reach α n :=
  if search.working.contains constraint then reach
  else
    let along := constraint.apply step
    if along ≤ stepTolerance * search.scale then reach
    else
      let ratio := Number.max ((constraint.bound demands policy - constraint.apply search.point) / along) 0
      if ratio < reach.fraction then ⟨ratio, some constraint⟩ else reach

def reach (search : Search α n) (demands : Vector (Demand α) n) (policy : Policy α) (step : Point α n) :
    Reach α n :=
  (Constraint.all n).foldl (Reach.meet search demands policy step) ⟨1, none⟩

def advance (search : Search α n) (step : Point α n) (reach : Reach α n) : Search α n where
  point := Vector.ofFn fun pod => .of fun kind =>
    (Vector.get search.point pod).get kind + reach.fraction * (Vector.get step pod).get kind
  working := search.working ++ reach.blocking.toList

inductive Pass (α : Type) (n : Nat) where
  | moved (next : Search α n)
  | released (next : Search α n)
  | settled
  deriving DecidableEq, Repr

def pass (search : Search α n) (demands : Vector (Demand α) n) (policy : Policy α) :
    Except Linear.SolveError (Pass α n) := do
  let target ← stationary demands search.working policy
  let step := search.stepTo target.point
  if search.standsStill step then
    match release? target.multipliers.toList with
    | some spot => return .released { search with working := search.working.eraseIdx spot }
    | none => return .settled
  else
    return .moved (search.advance step (search.reach demands policy step))

end Search

structure Solution (α : Type) (n : Nat) where
  limits : Point α n
  passes : Nat
  working : List (Constraint n)
  deriving DecidableEq, Repr

namespace Solution

def activeBudgets (solution : Solution α n) : Nat :=
  solution.working.countP fun | .budget _ => true | _ => false

def activeCeilings (solution : Solution α n) : List Kind :=
  Kind.all.filter fun kind => solution.working.contains (.ceiling kind)

def floorPins (solution : Solution α n) : Nat :=
  solution.working.countP fun | .floor _ _ => true | _ => false

end Solution

def checkCapacities (total : Kind → α) (policy : Policy α) : Except (JointError α) Unit :=
  Kind.all.forM fun kind =>
    let capacity := policy.capacity.get kind
    if capacity + capacityTolerance < total kind then throw (.overCapacity kind (total kind) capacity)
    else pure ()

/-- Lifts the limits of a settled search to the floors and checks the capacities once more. -/
def finish (search : Search α n) (passes : Nat) (policy : Policy α) : Except (JointError α) (Solution α n) := do
  let limits : Point α n := search.point.map fun limit => limit.map (Number.max · policy.minLimit)
  checkCapacities (fun kind => Number.total (limits.toList.map (·.get kind))) policy
  return ⟨limits, passes, search.working⟩

def maxPasses (n : Nat) : Nat := 4 * ((Constraint.all n).length + n * 2) + 4

def searchFrom (demands : Vector (Demand α) n) (policy : Policy α) (search : Search α n) (number : Nat) :
    (fuel : Nat) → Except (JointError α) (Solution α n)
  | 0 => .error (.unsettled (maxPasses n))
  | fuel + 1 =>
    match search.pass demands policy with
    | .error cause => .error (.unsolved cause)
    | .ok (.moved next) => searchFrom demands policy next (number + 1) fuel
    | .ok (.released next) => searchFrom demands policy next (number + 1) fuel
    | .ok .settled => finish search number policy

/-- Limits of all pods together. On an error the caller keeps the limits that are in force. -/
def solve (demands : Vector (Demand α) n) (policy : Policy α) : Except (JointError α) (Solution α n) := do
  checkCapacities (fun _ => Number.ofNat n * policy.minLimit) policy
  searchFrom demands policy (.start n policy) 1 (maxPasses n)

end PodBudget.Joint
