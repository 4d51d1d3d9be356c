import Mathlib.Algebra.Order.BigOperators.Ring.Finset
import Mathlib.Tactic.Linarith
import Mathlib.Tactic.Ring
import PodBudget.Proofs.Joint.Rows

/-!
The quadratic programme that the joint problem stands for: its feasible points, its objective, and the expansion of
the objective around a point, which is exact because the objective is quadratic.
-/
namespace PodBudget.Joint

variable {n : Nat} (demands : Vector (Demand ℚ) n) (policy : Policy ℚ)

/-- Points that meet all budgets, ceilings and floors. A budget below the cost of the floors is raised to it. -/
structure Feasible (point : Point ℚ n) : Prop where
  budget : ∀ pod, ∑ kind : Kind, kind.price * point.limit (pod, kind) ≤
    max (demands.get pod).budgetRate (∑ kind : Kind, kind.price * policy.minLimit)
  ceiling : ∀ kind, ∑ pod, point.limit (pod, kind) ≤ policy.capacity.get kind
  floor : ∀ pod kind, policy.minLimit ≤ point.limit (pod, kind)

/-- Weighted squared distance to the usage, less the value of the tokens spent. -/
def objective (point : Point ℚ n) : ℚ :=
  ∑ pod, ∑ kind, (demands.get pod).weight.get kind *
      (point.limit (pod, kind) - (demands.get pod).usage.get kind) ^ 2 -
    ∑ pod, (demands.get pod).available * ∑ kind : Kind, kind.price * point.limit (pod, kind)

namespace Constraint

theorem floorCost_eq : floorCost policy = ∑ kind : Kind, kind.price * policy.minLimit := by
  rw [floorCost, Number.total_eq, Kind.sum_all]

theorem bound_budget (pod : Fin n) :
    (budget pod).bound demands policy =
      max (demands.get pod).budgetRate (∑ kind : Kind, kind.price * policy.minLimit) := by
  rw [bound, Number.max_eq, floorCost_eq]

def slack (constraint : Constraint n) (point : Point ℚ n) : ℚ :=
  constraint.bound demands policy - constraint.apply point

end Constraint

theorem feasible_iff (point : Point ℚ n) :
    Feasible demands policy point ↔
      ∀ constraint : Constraint n, constraint.apply point ≤ constraint.bound demands policy := by
  constructor
  · intro feasible constraint
    cases constraint with
    | budget pod => rw [Constraint.apply_budget, Constraint.bound_budget]; exact feasible.budget pod
    | ceiling kind => rw [Constraint.apply_ceiling]; exact feasible.ceiling kind
    | floor pod kind => rw [Constraint.apply_floor]; exact neg_le_neg (feasible.floor pod kind)
  · intro holds
    refine ⟨fun pod => ?_, fun kind => ?_, fun pod kind => ?_⟩
    · have := holds (.budget pod)
      rwa [Constraint.apply_budget, Constraint.bound_budget] at this
    · have := holds (.ceiling kind)
      rwa [Constraint.apply_ceiling] at this
    · have := holds (.floor pod kind)
      rw [Constraint.apply_floor] at this
      exact neg_le_neg_iff.mp this

instance (point : Point ℚ n) : Decidable (Feasible demands policy point) :=
  decidable_of_iff _ (feasible_iff demands policy point).symm

def weightAt (unknown : Unknown n) : ℚ := (demands.get unknown.1).weight.get unknown.2

def usageAt (unknown : Unknown n) : ℚ := (demands.get unknown.1).usage.get unknown.2

def worthAt (unknown : Unknown n) : ℚ := unknown.2.price * (demands.get unknown.1).available

theorem objective_eq (point : Point ℚ n) :
    objective demands point = ∑ u, (weightAt demands u * (point.limit u - usageAt demands u) ^ 2 -
      worthAt demands u * point.limit u) := by
  rw [objective, ← Finset.sum_sub_distrib, Fintype.sum_prod_type]
  refine Finset.sum_congr rfl fun pod _ => ?_
  rw [Finset.mul_sum, ← Finset.sum_sub_distrib]
  refine Finset.sum_congr rfl fun kind _ => ?_
  simp only [weightAt, usageAt, worthAt]
  ring

def slopeAt (point : Point ℚ n) (unknown : Unknown n) : ℚ :=
  2 * weightAt demands unknown * (point.limit unknown - usageAt demands unknown) - worthAt demands unknown

def gap (point other : Point ℚ n) : ℚ := ∑ u, weightAt demands u * (other.limit u - point.limit u) ^ 2

theorem objective_expand (point other : Point ℚ n) :
    objective demands other = objective demands point +
      slopeAt demands point ⬝ᵥ (other.limit - point.limit) + gap demands point other := by
  rw [objective_eq, objective_eq, gap, dotProduct, ← Finset.sum_add_distrib, ← Finset.sum_add_distrib]
  refine Finset.sum_congr rfl fun u _ => ?_
  simp only [slopeAt, Pi.sub_apply]
  ring

section

variable {demands} (positive : ∀ pod kind, 0 < (demands.get pod).weight.get kind)
include positive

theorem gap_nonneg (point other : Point ℚ n) : 0 ≤ gap demands point other :=
  Finset.sum_nonneg fun u _ => mul_nonneg (positive u.1 u.2).le (sq_nonneg _)

theorem gap_pos {point other : Point ℚ n} (differ : point ≠ other) : 0 < gap demands point other := by
  obtain ⟨unknown, moved⟩ : ∃ unknown, point.limit unknown ≠ other.limit unknown := by
    by_contra same
    exact differ (Point.ext_limit fun unknown => not_not.mp (not_exists.mp same unknown))
  refine Finset.sum_pos' (fun u _ => mul_nonneg (positive u.1 u.2).le (sq_nonneg _)) ⟨unknown, Finset.mem_univ _, ?_⟩
  exact mul_pos (positive unknown.1 unknown.2) (sq_pos_of_ne_zero (sub_ne_zero.mpr moved.symm))

end

end PodBudget.Joint
