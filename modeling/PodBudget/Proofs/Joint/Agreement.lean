import PodBudget.Monitor.Allocation
import PodBudget.Proofs.Joint.Independence
import PodBudget.Proofs.Joint.Optimum
import PodBudget.Proofs.Plan.Optimum

/-!
Where the two ways to limits agree. If the pods' own plans respect the floors and the ceilings, the joint problem falls
apart into the problems of the single pods, and a run that keeps to the budgets comes back with the pods' own plans.
-/
namespace PodBudget.Joint

/-- What a pod of the joint problem plans for itself. -/
def Demand.plan (demand : Demand ℚ) (remaining minLimit : ℚ) : Plan ℚ :=
  .compute demand.usage demand.weight demand.available remaining minLimit

def Demand.objective (demand : Demand ℚ) : PerKind ℚ → ℚ :=
  Plan.objective demand.usage demand.weight demand.available

/-- The demand that an allocation pass makes for a pod stands for the pod's own plan. -/
theorem plan_demand (pod : Pod ℚ) (remaining : ℚ) (policy : Policy ℚ) :
    (Monitor.demand remaining pod (pod.plan remaining policy)).plan remaining policy.minLimit =
      pod.plan remaining policy := rfl

variable {n : Nat} (demands : Vector (Demand ℚ) n) (policy : Policy ℚ) (remaining : ℚ)

/-- The limits that the pods plan for themselves, before floors are applied. -/
def ownLimits : Point ℚ n := demands.map fun demand => (demand.plan remaining policy.minLimit).raw

/-- Pods that may spend what their own plans may spend, where neither a floor nor a ceiling stops these plans. -/
structure Unbound : Prop where
  positive : ∀ pod kind, 0 < (demands.get pod).weight.get kind
  rate : ∀ pod, (demands.get pod).budgetRate =
    ((demands.get pod).plan remaining policy.minLimit).budgetRate remaining
  floor : ∀ pod kind, policy.minLimit ≤ (ownLimits demands policy remaining).limit (pod, kind)
  ceiling : ∀ kind, ∑ pod, (ownLimits demands policy remaining).limit (pod, kind) ≤ policy.capacity.get kind

def WithinBudgets (point : Point ℚ n) : Prop :=
  ∀ pod, ∑ kind : Kind, kind.price * point.limit (pod, kind) ≤
    max (demands.get pod).budgetRate (∑ kind : Kind, kind.price * policy.minLimit)

instance (point : Point ℚ n) : Decidable (WithinBudgets demands policy point) :=
  inferInstanceAs (Decidable (∀ _, _))

theorem get_ownLimits (pod : Fin n) : Vector.get (ownLimits demands policy remaining) pod =
    ((demands.get pod).plan remaining policy.minLimit).raw := by
  simp [ownLimits, Linear.Equations.vector_get]

theorem objective_eq_sum (point : Point ℚ n) : objective demands point =
    ∑ pod, (demands.get pod).objective (Vector.get point pod) := by
  rw [objective, ← Finset.sum_sub_distrib]
  rfl

section own

variable {demands policy remaining} (unbound : Unbound demands policy remaining)
include unbound

theorem budget_eq (pod : Fin n) :
    max (demands.get pod).budgetRate (∑ kind : Kind, kind.price * policy.minLimit) =
      (demands.get pod).available / max remaining (1 / 1000) := by
  have rate : (demands.get pod).budgetRate = (demands.get pod).available / max remaining (1 / 1000) := by
    rw [unbound.rate pod, Plan.budgetRate, Number.max_eq, Plan.minRemaining_eq]
    rfl
  have covered : ((demands.get pod).plan remaining policy.minLimit).raw.cost ≤
      (demands.get pod).available / max remaining (1 / 1000) := Plan.cost_raw_le (unbound.positive pod)
  have floors : ∑ kind : Kind, kind.price * policy.minLimit ≤
      ((demands.get pod).plan remaining policy.minLimit).raw.cost := by
    rw [← get_ownLimits]
    exact Finset.sum_le_sum fun kind _ => mul_le_mul_of_nonneg_left (unbound.floor pod kind) kind.price_pos.le
  rw [rate, max_eq_left (floors.trans covered)]

theorem withinBudgets_own : WithinBudgets demands policy (ownLimits demands policy remaining) := by
  intro pod
  rw [budget_eq unbound]
  change (Vector.get (ownLimits demands policy remaining) pod).cost ≤ _
  rw [get_ownLimits]
  exact Plan.cost_raw_le (unbound.positive pod)

/-- Under the budgets alone the pods' own plans are the only minimum: each pod does best for itself. -/
theorem strictMinimum_own :
    StrictMinimum (objective demands) (WithinBudgets demands policy) (ownLimits demands policy remaining) := by
  refine ⟨withinBudgets_own unbound, fun point within differs => ?_⟩
  have least (pod : Fin n) : StrictMinimum (demands.get pod).objective
      (fun limits => max remaining (1 / 1000) * limits.cost ≤ (demands.get pod).available)
      (Vector.get (ownLimits demands policy remaining) pod) := by
    rw [get_ownLimits]
    exact Plan.strictMinimum_raw (unbound.positive pod)
  have cheap (pod : Fin n) :
      max remaining (1 / 1000) * (Vector.get point pod).cost ≤ (demands.get pod).available := by
    have spent := within pod
    rw [budget_eq unbound] at spent
    exact (le_div_iff₀' (Plan.span_pos remaining)).mp spent
  obtain ⟨pod, moved⟩ : ∃ pod, Vector.get point pod ≠ Vector.get (ownLimits demands policy remaining) pod := by
    by_contra same
    refine differs (Point.ext_limit fun unknown => ?_)
    rw [Point.limit, Point.limit, not_not.mp (not_exists.mp same unknown.1)]
  rw [objective_eq_sum, objective_eq_sum]
  refine Finset.sum_lt_sum (fun other _ => ?_) ⟨pod, Finset.mem_univ _, (least pod).less _ (cheap pod) moved⟩
  by_cases stays : Vector.get point other = Vector.get (ownLimits demands policy remaining) other
  · rw [stays]
  · exact ((least other).less _ (cheap other) stays).le

theorem feasible_own : Feasible demands policy (ownLimits demands policy remaining) :=
  ⟨withinBudgets_own unbound, unbound.ceiling, unbound.floor⟩

/-- A stationary point with no negative multiplier has no better one under its working constraints, and the pods' own
plans have no better one under the budgets; so a stationary point within the budgets is the plans. -/
theorem Stationary.Balances.eq_own {working : List (Constraint n)} {target : Stationary ℚ n working.length}
    (balances : target.Balances demands policy working)
    (nonneg : ∀ i : Fin working.length, 0 ≤ target.multipliers.get i)
    (within : WithinBudgets demands policy target.point) : target.point = ownLimits demands policy remaining := by
  by_contra differs
  have less := (strictMinimum_own unbound).less target.point within differs
  have least := balances.lt_objective unbound.positive nonneg (feasible_own unbound) (Ne.symm differs)
  exact lt_asymm less least

end own

/-- Where neither floors nor ceilings stop the pods' own plans, these are the only minimum of the joint problem. A run
that ends exactly at a stationary point without negative multipliers returns them if that point keeps to the budgets,
and only then; a run in which no tolerance decides always keeps to them. -/
theorem agreement_of_unbound (demands : Vector (Demand ℚ) n) (policy : Policy ℚ) (remaining : ℚ)
    (unbound : Unbound demands policy remaining) :
    StrictMinimum (objective demands) (Feasible demands policy) (ownLimits demands policy remaining) ∧
    ∀ search ∈ trail demands policy, search.pass demands policy = .ok .settled →
      ∀ solution, (stationarySystem demands search.working policy).solve = .ok solution →
        (stationarySystem demands search.working policy).Solves solution →
        (Stationary.ofSolution solution).point = search.point →
        (∀ i, 0 ≤ (Stationary.ofSolution solution).multipliers.get i) →
        ((∃ result, solve demands policy = .ok result ∧ result.limits = ownLimits demands policy remaining) ↔
          WithinBudgets demands policy search.point) ∧
        (ToleranceFree demands policy → WithinBudgets demands policy search.point) := by
  have least := strictMinimum_own unbound
  refine ⟨⟨feasible_own unbound, fun point feasible => least.less point feasible.budget⟩, ?_⟩
  intro search member settled solution solved exactly there nonneg
  have balances := (solves_iff_balances demands policy search.working solution).mp exactly
  have finished := solve_of_settled member settled
  refine ⟨⟨?_, ?_⟩, ?_⟩
  · rintro ⟨result, returned, own⟩ pod
    obtain ⟨-, limits, -⟩ := (finish_ok_iff search _ policy result).mp (finished.symm.trans returned)
    refine le_trans (Finset.sum_le_sum fun kind _ => ?_) (withinBudgets_own unbound pod)
    rw [← own, limits]
    exact mul_le_mul_of_nonneg_left (le_max_left _ _) kind.price_pos.le
  · intro within
    have own : search.point = ownLimits demands policy remaining :=
      there.symm.trans (balances.eq_own unbound nonneg (there ▸ within))
    obtain ⟨result, ends, limits⟩ := finish_of_feasible (own ▸ feasible_own unbound) (trail demands policy).length
    exact ⟨result, finished.trans ends, limits.trans own⟩
  · intro free
    exact (regular_of_trail unbound.positive free member).feasible.budget

/-- A pod that its budget stops and one that it does not. -/
def mixed : Vector (Demand ℚ) 2 := #v[⟨⟨40, 5⟩, ⟨10, 5⟩, 200, 200⟩, ⟨⟨10, 5⟩, ⟨100, 100⟩, 1000, 1000⟩]

private def mixedSearch : Search ℚ 2 := ⟨#v[⟨905 / 19, 965 / 19⟩, ⟨15, 20⟩], [.budget 0]⟩

private def mixedSolution : Vector ℚ (2 * 2 + mixedSearch.working.length) := #v[905 / 19, 965 / 19, 15, 20, 900 / 19]

theorem agreement_of_unbound_mixed :
    Unbound mixed .default 1 ∧ mixedSearch ∈ trail mixed .default ∧
      mixedSearch.pass mixed .default = .ok .settled ∧
      (stationarySystem mixed mixedSearch.working .default).solve = .ok mixedSolution ∧
      (stationarySystem mixed mixedSearch.working .default).Solves mixedSolution ∧
      (Stationary.ofSolution mixedSolution).point = mixedSearch.point ∧
      (∀ i, 0 ≤ (Stationary.ofSolution mixedSolution).multipliers.get i) ∧
      WithinBudgets mixed .default mixedSearch.point ∧
      ∃ result, solve mixed .default = .ok result ∧ result.limits = ownLimits mixed .default 1 := by
  have unbound : Unbound mixed .default 1 :=
    ⟨by decide +kernel, by decide +kernel, by decide +kernel, by decide +kernel⟩
  have member : mixedSearch ∈ trail mixed .default := by decide +kernel
  have settled : mixedSearch.pass mixed .default = .ok .settled := by decide +kernel
  have solved : (stationarySystem mixed mixedSearch.working .default).solve = .ok mixedSolution := by decide +kernel
  have exactly : (stationarySystem mixed mixedSearch.working .default).Solves mixedSolution := by decide +kernel
  have there : (Stationary.ofSolution mixedSolution).point = mixedSearch.point := by decide +kernel
  have nonneg : ∀ i, 0 ≤ (Stationary.ofSolution mixedSolution).multipliers.get i := by decide +kernel
  have within : WithinBudgets mixed .default mixedSearch.point := by decide +kernel
  obtain ⟨-, run⟩ := agreement_of_unbound mixed .default 1 unbound
  have agrees := (run mixedSearch member settled mixedSolution solved exactly there nonneg).1.mpr within
  exact ⟨unbound, member, settled, solved, exactly, there, nonneg, within, agrees⟩

/-- A small pod beside one whose limits are so large that the small one's budget lies within the tolerance for steps. -/
def uneven : Vector (Demand ℚ) 2 :=
  #v[⟨⟨10, 8⟩, ⟨21, 21⟩, 42, 42⟩, ⟨⟨1000, 0⟩, ⟨1, 1⟩, 20000000000, 20000000000⟩]

def ample : Policy ℚ := { Policy.default with capacity := ⟨100000000000, 100000000000⟩ }

private def unevenSearch : Search ℚ 2 := ⟨#v[⟨11, 11⟩, ⟨2000000900, 5999999700⟩], [.budget 1]⟩

private def unevenSolution : Vector ℚ (2 * 2 + unevenSearch.working.length) :=
  #v[11, 11, 2000000900, 5999999700, 16000000200]

/-- The run passes over the small pod's budget, and ends exactly where the pod takes 44 tokens per second of 42. -/
theorem limits_ne_own_uneven :
    Unbound uneven ample 1 ∧ unevenSearch ∈ trail uneven ample ∧ unevenSearch.pass uneven ample = .ok .settled ∧
      (stationarySystem uneven unevenSearch.working ample).solve = .ok unevenSolution ∧
      (stationarySystem uneven unevenSearch.working ample).Solves unevenSolution ∧
      (Stationary.ofSolution unevenSolution).point = unevenSearch.point ∧
      (∀ i, 0 ≤ (Stationary.ofSolution unevenSolution).multipliers.get i) ∧
      solve uneven ample = .ok ⟨unevenSearch.point, 3, [.budget 1]⟩ ∧
      ownLimits uneven ample 1 = #v[⟨54 / 5, 52 / 5⟩, ⟨2000000900, 5999999700⟩] ∧
      unevenSearch.point ≠ ownLimits uneven ample 1 := by
  refine ⟨⟨?_, ?_, ?_, ?_⟩, ?_, ?_, ?_, ?_, ?_, ?_, ?_, ?_, ?_⟩ <;> decide +kernel

end PodBudget.Joint
