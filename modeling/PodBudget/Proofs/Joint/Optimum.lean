import PodBudget.Proofs.Joint.Pass

/-!
What the last pass of a run certifies: the point that its system gives is optimal among the feasible points, up to
the tolerance for multipliers.
-/
namespace PodBudget.Joint

variable {n : Nat} {demands : Vector (Demand ℚ) n} {policy : Policy ℚ}

/-- The quality of a point as an answer, the search being where the run ended and the point its last target. -/
structure Certified (demands : Vector (Demand ℚ) n) (policy : Policy ℚ) (search : Search ℚ n)
    (target : Stationary ℚ n search.working.length) : Prop where
  near : ∀ unknown, |target.point.limit unknown - search.point.limit unknown| ≤ stepTolerance * search.scale
  optimal : ∀ point, Feasible demands policy point → objective demands target.point ≤ objective demands point +
    multiplierTolerance * ∑ i : Fin search.working.length, (search.working.get i).slack demands policy point
  unique : search.point = target.point → Feasible demands policy target.point →
    (∀ i : Fin search.working.length, 0 ≤ target.multipliers.get i) →
    ∃ result, solve demands policy = .ok result ∧ result.limits = target.point ∧
      ∀ point, Feasible demands policy point → point ≠ target.point →
        objective demands target.point < objective demands point

theorem slack_nonneg {point : Point ℚ n} (feasible : Feasible demands policy point) (constraint : Constraint n) :
    0 ≤ constraint.slack demands policy point :=
  sub_nonneg.mpr ((feasible_iff demands policy point).mp feasible constraint)

theorem finish_of_feasible {search : Search ℚ n} (feasible : Feasible demands policy search.point) (passes : Nat) :
    ∃ result, finish search passes policy = .ok result ∧ result.limits = search.point := by
  have lift (unknown : Unknown n) : max (search.point.limit unknown) policy.minLimit = search.point.limit unknown :=
    max_eq_left (feasible.floor unknown.1 unknown.2)
  refine ⟨⟨search.point, passes, search.working⟩, ?_, rfl⟩
  refine (finish_ok_iff search passes policy _).mpr ⟨fun kind => ?_, fun u => (lift u).symm, rfl, rfl⟩
  rw [Finset.sum_congr rfl fun pod _ => lift (pod, kind)]
  exact (feasible.ceiling kind).trans (le_add_of_nonneg_right capacityTolerance_pos.le)

section

variable (positive : ∀ pod kind, 0 < (demands.get pod).weight.get kind) {working : List (Constraint n)}
  {target : Stationary ℚ n working.length} (balances : target.Balances demands policy working)
include positive balances

theorem Stationary.Balances.le_objective
    (kept : ∀ i : Fin working.length, -multiplierTolerance ≤ target.multipliers.get i)
    {point : Point ℚ n} (feasible : Feasible demands policy point) :
    objective demands target.point ≤ objective demands point +
      multiplierTolerance * ∑ i : Fin working.length, (working.get i).slack demands policy point := by
  have priced : -(multiplierTolerance * ∑ i : Fin working.length, (working.get i).slack demands policy point) ≤
      ∑ i : Fin working.length, target.multipliers.get i * (working.get i).slack demands policy point := by
    rw [Finset.mul_sum, ← Finset.sum_neg_distrib]
    refine Finset.sum_le_sum fun i _ => ?_
    rw [← neg_mul]
    exact mul_le_mul_of_nonneg_right (kept i) (slack_nonneg feasible _)
  have apart := gap_nonneg positive target.point point
  rw [balances.objective_eq point]
  linarith

theorem Stationary.Balances.lt_objective (nonneg : ∀ i : Fin working.length, 0 ≤ target.multipliers.get i)
    {point : Point ℚ n} (feasible : Feasible demands policy point) (differ : point ≠ target.point) :
    objective demands target.point < objective demands point := by
  have priced : 0 ≤ ∑ i : Fin working.length,
      target.multipliers.get i * (working.get i).slack demands policy point :=
    Finset.sum_nonneg fun i _ => mul_nonneg (nonneg i) (slack_nonneg feasible _)
  have apart := gap_pos positive differ.symm
  rw [balances.objective_eq point]
  linarith

end

/-- A run that ends at a pass whose system was solved exactly ends near an optimum. -/
theorem certified_of_settled (positive : ∀ pod kind, 0 < (demands.get pod).weight.get kind) {search : Search ℚ n}
    (member : search ∈ trail demands policy) (settled : search.pass demands policy = .ok .settled)
    {solution : Vector ℚ (n * 2 + search.working.length)}
    (solved : (stationarySystem demands search.working policy).solve = .ok solution)
    (exactly : (stationarySystem demands search.working policy).Solves solution) :
    Certified demands policy search (.ofSolution solution) := by
  have balances := (solves_iff_balances demands policy search.working solution).mp exactly
  obtain ⟨found, again, outcome⟩ := Search.outcome_of_pass settled
  obtain rfl := Except.ok.inj (solved.symm.trans again)
  cases outcome with
  | settled stands kept =>
    refine ⟨?_, ?_, ?_⟩
    · intro unknown
      have within := (search.standsStill_iff _).mp stands unknown
      rwa [Search.limit_stepTo] at within
    · intro point feasible
      refine balances.le_objective positive ?_ feasible
      intro i
      exact Search.multipliers_of_release? kept _ (by simp [Linear.Equations.vector_get])
    · intro there feasible nonneg
      obtain ⟨result, finished, limits⟩ := finish_of_feasible (there ▸ feasible) (trail demands policy).length
      refine ⟨result, (solve_of_settled member settled).trans finished, limits.trans there, ?_⟩
      intro point other differ
      exact balances.lt_objective positive nonneg other differ

private def tightSearch : Search ℚ 1 := ⟨#v[⟨30, 10⟩], [.budget 0, .floor 0 .gpu]⟩

private def tightSolution : Vector ℚ (1 * 2 + tightSearch.working.length) := #v[30, 10, 40, 100]

/-- One pod wants more than its budget buys: the run ends on the budget and on one floor. -/
theorem certified_of_settled_budget :
    (∀ pod kind, 0 < (scarce.get pod).weight.get kind) ∧ tightSearch ∈ trail scarce .default ∧
      tightSearch.pass scarce .default = .ok .settled ∧
      (stationarySystem scarce tightSearch.working .default).solve = .ok tightSolution ∧
      (stationarySystem scarce tightSearch.working .default).Solves tightSolution ∧
      Certified scarce .default tightSearch (.ofSolution tightSolution) := by
  have positive : ∀ pod kind, 0 < (scarce.get pod).weight.get kind := by decide +kernel
  have member : tightSearch ∈ trail scarce .default := by decide +kernel
  have settled : tightSearch.pass scarce .default = .ok .settled := by decide +kernel
  have solved : (stationarySystem scarce tightSearch.working .default).solve = .ok tightSolution := by
    decide +kernel
  have exactly : (stationarySystem scarce tightSearch.working .default).Solves tightSolution := by
    decide +kernel
  exact ⟨positive, member, settled, solved, exactly, certified_of_settled positive member settled solved exactly⟩

end PodBudget.Joint
