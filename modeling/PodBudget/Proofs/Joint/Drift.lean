import PodBudget.Proofs.Joint.Pass

/-!
How far a run may leave the constraints. Within one pass a left side grows past its bound by no more than the
tolerance for steps, so over a run the excess is at most one tolerance for each pass.
-/
namespace PodBudget.Joint

variable {n : Nat} {demands : Vector (Demand ℚ) n} {policy : Policy ℚ}

namespace Search

variable {search : Search ℚ n}

theorem reach_mul_le {step : Point ℚ n} {constraint : Constraint n}
    (approaches : search.Approaches step constraint) :
    (search.reach demands policy step).fraction * constraint.apply step ≤
      max (constraint.bound demands policy) (constraint.apply search.point) - constraint.apply search.point := by
  have along : 0 < constraint.apply step := search.tolerance_pos.trans approaches.2
  have within := (search.reach_nearest demands policy step).le_ratio constraint constraint.mem_all approaches
  rw [← ratio_mul search demands policy approaches]
  exact mul_le_mul_of_nonneg_right within along.le

/-- No pass takes a left side beyond its bound, or beyond where it was, by more than the tolerance. -/
theorem apply_point_le (exactly : search.SolvedExactly demands policy) {pass : Pass ℚ n}
    (passed : search.pass demands policy = .ok pass) (constraint : Constraint n) :
    constraint.apply (pass.point search) ≤
      max (constraint.bound demands policy) (constraint.apply search.point) + stepTolerance * search.scale := by
  have stays : constraint.apply search.point ≤
      max (constraint.bound demands policy) (constraint.apply search.point) + stepTolerance * search.scale :=
    (le_max_right _ _).trans (le_add_of_nonneg_right search.tolerance_pos.le)
  obtain ⟨solution, -, balances, outcome⟩ := outcome_of_exact exactly passed
  cases outcome with
  | released => exact stays
  | settled => exact stays
  | moved walks =>
    set step := search.stepTo (Stationary.ofSolution solution).point with step_eq
    have nearest := search.reach_nearest demands policy step
    have tolerance := search.tolerance_pos
    rw [Pass.point, walk, apply_advance]
    by_cases member : constraint ∈ search.working
    · -- the target meets the bound, so the way there lies between the bound and where it was
      have along : constraint.apply step = constraint.bound demands policy - constraint.apply search.point := by
        rw [step_eq, apply_stepTo, balances.tight constraint member]
      have left : (1 - (search.reach demands policy step).fraction) * constraint.apply search.point ≤
          (1 - (search.reach demands policy step).fraction) *
            max (constraint.bound demands policy) (constraint.apply search.point) :=
        mul_le_mul_of_nonneg_left (le_max_right _ _) (sub_nonneg.mpr nearest.le_one)
      have right : (search.reach demands policy step).fraction * constraint.bound demands policy ≤
          (search.reach demands policy step).fraction *
            max (constraint.bound demands policy) (constraint.apply search.point) :=
        mul_le_mul_of_nonneg_left (le_max_left _ _) nearest.nonneg
      rw [along]
      linarith
    · by_cases far : stepTolerance * search.scale < constraint.apply step
      · have cut : (search.reach demands policy step).fraction * constraint.apply step ≤ _ :=
          reach_mul_le ⟨member, far⟩
        linarith
      · have short : (search.reach demands policy step).fraction * constraint.apply step ≤
            1 * (stepTolerance * search.scale) :=
          (mul_le_mul_of_nonneg_left (not_lt.mp far) nearest.nonneg).trans
            (mul_le_mul_of_nonneg_right nearest.le_one tolerance.le)
        have := le_max_right (constraint.bound demands policy) (constraint.apply search.point)
        linarith

end Search

variable (demands policy)

def largestScale : ℚ := (trail demands policy).foldr (fun search most => max search.scale most) 0

variable {demands policy}

private theorem le_foldr_max {search : Search ℚ n} {searches : List (Search ℚ n)} (member : search ∈ searches) :
    search.scale ≤ searches.foldr (fun search most => max search.scale most) 0 := by
  induction searches with
  | nil => exact absurd member List.not_mem_nil
  | cons first rest ih =>
    rw [List.foldr_cons]
    rcases List.mem_cons.mp member with rfl | later
    · exact le_max_left _ _
    · exact (ih later).trans (le_max_right _ _)

theorem scale_le_largest {search : Search ℚ n} (member : search ∈ trail demands policy) :
    search.scale ≤ largestScale demands policy :=
  le_foldr_max member

theorem tolerance_le_largest {search : Search ℚ n} (member : search ∈ trail demands policy) :
    stepTolerance * search.scale ≤ stepTolerance * largestScale demands policy :=
  mul_le_mul_of_nonneg_left (scale_le_largest member) stepTolerance_pos.le

section run

variable (exactly : ∀ search ∈ trail demands policy, search.SolvedExactly demands policy)
include exactly

theorem apply_le_of_trail {constraint : Constraint n}
    (start : constraint.apply (Search.start n policy).point ≤ constraint.bound demands policy)
    (number : Nat) (search : Search ℚ n) (found : (trail demands policy)[number]? = some search) :
    constraint.apply search.point ≤
      constraint.bound demands policy + number * (stepTolerance * largestScale demands policy) := by
  refine trail_induction (motive := fun number search => constraint.apply search.point ≤
    constraint.bound demands policy + number * (stepTolerance * largestScale demands policy)) ?_ ?_ number search found
  · simpa using start
  · intro number search next member following within
    obtain ⟨pass, passed, reached, -⟩ := Search.pass_of_next following
    have grown := Search.apply_point_le (exactly search member) passed constraint
    have size := tolerance_le_largest member
    rw [reached] at grown
    have drift : 0 ≤ number * (stepTolerance * largestScale demands policy) :=
      mul_nonneg number.cast_nonneg (search.tolerance_pos.le.trans size)
    have before := max_le (le_add_of_nonneg_right drift) within
    push_cast
    linarith

/-- A constraint that holds at the start is exceeded at the end by at most one tolerance for each pass. -/
theorem apply_le_of_last {last : Search ℚ n} (found : (trail demands policy).getLast? = some last)
    {constraint : Constraint n}
    (start : constraint.apply (Search.start n policy).point ≤ constraint.bound demands policy) :
    constraint.apply last.point ≤ constraint.bound demands policy +
      (trail demands policy).length * (stepTolerance * largestScale demands policy) := by
  have drift : 0 ≤ stepTolerance * largestScale demands policy :=
    last.tolerance_pos.le.trans (tolerance_le_largest (List.mem_of_getLast? found))
  have fewer : (((trail demands policy).length - 1 : Nat) : ℚ) ≤ (trail demands policy).length := by
    exact_mod_cast Nat.sub_le _ _
  have within := mul_le_mul_of_nonneg_right fewer drift
  rw [List.getLast?_eq_getElem?] at found
  have reached := apply_le_of_trail exactly start _ last found
  linarith

end run

theorem budget_start (pod : Fin n) :
    (Constraint.budget pod).apply (Search.start n policy).point ≤ (Constraint.budget pod).bound demands policy := by
  rw [Constraint.apply_budget, Constraint.bound_budget]
  simp only [Search.limit_start]
  exact le_max_right _ _

theorem floor_start (pod : Fin n) (kind : Kind) :
    (Constraint.floor pod kind).apply (Search.start n policy).point ≤
      (Constraint.floor pod kind).bound demands policy := by
  rw [Constraint.apply_floor, Search.limit_start]
  rfl

/-- What a run promises of its result: floors and capacities, and budgets up to the drift of its passes. -/
structure Kept (demands : Vector (Demand ℚ) n) (policy : Policy ℚ) (solution : Solution ℚ n) : Prop where
  passes : solution.passes = (trail demands policy).length
  floor : ∀ pod kind, policy.minLimit ≤ solution.limits.limit (pod, kind)
  ceiling : ∀ kind, ∑ pod, solution.limits.limit (pod, kind) ≤ policy.capacity.get kind + capacityTolerance
  budget : ∀ pod, ∑ kind : Kind, kind.price * solution.limits.limit (pod, kind) ≤
    max (demands.get pod).budgetRate (∑ kind : Kind, kind.price * policy.minLimit) +
      (1 + ∑ kind : Kind, kind.price) * solution.passes * stepTolerance * largestScale demands policy

theorem kept_of_solve (exactly : ∀ search ∈ trail demands policy, search.SolvedExactly demands policy)
    {solution : Solution ℚ n} (solved : solve demands policy = .ok solution) : Kept demands policy solution := by
  obtain ⟨last, found, -, finished⟩ := settled_of_solve solved
  obtain ⟨-, limits, passes, -⟩ := (finish_ok_iff last _ policy solution).mp finished
  obtain ⟨floor, ceiling⟩ := within_of_solve solved
  set drift := (trail demands policy).length * (stepTolerance * largestScale demands policy) with drift_eq
  have lifted (unknown : Unknown n) : solution.limits.limit unknown ≤ last.point.limit unknown + drift := by
    have nonneg : 0 ≤ drift := mul_nonneg (Nat.cast_nonneg _)
      (last.tolerance_pos.le.trans (tolerance_le_largest (List.mem_of_getLast? found)))
    have above : -last.point.limit unknown ≤ -policy.minLimit + drift := by
      have below := apply_le_of_last exactly found (floor_start unknown.1 unknown.2)
      rwa [Constraint.apply_floor] at below
    rw [limits]
    exact max_le (le_add_of_nonneg_right nonneg) (by linarith)
  refine ⟨passes, floor, ceiling, ?_⟩
  intro pod
  have spent := apply_le_of_last exactly found (budget_start pod)
  rw [Constraint.apply_budget, Constraint.bound_budget] at spent
  have raised : ∑ kind : Kind, kind.price * solution.limits.limit (pod, kind) ≤
      ∑ kind : Kind, (kind.price * last.point.limit (pod, kind) + kind.price * drift) := by
    refine Finset.sum_le_sum fun kind _ => ?_
    rw [← mul_add]
    exact mul_le_mul_of_nonneg_left (lifted (pod, kind)) kind.price_pos.le
  rw [Finset.sum_add_distrib, ← Finset.sum_mul] at raised
  have total : (1 + ∑ kind : Kind, kind.price) * solution.passes * stepTolerance * largestScale demands policy =
      drift + (∑ kind : Kind, kind.price) * drift := by
    rw [passes, drift_eq]
    ring
  linarith

/-- Constraints along a run whose systems are solved exactly: each pass keeps every one up to the tolerance, and the
result keeps the floors, the capacities and, up to the drift of the passes, the budgets. -/
theorem kept_of_exact (demands : Vector (Demand ℚ) n) (policy : Policy ℚ) :
    (∀ search ∈ trail demands policy, search.SolvedExactly demands policy → ∀ pass,
      search.pass demands policy = .ok pass → ∀ constraint : Constraint n, constraint.apply (pass.point search) ≤
        max (constraint.bound demands policy) (constraint.apply search.point) + stepTolerance * search.scale) ∧
    ((∀ search ∈ trail demands policy, search.SolvedExactly demands policy) → ∀ solution,
      solve demands policy = .ok solution → Kept demands policy solution) := by
  constructor
  · intro search _ exactly pass passed constraint
    exact Search.apply_point_le exactly passed constraint
  · intro exactly solution solved
    exact kept_of_solve exactly solved

theorem kept_of_exact_scarce :
    (∀ search ∈ trail scarce .default, search.SolvedExactly scarce .default) ∧
      solve scarce .default = .ok ⟨#v[⟨30, 10⟩], 3, [.budget 0, .floor 0 .gpu]⟩ ∧
      Kept scarce .default ⟨#v[⟨30, 10⟩], 3, [.budget 0, .floor 0 .gpu]⟩ := by
  have exactly : ∀ search ∈ trail scarce .default, search.SolvedExactly scarce .default := by decide +kernel
  have solved : solve scarce .default = .ok ⟨#v[⟨30, 10⟩], 3, [.budget 0, .floor 0 .gpu]⟩ := by decide +kernel
  exact ⟨exactly, solved, (kept_of_exact scarce .default).2 exactly _ solved⟩

end PodBudget.Joint
