import Mathlib.Logic.Equiv.Basic
import PodBudget.Proofs.Joint.Optimum
import PodBudget.Proofs.Plan.Optimum

/-!
The order of the pods. The joint problem does not know it: to the points of a problem belong the reordered points of
the reordered problem, with the same objective. So two runs that end at the minimum, each on its own way, give a pod the
same limits wherever it stands, and pods that demand the same get the same.
-/
namespace PodBudget

theorem StrictMinimum.eq {β : Type} {objective : β → ℚ} {allowed : β → Prop} {best other : β}
    (first : StrictMinimum objective allowed best) (second : StrictMinimum objective allowed other) : best = other := by
  by_contra differ
  exact lt_asymm (first.less other second.admitted (Ne.symm differ)) (second.less best first.admitted differ)

namespace Joint

variable {n : Nat}

def reorder {β : Type} (order : Equiv.Perm (Fin n)) (values : Vector β n) : Vector β n :=
  Vector.ofFn fun pod => values.get (order pod)

section

variable (order : Equiv.Perm (Fin n))

@[simp] theorem get_reorder {β : Type} (values : Vector β n) (pod : Fin n) :
    (reorder order values).get pod = values.get (order pod) := by
  simp [reorder, Linear.Equations.vector_get]

@[simp] theorem limit_reorder (point : Point ℚ n) (pod : Fin n) (kind : Kind) :
    Point.limit (reorder order point) (pod, kind) = point.limit (order pod, kind) := by
  simp [Point.limit]

theorem reorder_symm {β : Type} (values : Vector β n) : reorder order (reorder order.symm values) = values := by
  ext i bound
  simp [reorder, Linear.Equations.vector_get]

theorem objective_reorder (demands : Vector (Demand ℚ) n) (point : Point ℚ n) :
    objective (reorder order demands) (reorder order point) = objective demands point := by
  simp only [objective, get_reorder, limit_reorder]
  congr 1
  · exact Equiv.sum_comp order fun pod => ∑ kind, (demands.get pod).weight.get kind *
      (point.limit (pod, kind) - (demands.get pod).usage.get kind) ^ 2
  · exact Equiv.sum_comp order fun pod =>
      (demands.get pod).available * ∑ kind : Kind, kind.price * point.limit (pod, kind)

theorem feasible_reorder (demands : Vector (Demand ℚ) n) (policy : Policy ℚ) (point : Point ℚ n) :
    Feasible (reorder order demands) policy (reorder order point) ↔ Feasible demands policy point := by
  have totals (kind : Kind) : ∑ pod, point.limit (order pod, kind) = ∑ pod, point.limit (pod, kind) :=
    Equiv.sum_comp order fun pod => point.limit (pod, kind)
  constructor
  · rintro ⟨budget, ceiling, floor⟩
    simp only [get_reorder, limit_reorder, totals] at budget ceiling floor
    refine ⟨?_, ceiling, ?_⟩
    · intro pod
      simpa using budget (order.symm pod)
    · intro pod
      simpa using floor (order.symm pod)
  · rintro ⟨budget, ceiling, floor⟩
    constructor
    · intro pod
      simpa using budget (order pod)
    · intro kind
      simpa [totals] using ceiling kind
    · intro pod
      simpa using floor (order pod)

theorem strictMinimum_reorder {demands : Vector (Demand ℚ) n} {policy : Policy ℚ} {best : Point ℚ n}
    (least : StrictMinimum (objective demands) (Feasible demands policy) best) :
    StrictMinimum (objective (reorder order demands)) (Feasible (reorder order demands) policy)
      (reorder order best) := by
  constructor
  · exact (feasible_reorder order demands policy best).mpr least.admitted
  · intro other feasible differs
    rw [← reorder_symm order other] at feasible differs ⊢
    rw [objective_reorder, objective_reorder]
    apply least.less _ ((feasible_reorder order demands policy _).mp feasible)
    intro same
    exact differs (congrArg (reorder order) same)

theorem reorder_swap {demands : Vector (Demand ℚ) n} {pod twin : Fin n} (alike : demands.get pod = demands.get twin) :
    reorder (Equiv.swap pod twin) demands = demands := by
  ext i bound
  change (reorder (Equiv.swap pod twin) demands).get ⟨i, bound⟩ = demands.get ⟨i, bound⟩
  rw [get_reorder, Equiv.swap_apply_def]
  split_ifs with first second
  · rw [first, alike]
  · rw [second, alike]
  · rfl

end

/-- A run that returns from an exact last pass: its system is solved exactly, at the point where the search stands,
which is feasible, and no multiplier is negative. -/
structure EndsExactly (demands : Vector (Demand ℚ) n) (policy : Policy ℚ) (search : Search ℚ n)
    (solution : Vector ℚ (n * 2 + search.working.length)) (result : Solution ℚ n) : Prop where
  returned : solve demands policy = .ok result
  member : search ∈ trail demands policy
  settled : search.pass demands policy = .ok .settled
  solved : (stationarySystem demands search.working policy).solve = .ok solution
  exactly : (stationarySystem demands search.working policy).Solves solution
  there : (Stationary.ofSolution solution).point = search.point
  feasible : Feasible demands policy search.point
  nonneg : ∀ i, 0 ≤ (Stationary.ofSolution solution).multipliers.get i

theorem EndsExactly.strictMinimum {demands : Vector (Demand ℚ) n} {policy : Policy ℚ} {search : Search ℚ n}
    {solution : Vector ℚ (n * 2 + search.working.length)} {result : Solution ℚ n}
    (ends : EndsExactly demands policy search solution result)
    (positive : ∀ pod kind, 0 < (demands.get pod).weight.get kind) :
    StrictMinimum (objective demands) (Feasible demands policy) result.limits := by
  have balances := (solves_iff_balances demands policy search.working solution).mp ends.exactly
  obtain ⟨found, finished, limits⟩ := finish_of_feasible ends.feasible (trail demands policy).length
  have same : found = result :=
    Except.ok.inj (finished.symm.trans ((solve_of_settled ends.member ends.settled).symm.trans ends.returned))
  rw [← same, limits]
  constructor
  · exact ends.feasible
  · intro other feasible differs
    rw [← ends.there] at differs ⊢
    exact balances.lt_objective positive ends.nonneg feasible differs

/-- Whatever working sets a run passes on its way, where it ends exactly the order of the pods does not matter: a run
over the pods in another order that ends exactly gives the same limits in that order, and pods that demand the same get
the same. -/
theorem limits_of_reordered (demands : Vector (Demand ℚ) n) (policy : Policy ℚ)
    (positive : ∀ pod kind, 0 < (demands.get pod).weight.get kind)
    {search : Search ℚ n} {solution : Vector ℚ (n * 2 + search.working.length)} {result : Solution ℚ n}
    (ends : EndsExactly demands policy search solution result) :
    (∀ (order : Equiv.Perm (Fin n)) (other : Search ℚ n) (another : Vector ℚ (n * 2 + other.working.length))
      (reordered : Solution ℚ n), EndsExactly (reorder order demands) policy other another reordered →
      reordered.limits = reorder order result.limits) ∧
    ∀ pod twin, demands.get pod = demands.get twin →
      Vector.get result.limits pod = Vector.get result.limits twin := by
  have least := ends.strictMinimum positive
  constructor
  · intro order other another reordered turned
    have moved (pod : Fin n) (kind : Kind) : 0 < ((reorder order demands).get pod).weight.get kind := by
      rw [get_reorder]
      exact positive (order pod) kind
    exact (turned.strictMinimum moved).eq (strictMinimum_reorder order least)
  · intro pod twin alike
    have swapped := strictMinimum_reorder (Equiv.swap pod twin) least
    rw [reorder_swap alike] at swapped
    have same : result.limits = reorder (Equiv.swap pod twin) result.limits := least.eq swapped
    calc Vector.get result.limits pod
      _ = Vector.get (reorder (Equiv.swap pod twin) result.limits) pod := by rw [← same]
      _ = Vector.get result.limits twin := by rw [get_reorder, Equiv.swap_apply_left]

/-- Two pods alike, whose budgets do not buy what they use, and between them one that gets all it uses. -/
def flanked : Vector (Demand ℚ) 3 :=
  #v[⟨⟨50, 40⟩, ⟨1, 1⟩, 0, 70⟩, ⟨⟨20, 80⟩, ⟨1, 2⟩, 0, 300⟩, ⟨⟨50, 40⟩, ⟨1, 1⟩, 0, 70⟩]

private def flankedSearch : Search ℚ 3 := ⟨#v[⟨40, 10⟩, ⟨20, 80⟩, ⟨40, 10⟩], [.budget 0, .budget 2]⟩

private def turnedSearch : Search ℚ 3 := ⟨#v[⟨20, 80⟩, ⟨40, 10⟩, ⟨40, 10⟩], [.budget 1, .budget 2]⟩

private def flankedSolution : Vector ℚ (3 * 2 + flankedSearch.working.length) := #v[40, 10, 20, 80, 40, 10, 20, 20]

private def turnedSolution : Vector ℚ (3 * 2 + turnedSearch.working.length) := #v[20, 80, 40, 10, 40, 10, 20, 20]

theorem limits_of_reordered_flanked :
    (∀ pod kind, 0 < (flanked.get pod).weight.get kind) ∧
      solve flanked .default = .ok ⟨flankedSearch.point, 4, flankedSearch.working⟩ ∧
      solve (reorder (Equiv.swap 0 1) flanked) .default = .ok ⟨turnedSearch.point, 4, turnedSearch.working⟩ ∧
      turnedSearch.point = reorder (Equiv.swap 0 1) flankedSearch.point ∧
      Vector.get flankedSearch.point 0 = Vector.get flankedSearch.point 2 := by
  have positive : ∀ pod kind, 0 < (flanked.get pod).weight.get kind := by decide +kernel
  have ends : EndsExactly flanked .default flankedSearch flankedSolution
      ⟨flankedSearch.point, 4, flankedSearch.working⟩ := by
    constructor <;> decide +kernel
  have turned : EndsExactly (reorder (Equiv.swap 0 1) flanked) .default turnedSearch turnedSolution
      ⟨turnedSearch.point, 4, turnedSearch.working⟩ := by
    constructor <;> decide +kernel
  obtain ⟨orders, twins⟩ := limits_of_reordered flanked .default positive ends
  exact ⟨positive, ends.returned, turned.returned, orders _ _ _ _ turned, twins 0 2 rfl⟩

end Joint
end PodBudget
