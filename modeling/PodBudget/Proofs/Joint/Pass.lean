import Mathlib.Algebra.Order.Group.MinMax
import PodBudget.Proofs.Joint.Kkt
import PodBudget.Proofs.Joint.Trail

/-!
One pass of the search. The reach of a step is the largest that no constraint outside the working set cuts short;
from this and from the stationarity system follows where a pass may go.
-/
namespace PodBudget.Joint

variable {n : Nat}

theorem stepTolerance_pos : (0 : ℚ) < stepTolerance := by decide +kernel

theorem capacityTolerance_pos : (0 : ℚ) < capacityTolerance := by decide +kernel

theorem sum_toList (point : Point ℚ n) (kind : Kind) :
    (point.toList.map (·.get kind)).sum = ∑ pod, point.limit (pod, kind) := by
  rw [← List.sum_ofFn]
  congr 1
  apply List.ext_getElem
  · simp
  · intro i left right
    simp [Point.limit, Linear.Equations.vector_get]

theorem finish_ok_iff (search : Search ℚ n) (passes : Nat) (policy : Policy ℚ) (solution : Solution ℚ n) :
    finish search passes policy = .ok solution ↔
      (∀ kind, ∑ pod, max (search.point.limit (pod, kind)) policy.minLimit ≤
        policy.capacity.get kind + capacityTolerance) ∧
      (∀ unknown, solution.limits.limit unknown = max (search.point.limit unknown) policy.minLimit) ∧
      solution.passes = passes ∧ solution.working = search.working := by
  let lifted : Point ℚ n := search.point.map fun limit => limit.map (Number.max · policy.minLimit)
  have limit_lifted (unknown : Unknown n) :
      lifted.limit unknown = max (search.point.limit unknown) policy.minLimit := by
    obtain ⟨pod, kind⟩ := unknown
    cases kind <;> simp [lifted, Point.limit, Linear.Equations.vector_get, PerKind.map, PerKind.get, Number.max_eq]
  have totals (kind : Kind) : Number.total (lifted.toList.map (·.get kind)) =
      ∑ pod, max (search.point.limit (pod, kind)) policy.minLimit := by
    rw [Number.total_eq, sum_toList]
    exact Finset.sum_congr rfl fun pod _ => limit_lifted (pod, kind)
  have finished : finish search passes policy =
      (checkCapacities (fun kind => ∑ pod, max (search.point.limit (pod, kind)) policy.minLimit) policy).map
        fun _ => ⟨lifted, passes, search.working⟩ := by
    rw [← funext totals]
    rfl
  rw [finished, ← checkCapacities_ok_iff policy]
  cases checked : checkCapacities _ policy with
  | error cause => simp [Except.map]
  | ok _ =>
    constructor
    · intro same
      obtain rfl := Except.ok.inj same
      exact ⟨rfl, limit_lifted, rfl, rfl⟩
    · rintro ⟨-, limits, rfl, working⟩
      have same : lifted = solution.limits := Point.ext_limit fun u => (limit_lifted u).trans (limits u).symm
      rw [Except.map, same, ← working]

theorem within_of_solve {demands : Vector (Demand ℚ) n} {policy : Policy ℚ} {solution : Solution ℚ n}
    (solved : solve demands policy = .ok solution) :
    (∀ pod kind, policy.minLimit ≤ solution.limits.limit (pod, kind)) ∧
      ∀ kind, ∑ pod, solution.limits.limit (pod, kind) ≤ policy.capacity.get kind + capacityTolerance := by
  obtain ⟨last, _, _, finished⟩ := settled_of_solve solved
  obtain ⟨within, limits, _⟩ := (finish_ok_iff last _ policy solution).mp finished
  simp only [limits]
  exact ⟨fun _ _ => le_max_right _ _, within⟩

namespace Search

variable (search : Search ℚ n) (demands : Vector (Demand ℚ) n) (policy : Policy ℚ)

theorem limit_start (unknown : Unknown n) : (start n policy).point.limit unknown = policy.minLimit := by
  obtain ⟨pod, kind⟩ := unknown
  cases kind <;> simp [start, Point.limit, PerKind.get, Linear.Equations.vector_get]

theorem limit_stepTo (target : Point ℚ n) :
    (search.stepTo target).limit = target.limit - search.point.limit := by
  ext unknown
  simp [stepTo, Point.limit, Linear.Equations.vector_get]

theorem limit_advance (step : Point ℚ n) (reach : Reach ℚ n) :
    (search.advance step reach).point.limit = search.point.limit + reach.fraction • step.limit := by
  ext unknown
  simp [advance, Point.limit, Linear.Equations.vector_get]

theorem apply_stepTo (constraint : Constraint n) (target : Point ℚ n) :
    constraint.apply (search.stepTo target) = constraint.apply target - constraint.apply search.point := by
  simp only [Constraint.apply_eq, limit_stepTo, dotProduct_sub]

theorem apply_advance (constraint : Constraint n) (step : Point ℚ n) (reach : Reach ℚ n) :
    constraint.apply (search.advance step reach).point =
      constraint.apply search.point + reach.fraction * constraint.apply step := by
  simp only [Constraint.apply_eq, limit_advance, dotProduct_add, dotProduct_smul, smul_eq_mul]

theorem one_le_scale : 1 ≤ search.scale :=
  le_add_of_nonneg_right (Number.le_foldl_max _ _ _)

theorem tolerance_pos : 0 < stepTolerance * search.scale :=
  mul_pos stepTolerance_pos (one_pos.trans_le search.one_le_scale)

theorem standsStill_iff (step : Point ℚ n) :
    search.standsStill step = true ↔ ∀ unknown, |step.limit unknown| ≤ stepTolerance * search.scale := by
  simp only [standsStill, List.all_eq_true, decide_eq_true_eq, Number.abs_eq]
  exact ⟨fun all unknown => all unknown (mem_unknowns unknown), fun all unknown _ => all unknown⟩

def Approaches (step : Point ℚ n) (constraint : Constraint n) : Prop :=
  constraint ∉ search.working ∧ stepTolerance * search.scale < constraint.apply step

def ratio (step : Point ℚ n) (constraint : Constraint n) : ℚ :=
  max ((constraint.bound demands policy - constraint.apply search.point) / constraint.apply step) 0

theorem ratio_mul {step : Point ℚ n} {constraint : Constraint n} (approaches : search.Approaches step constraint) :
    search.ratio demands policy step constraint * constraint.apply step =
      max (constraint.bound demands policy) (constraint.apply search.point) - constraint.apply search.point := by
  have along : 0 < constraint.apply step := search.tolerance_pos.trans approaches.2
  rw [ratio, max_mul_of_nonneg _ _ along.le, zero_mul, div_mul_cancel₀ _ along.ne', ← max_sub_sub_right, sub_self]

/-- A reach that is cut short by the nearest of the constraints seen. -/
structure Reach.Nearest (step : Point ℚ n) (seen : List (Constraint n)) (reach : Reach ℚ n) : Prop where
  nonneg : 0 ≤ reach.fraction
  le_one : reach.fraction ≤ 1
  le_ratio : ∀ constraint ∈ seen, search.Approaches step constraint →
    reach.fraction ≤ search.ratio demands policy step constraint
  blocked : ∀ constraint, reach.blocking = some constraint → search.Approaches step constraint ∧
    reach.fraction = search.ratio demands policy step constraint
  free : reach.blocking = none → reach.fraction = 1

variable {search demands policy} {step : Point ℚ n}

theorem meet_of_not {constraint : Constraint n} (spared : ¬search.Approaches step constraint) (reach : Reach ℚ n) :
    Reach.meet search demands policy step reach constraint = reach := by
  unfold Reach.meet
  split
  · rfl
  · next outside =>
    refine if_pos (not_lt.mp fun beyond => spared ⟨?_, beyond⟩)
    rwa [List.contains_iff_mem] at outside

theorem meet_of_approaches {constraint : Constraint n} (approaches : search.Approaches step constraint)
    (reach : Reach ℚ n) :
    Reach.meet search demands policy step reach constraint =
      if search.ratio demands policy step constraint < reach.fraction then
        ⟨search.ratio demands policy step constraint, some constraint⟩
      else reach := by
  unfold Reach.meet
  rw [if_neg (by rw [List.contains_iff_mem]; exact approaches.1)]
  refine (if_neg (not_le.mpr approaches.2)).trans ?_
  rw [Number.max_eq]
  rfl

theorem Reach.Nearest.meet {seen : List (Constraint n)} {reach : Reach ℚ n}
    (nearest : reach.Nearest search demands policy step seen) (constraint : Constraint n) :
    (Reach.meet search demands policy step reach constraint).Nearest search demands policy step
      (seen ++ [constraint]) := by
  by_cases approaches : search.Approaches step constraint
  · rw [meet_of_approaches approaches]
    split
    · next shorter =>
      refine ⟨le_max_right _ _, shorter.le.trans nearest.le_one, ?_, ?_, ?_⟩
      · intro other member approached
        rcases List.mem_append.mp member with earlier | last
        · exact shorter.le.trans (nearest.le_ratio other earlier approached)
        · rw [List.mem_singleton.mp last]
      · rintro other ⟨⟩
        exact ⟨approaches, rfl⟩
      · rintro ⟨⟩
    · next reached =>
      refine ⟨nearest.nonneg, nearest.le_one, ?_, nearest.blocked, nearest.free⟩
      intro other member approached
      rcases List.mem_append.mp member with earlier | last
      · exact nearest.le_ratio other earlier approached
      · rw [List.mem_singleton.mp last]
        exact not_lt.mp reached
  · rw [meet_of_not approaches]
    refine ⟨nearest.nonneg, nearest.le_one, ?_, nearest.blocked, nearest.free⟩
    intro other member approached
    rcases List.mem_append.mp member with earlier | last
    · exact nearest.le_ratio other earlier approached
    · rw [List.mem_singleton.mp last] at approached
      exact absurd approached approaches

theorem Reach.Nearest.foldl {seen : List (Constraint n)} {reach : Reach ℚ n}
    (nearest : reach.Nearest search demands policy step seen) (constraints : List (Constraint n)) :
    (constraints.foldl (Reach.meet search demands policy step) reach).Nearest search demands policy step
      (seen ++ constraints) := by
  induction constraints generalizing seen reach with
  | nil => rwa [List.append_nil]
  | cons constraint rest ih =>
    rw [List.append_cons]
    exact ih (nearest.meet constraint)

variable (search demands policy step) in
theorem reach_nearest :
    (search.reach demands policy step).Nearest search demands policy step (Constraint.all n) := by
  have whole : Reach.Nearest search demands policy step [] ⟨1, none⟩ := by
    refine ⟨zero_le_one, le_rfl, ?_, ?_, fun _ => rfl⟩
    · intro constraint member
      exact absurd member List.not_mem_nil
    · rintro constraint ⟨⟩
  exact whole.foldl (Constraint.all n)

-- a choice that every low entry makes and no entry unmakes is missing only when no entry is low
private theorem not_low_of_foldl {β γ : Type} {choose : Option β → γ → Option β} (low : γ → Prop)
    (keeps : ∀ best entry, choose (some best) entry ≠ none)
    (makes : ∀ entry, low entry → choose none entry ≠ none)
    (entries : List γ) (first : Option β) (missing : entries.foldl choose first = none) :
    first = none ∧ ∀ entry ∈ entries, ¬low entry := by
  induction entries generalizing first with
  | nil => exact ⟨missing, fun _ member => absurd member List.not_mem_nil⟩
  | cons entry rest ih =>
    obtain ⟨unmade, others⟩ := ih _ missing
    cases first with
    | some best => exact absurd unmade (keeps best entry)
    | none => exact ⟨rfl, List.forall_mem_cons.mpr ⟨fun isLow => makes entry isLow unmade, others⟩⟩

theorem multipliers_of_release? {multipliers : List ℚ} (kept : release? multipliers = none) (multiplier : ℚ)
    (member : multiplier ∈ multipliers) : -multiplierTolerance ≤ multiplier := by
  obtain ⟨spot, bound, rfl⟩ := List.getElem_of_mem member
  rw [release?, Option.map_eq_none_iff] at kept
  have none := not_low_of_foldl (fun entry : ℚ × Nat => entry.1 < -multiplierTolerance) ?_ ?_ _ _ kept
  · exact not_lt.mp (none.2 (multipliers[spot], spot) (List.mk_mem_zipIdx_iff_getElem?.mpr
      (List.getElem?_eq_getElem bound)))
  · rintro ⟨_, least⟩ entry
    dsimp only
    split
    · split <;> simp
    · simp
  · intro entry isLow
    simp [isLow]

variable (search demands policy) in
/-- The search after the step to a target, as far as the constraints let it go. -/
def walk (target : Point ℚ n) : Search ℚ n :=
  search.advance (search.stepTo target) (search.reach demands policy (search.stepTo target))

/-- What one pass does once its system is solved. -/
inductive Outcome (search : Search ℚ n) (demands : Vector (Demand ℚ) n) (policy : Policy ℚ)
    (target : Stationary ℚ n search.working.length) : Pass ℚ n → Prop where
  | moved (walks : search.standsStill (search.stepTo target.point) = false) :
    Outcome search demands policy target (.moved (search.walk demands policy target.point))
  | released (stands : search.standsStill (search.stepTo target.point) = true) (spot : Nat)
    (found : release? target.multipliers.toList = some spot) :
    Outcome search demands policy target (.released { search with working := search.working.eraseIdx spot })
  | settled (stands : search.standsStill (search.stepTo target.point) = true)
    (none : release? target.multipliers.toList = none) : Outcome search demands policy target .settled

theorem outcome_of_pass {pass : Pass ℚ n} (passed : search.pass demands policy = .ok pass) :
    ∃ solution, (stationarySystem demands search.working policy).solve = .ok solution ∧
      Outcome search demands policy (.ofSolution solution) pass := by
  unfold Search.pass stationary at passed
  cases solved : (stationarySystem demands search.working policy).solve with
  | error cause => simp [solved, bind, Except.bind, Except.map] at passed
  | ok solution =>
    refine ⟨solution, rfl, ?_⟩
    simp only [solved, Except.map, bind, Except.bind] at passed
    split at passed
    · next stands =>
      split at passed
      · next spot found =>
        obtain rfl := Except.ok.inj passed
        exact .released stands spot found
      · next none =>
        obtain rfl := Except.ok.inj passed
        exact .settled stands none
    · next walks =>
      obtain rfl := Except.ok.inj passed
      exact .moved (Bool.not_eq_true _ ▸ walks)

def Pass.point (search : Search ℚ n) : Pass ℚ n → Point ℚ n
  | .moved next => next.point
  | .released next => next.point
  | .settled => search.point

theorem pass_of_next {next : Search ℚ n} (following : search.next? demands policy = some next) :
    ∃ pass, search.pass demands policy = .ok pass ∧ pass.point search = next.point ∧
      (pass = .moved next ∨ pass = .released next) := by
  unfold next? at following
  split at following
  · next moved passed =>
    obtain rfl := Option.some.inj following
    exact ⟨_, passed, rfl, .inl rfl⟩
  · next released passed =>
    obtain rfl := Option.some.inj following
    exact ⟨_, passed, rfl, .inr rfl⟩
  · cases following

section solver

variable (search demands policy)

def OnSolution (holds : Vector ℚ (n * 2 + search.working.length) → Prop) : Prop :=
  ∀ solution, (stationarySystem demands search.working policy).solve = .ok solution → holds solution

instance (holds : Vector ℚ (n * 2 + search.working.length) → Prop) [DecidablePred holds] :
    Decidable (search.OnSolution demands policy holds) :=
  match solved : (stationarySystem demands search.working policy).solve with
  | .ok solution =>
    decidable_of_iff (holds solution)
      ⟨fun here _ again => Except.ok.inj (solved.symm.trans again) ▸ here, fun all => all solution solved⟩
  | .error _ => isTrue fun _ again => nomatch solved.symm.trans again

def SolvedExactly : Prop :=
  search.OnSolution demands policy (stationarySystem demands search.working policy).Solves

instance : Decidable (search.SolvedExactly demands policy) :=
  inferInstanceAs (Decidable (search.OnSolution demands policy _))

end solver

/-- A pass under an exact solver: what it does follows from a target that balances the working set. -/
theorem outcome_of_exact (exactly : search.SolvedExactly demands policy) {pass : Pass ℚ n}
    (passed : search.pass demands policy = .ok pass) :
    ∃ solution, (stationarySystem demands search.working policy).solve = .ok solution ∧
      (Stationary.ofSolution solution).Balances demands policy search.working ∧
      Outcome search demands policy (.ofSolution solution) pass := by
  obtain ⟨solution, solved, outcome⟩ := outcome_of_pass passed
  have balances := (solves_iff_balances demands policy search.working solution).mp (exactly solution solved)
  exact ⟨solution, solved, balances, outcome⟩

end Search
end PodBudget.Joint
