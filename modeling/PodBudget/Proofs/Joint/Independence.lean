import Mathlib.LinearAlgebra.LinearIndependent.Lemmas
import PodBudget.Proofs.Joint.Pass

/-!
Runs in which no tolerance decides. Every pass of such a run starts at a feasible point, on working constraints that
are tight and independent there, and the objective falls from pass to pass. So its systems are never singular.
-/
namespace PodBudget.Joint

variable {n : Nat} (demands : Vector (Demand ℚ) n) (policy : Policy ℚ)

/-- A step that approaches no constraint outside the working set by less than the tolerance. -/
def Search.IsClear (search : Search ℚ n) (step : Point ℚ n) : Prop :=
  ∀ constraint ∉ search.working,
    constraint.apply step ≤ 0 ∨ stepTolerance * search.scale < constraint.apply step

instance (search : Search ℚ n) (step : Point ℚ n) : Decidable (search.IsClear step) :=
  inferInstanceAs (Decidable (∀ _, _))

def Search.StepsClear (search : Search ℚ n) : Prop :=
  search.OnSolution demands policy fun solution =>
    search.standsStill (search.stepTo (Stationary.ofSolution solution).point) = false →
    search.IsClear (search.stepTo (Stationary.ofSolution solution).point)

instance (search : Search ℚ n) : Decidable (search.StepsClear demands policy) :=
  inferInstanceAs (Decidable (search.OnSolution demands policy _))

/-- A run in which no tolerance decides: the floors fit the capacities, the solver is exact, and no step creeps up to
a constraint. The test for standing still may be tolerant, as a pass that stands still leaves the point where it is. -/
structure ToleranceFree : Prop where
  room : ∀ kind, n * policy.minLimit ≤ policy.capacity.get kind
  exactly : ∀ search ∈ trail demands policy, search.SolvedExactly demands policy
  clear : ∀ search ∈ trail demands policy, search.StepsClear demands policy

instance : Decidable (ToleranceFree demands policy) :=
  decidable_of_iff ((∀ kind, n * policy.minLimit ≤ policy.capacity.get kind) ∧
      (∀ search ∈ trail demands policy, search.SolvedExactly demands policy) ∧
      ∀ search ∈ trail demands policy, search.StepsClear demands policy)
    ⟨fun ⟨room, exactly, clear⟩ => ⟨room, exactly, clear⟩,
      fun ⟨room, exactly, clear⟩ => ⟨room, exactly, clear⟩⟩

/-- A feasible point on distinct, independent constraints that hold with equality there. -/
structure Search.Regular (search : Search ℚ n) : Prop where
  feasible : Feasible demands policy search.point
  tight : ∀ constraint ∈ search.working, constraint.apply search.point = constraint.bound demands policy
  distinct : search.working.Nodup
  independent : LinearIndependent ℚ fun i : Fin search.working.length => (search.working.get i).row

def Descends (before after : Search ℚ n) : Prop :=
  objective demands after.point ≤ objective demands before.point ∧
    (after.point ≠ before.point → objective demands after.point < objective demands before.point)

variable {demands policy}

theorem independent_iff {working : List (Constraint n)} (distinct : working.Nodup) :
    (LinearIndependent ℚ fun i : Fin working.length => (working.get i).row) ↔
      LinearIndepOn ℚ Constraint.row {constraint | constraint ∈ working} :=
  linearIndependent_equiv (distinct.getEquiv working)
    (f := fun constraint : {c // c ∈ working} => constraint.val.row)

theorem independent_append {working : List (Constraint n)} {blocking : Constraint n} {step : Point ℚ n}
    (independent : LinearIndepOn ℚ Constraint.row {constraint | constraint ∈ working})
    (kept : ∀ constraint ∈ working, constraint.apply step = 0) (crossed : blocking.apply step ≠ 0) :
    LinearIndepOn ℚ Constraint.row {constraint | constraint ∈ working ++ [blocking]} := by
  have grown : {c | c ∈ working ++ [blocking]} = insert blocking {c | c ∈ working} := by
    ext constraint
    simp [or_comm]
  have vanish (row : Unknown n → ℚ) (spanned : row ∈ Submodule.span ℚ (Constraint.row '' {c | c ∈ working})) :
      row ⬝ᵥ step.limit = 0 := by
    induction spanned using Submodule.span_induction with
    | mem row member =>
      obtain ⟨constraint, isWorking, rfl⟩ := member
      rw [← Constraint.apply_eq]
      exact kept constraint isWorking
    | zero => exact zero_dotProduct step.limit
    | add left right _ _ first second => rw [add_dotProduct, first, second, add_zero]
    | smul factor row _ ih => rw [smul_dotProduct, ih, smul_zero]
  rw [grown]
  refine independent.insert fun spanned => crossed ?_
  rw [Constraint.apply_eq]
  exact vanish _ spanned

namespace Search

theorem regular_start (room : ∀ kind, n * policy.minLimit ≤ policy.capacity.get kind) :
    (start n policy).Regular demands policy := by
  have independent : LinearIndepOn ℚ Constraint.row {constraint : Constraint n | constraint ∈ []} := by simp
  refine ⟨⟨?_, ?_, ?_⟩, ?_, List.nodup_nil, (independent_iff List.nodup_nil).mpr independent⟩
  · intro pod
    simp only [limit_start]
    exact le_max_right _ _
  · intro kind
    simp only [limit_start, Finset.sum_const, Finset.card_univ, Fintype.card_fin, nsmul_eq_mul]
    exact room kind
  · intro pod kind
    rw [limit_start]
  · intro constraint member
    exact absurd member List.not_mem_nil

theorem Regular.release {search : Search ℚ n} (regular : search.Regular demands policy) (spot : Nat) :
    Regular demands policy { search with working := search.working.eraseIdx spot } := by
  have fewer : search.working.eraseIdx spot ⊆ search.working := (List.eraseIdx_sublist search.working spot).subset
  have distinct : (search.working.eraseIdx spot).Nodup := regular.distinct.sublist (List.eraseIdx_sublist _ _)
  refine ⟨regular.feasible, fun constraint member => regular.tight constraint (fewer member), distinct, ?_⟩
  refine (independent_iff distinct).mpr (LinearIndepOn.mono ?_ fewer)
  exact (independent_iff regular.distinct).mp regular.independent

section walk

variable {search : Search ℚ n} (regular : search.Regular demands policy)

include regular in
theorem apply_approached {step : Point ℚ n} {constraint : Constraint n}
    (approaches : search.Approaches step constraint) :
    search.ratio demands policy step constraint * constraint.apply step =
      constraint.bound demands policy - constraint.apply search.point := by
  have within := (feasible_iff demands policy search.point).mp regular.feasible constraint
  rw [ratio_mul search demands policy approaches, max_eq_left within]

variable {target : Stationary ℚ n search.working.length} (balances : target.Balances demands policy search.working)
include regular balances

theorem apply_along {constraint : Constraint n} (member : constraint ∈ search.working) :
    constraint.apply (search.stepTo target.point) = 0 := by
  rw [apply_stepTo, balances.tight constraint member, regular.tight constraint member, sub_self]

theorem tight_walk (constraint : Constraint n)
    (member : constraint ∈ (search.walk demands policy target.point).working) :
    constraint.apply (search.walk demands policy target.point).point = constraint.bound demands policy := by
  rw [walk, apply_advance]
  rcases List.mem_append.mp member with isWorking | isBlocking
  · rw [apply_along regular balances isWorking, mul_zero, add_zero, regular.tight constraint isWorking]
  · have nearest := search.reach_nearest demands policy (search.stepTo target.point)
    obtain ⟨approaches, fraction⟩ := nearest.blocked constraint (by simpa using isBlocking)
    rw [fraction, apply_approached regular approaches, add_sub_cancel]

theorem feasible_walk (clear : search.IsClear (search.stepTo target.point)) :
    Feasible demands policy (search.walk demands policy target.point).point := by
  refine (feasible_iff demands policy _).mpr fun constraint => ?_
  have before := (feasible_iff demands policy search.point).mp regular.feasible constraint
  have nearest := search.reach_nearest demands policy (search.stepTo target.point)
  by_cases member : constraint ∈ search.working
  · exact (tight_walk regular balances constraint (List.mem_append_left _ member)).le
  · rw [walk, apply_advance]
    rcases clear constraint member with away | near
    · have back := mul_nonpos_of_nonneg_of_nonpos nearest.nonneg away
      linarith
    · have approaches : search.Approaches (search.stepTo target.point) constraint := ⟨member, near⟩
      have cut := mul_le_mul_of_nonneg_right (nearest.le_ratio constraint constraint.mem_all approaches)
        (search.tolerance_pos.trans near).le
      rw [apply_approached regular approaches] at cut
      linarith

theorem Regular.walk (clear : search.IsClear (search.stepTo target.point)) :
    (search.walk demands policy target.point).Regular demands policy := by
  have feasible := feasible_walk regular balances clear
  have tight := tight_walk regular balances
  have before := (independent_iff regular.distinct).mp regular.independent
  suffices kept : (search.walk demands policy target.point).working.Nodup ∧
      LinearIndepOn ℚ Constraint.row {c | c ∈ (search.walk demands policy target.point).working} from
    ⟨feasible, tight, kept.1, (independent_iff kept.1).mpr kept.2⟩
  cases blocked : (search.reach demands policy (search.stepTo target.point)).blocking with
  | none =>
    have same : (search.walk demands policy target.point).working = search.working := by
      simp [Search.walk, advance, blocked]
    rw [same]
    exact ⟨regular.distinct, before⟩
  | some blocking =>
    have longer : (search.walk demands policy target.point).working = search.working ++ [blocking] := by
      simp [Search.walk, advance, blocked]
    have nearest := search.reach_nearest demands policy (search.stepTo target.point)
    obtain ⟨⟨outside, ahead⟩, -⟩ := nearest.blocked blocking blocked
    rw [longer]
    constructor
    · refine regular.distinct.append (List.nodup_singleton blocking) ?_
      intro constraint member isBlocking
      exact outside (List.mem_singleton.mp isBlocking ▸ member)
    · -- the step keeps to the working constraints and crosses the one that blocks it
      exact independent_append before (fun constraint member => apply_along regular balances member)
        (search.tolerance_pos.trans ahead).ne'

theorem descends_walk (positive : ∀ pod kind, 0 < (demands.get pod).weight.get kind) :
    Descends demands search (search.walk demands policy target.point) := by
  set fraction := (search.reach demands policy (search.stepTo target.point)).fraction with fraction_eq
  have nearest := search.reach_nearest demands policy (search.stepTo target.point)
  have before := balances.objective_of_tight regular.tight
  have after := balances.objective_of_tight fun constraint member =>
    tight_walk regular balances constraint (List.mem_append_left _ member)
  have shrunk : gap demands target.point (search.walk demands policy target.point).point =
      (1 - fraction) ^ 2 * gap demands target.point search.point := by
    rw [gap, gap, Finset.mul_sum]
    refine Finset.sum_congr rfl fun unknown _ => ?_
    rw [Search.walk, limit_advance, limit_stepTo, ← fraction_eq]
    simp only [Pi.add_apply, Pi.smul_apply, Pi.sub_apply, smul_eq_mul]
    ring
  have nonneg : 0 ≤ 1 - fraction := sub_nonneg.mpr nearest.le_one
  rw [Descends, before, after, shrunk]
  constructor
  · have less : (1 - fraction) ^ 2 ≤ 1 := pow_le_one₀ nonneg (sub_le_self _ nearest.nonneg)
    have := mul_le_of_le_one_left (gap_nonneg positive target.point search.point) less
    linarith
  · intro moved
    have started : 0 < fraction := by
      refine nearest.nonneg.lt_of_ne' fun stuck => moved (Point.ext_limit fun unknown => ?_)
      rw [Search.walk, limit_advance, stuck, zero_smul, add_zero]
    have away : target.point ≠ search.point := by
      intro there
      refine moved (Point.ext_limit fun unknown => ?_)
      rw [Search.walk, limit_advance, limit_stepTo, there, sub_self, smul_zero, add_zero]
    have less : (1 - fraction) ^ 2 < 1 := pow_lt_one₀ nonneg (sub_lt_self _ started) two_ne_zero
    have := mul_lt_of_lt_one_left (gap_pos positive away) less
    linarith

end walk

theorem regular_of_next (positive : ∀ pod kind, 0 < (demands.get pod).weight.get kind) {search next : Search ℚ n}
    (exactly : search.SolvedExactly demands policy) (clear : search.StepsClear demands policy)
    (following : search.next? demands policy = some next) (regular : search.Regular demands policy) :
    next.Regular demands policy ∧ Descends demands search next := by
  obtain ⟨pass, passed, -, moved | released⟩ := pass_of_next following
  · subst moved
    obtain ⟨solution, solved, balances, outcome⟩ := outcome_of_exact exactly passed
    cases outcome with
    | moved walks =>
      exact ⟨regular.walk balances (clear solution solved walks), descends_walk regular balances positive⟩
  · subst released
    obtain ⟨solution, -, -, outcome⟩ := outcome_of_exact exactly passed
    cases outcome with
    | released => exact ⟨regular.release _, le_rfl, fun moved => absurd rfl moved⟩

end Search

section

variable (positive : ∀ pod kind, 0 < (demands.get pod).weight.get kind) (free : ToleranceFree demands policy)
include positive free

theorem regular_of_trail {search : Search ℚ n} (member : search ∈ trail demands policy) :
    search.Regular demands policy := by
  refine trail_forall (Search.regular_start free.room) ?_ search member
  intro search next member following regular
  exact (Search.regular_of_next positive (free.exactly search member) (free.clear search member) following regular).1

theorem descends_of_trail : (trail demands policy).IsChain (Descends demands) := by
  refine List.isChain_iff_getElem.mpr fun number inside => ?_
  have here := List.getElem?_eq_getElem (Nat.lt_of_succ_lt inside)
  have there := List.getElem?_eq_getElem inside
  have member := List.getElem_mem (Nat.lt_of_succ_lt inside)
  exact (Search.regular_of_next positive (free.exactly _ member) (free.clear _ member) (next_of_trail here there)
    (regular_of_trail positive free member)).2

theorem regular_of_solve {solution : Solution ℚ n} (solved : solve demands policy = .ok solution) :
    Search.Regular demands policy ⟨solution.limits, solution.working⟩ := by
  obtain ⟨last, found, -, finished⟩ := settled_of_solve solved
  have regular := regular_of_trail positive free (List.mem_of_getLast? found)
  obtain ⟨-, limits, -, working⟩ := (finish_ok_iff last _ policy solution).mp finished
  have same : solution.limits = last.point := Point.ext_limit fun unknown => by
    rw [limits, max_eq_left (regular.feasible.floor unknown.1 unknown.2)]
  rw [same, working]
  exact regular

end

variable (demands policy) in
/-- What a result counts as active is tight at its limits. -/
structure Solution.Tight (solution : Solution ℚ n) : Prop where
  working : ∀ constraint ∈ solution.working, constraint.apply solution.limits = constraint.bound demands policy
  budgets : solution.activeBudgets ≤ (Finset.univ.filter fun pod =>
    ∑ kind : Kind, kind.price * solution.limits.limit (pod, kind) =
      max (demands.get pod).budgetRate (∑ kind : Kind, kind.price * policy.minLimit)).card
  ceilings : ∀ kind ∈ solution.activeCeilings, ∑ pod, solution.limits.limit (pod, kind) = policy.capacity.get kind
  floors : solution.floorPins ≤ (Finset.univ.filter fun unknown =>
    solution.limits.limit unknown = policy.minLimit).card

private theorem countP_le_card {ι : Type} [Fintype ι] (family : ι → Constraint n)
    {belongs : Constraint n → Bool} (only : ∀ constraint, belongs constraint = true → ∃ i, family i = constraint)
    {working : List (Constraint n)} (distinct : working.Nodup) {tight : ι → Prop} [DecidablePred tight]
    (holds : ∀ i, family i ∈ working → tight i) :
    working.countP belongs ≤ (Finset.univ.filter tight).card := by
  rw [List.countP_eq_length_filter, ← List.toFinset_card_of_nodup (distinct.filter _)]
  refine le_trans (Finset.card_le_card ?_) (Finset.card_image_le (f := family))
  intro constraint member
  obtain ⟨isWorking, belonging⟩ := List.mem_filter.mp (List.mem_toFinset.mp member)
  obtain ⟨i, rfl⟩ := only constraint belonging
  exact Finset.mem_image_of_mem family (Finset.mem_filter.mpr ⟨Finset.mem_univ i, holds i isWorking⟩)

theorem Search.Regular.tight_counts {solution : Solution ℚ n}
    (regular : Search.Regular demands policy ⟨solution.limits, solution.working⟩) :
    solution.Tight demands policy := by
  refine ⟨regular.tight, ?_, ?_, ?_⟩
  · refine countP_le_card Constraint.budget ?_ regular.distinct fun pod member => ?_
    · rintro (pod | kind | ⟨pod, kind⟩) belonging
      · exact ⟨pod, rfl⟩
      · cases belonging
      · cases belonging
    · have tight := regular.tight _ member
      rwa [Constraint.apply_budget, Constraint.bound_budget] at tight
  · intro kind member
    have tight := regular.tight (.ceiling kind) (List.contains_iff_mem.mp (List.mem_filter.mp member).2)
    rwa [Constraint.apply_ceiling] at tight
  · refine countP_le_card (fun unknown : Unknown n => Constraint.floor unknown.1 unknown.2) ?_ regular.distinct
      fun unknown member => ?_
    · rintro (pod | kind | ⟨pod, kind⟩) belonging
      · cases belonging
      · cases belonging
      · exact ⟨(pod, kind), rfl⟩
    · have tight := regular.tight _ member
      rw [Constraint.apply_floor] at tight
      exact neg_injective tight

/-- Along a run in which no tolerance decides, every pass starts on an independent working set and has exactly one
target, the objective falls, and the result counts only constraints that are tight. -/
theorem regular_of_toleranceFree (positive : ∀ pod kind, 0 < (demands.get pod).weight.get kind)
    (free : ToleranceFree demands policy) :
    (∀ search ∈ trail demands policy, search.Regular demands policy ∧
      ∃! solution, (stationarySystem demands search.working policy).Solves solution) ∧
    (trail demands policy).IsChain (Descends demands) ∧
    ∀ solution, solve demands policy = .ok solution → solution.Tight demands policy := by
  refine ⟨?_, descends_of_trail positive free, ?_⟩
  · intro search member
    have regular := regular_of_trail positive free member
    exact ⟨regular, existsUnique_stationary demands policy search.working positive regular.independent⟩
  · intro solution solved
    exact (regular_of_solve positive free solved).tight_counts

theorem regular_of_toleranceFree_scarce :
    (∀ pod kind, 0 < (scarce.get pod).weight.get kind) ∧ ToleranceFree scarce .default ∧
      Search.Regular scarce .default ⟨#v[⟨30, 10⟩], [.budget 0, .floor 0 .gpu]⟩ ∧
      Solution.Tight scarce .default ⟨#v[⟨30, 10⟩], 3, [.budget 0, .floor 0 .gpu]⟩ := by
  have positive : ∀ pod kind, 0 < (scarce.get pod).weight.get kind := by decide +kernel
  have free : ToleranceFree scarce .default := by decide +kernel
  obtain ⟨passes, -, result⟩ := regular_of_toleranceFree positive free
  exact ⟨positive, free, (passes _ (by decide +kernel)).1, result _ (by decide +kernel)⟩

end PodBudget.Joint
