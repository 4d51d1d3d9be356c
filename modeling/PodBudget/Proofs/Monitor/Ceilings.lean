import PodBudget.Proofs.Joint.Pass
import PodBudget.Proofs.Monitor.Acts
import PodBudget.Proofs.Plan.Optimum

/-!
The limits that a pass comes to. They are on or above the floor, and the node can hold them: to the last point where
every pod has its own plan, and up to the slack of the capacity check where all were solved jointly.
-/
namespace PodBudget

def Allocation.slack : Allocation → ℚ
  | .joint _ => Joint.capacityTolerance
  | .perPod => 0
  | .skipped => 0
  | .keptPrevious => 0

theorem Joint.violatedCeilings_eq_nil_iff (limits : List (PerKind ℚ)) (policy : Policy ℚ) :
    violatedCeilings limits policy = [] ↔ ∀ kind, (limits.map (·.get kind)).sum ≤ policy.capacity.get kind := by
  simp only [violatedCeilings, List.filter_eq_nil_iff, decide_eq_true_eq, not_lt, Number.total_eq]
  exact ⟨fun all kind => all kind (Kind.mem_all kind), fun all kind _ => all kind⟩

theorem Resource.Sets.limit_eq {resource next : Resource ℚ} {value : ℚ} {acts : List (Act ℚ)}
    (sets : resource.Sets value next acts) : next.limit = value := by
  cases sets with
  | inForce _ same => exact (beq_iff_eq.mp same).symm
  | detached _ => rfl
  | attempt _ _ => rfl

theorem Pod.Sets.limits_eq {pod next : Pod ℚ} {limits : PerKind ℚ} {acts : List (Act ℚ)}
    (sets : pod.Sets limits next acts) : next.limits = limits := by
  obtain ⟨_, _, _, cpu, gpu⟩ := sets
  exact congrArg₂ PerKind.mk cpu.limit_eq gpu.limit_eq

namespace Monitor

structure Fits (policy : Policy ℚ) (slack : ℚ) (limits : List (PerKind ℚ)) : Prop where
  floor : ∀ limit ∈ limits, ∀ kind, policy.minLimit ≤ limit.get kind
  ceiling : ∀ kind, (limits.map (·.get kind)).sum ≤ policy.capacity.get kind + slack

theorem fits_of_decides {monitor : Monitor ℚ} {remaining : ℚ} {now : Nat} {outcome : Allocation}
    {limits : List (PerKind ℚ)} (decides : Decides monitor remaining now outcome limits) :
    Fits monitor.config.policy outcome.slack limits := by
  cases decides with
  | perPod fits =>
    constructor
    · intro limit member kind
      simp only [plans, List.map_map, List.mem_map, Function.comp_apply] at member
      obtain ⟨pod, _, rfl⟩ := member
      rw [Pod.plan, Plan.get_limits]
      exact le_max_right _ _
    · intro kind
      rw [Allocation.slack, add_zero]
      exact (Joint.violatedCeilings_eq_nil_iff ..).mp fits kind
  | joint solved =>
    obtain ⟨solution, found, rfl⟩ := solve_of_solveJointly solved
    obtain ⟨floor, ceiling⟩ := Joint.within_of_solve found
    constructor
    · intro limit member kind
      obtain ⟨pod, bound, rfl⟩ := List.getElem_of_mem member
      simpa [Joint.Point.limit, Linear.Equations.vector_get] using floor ⟨pod, by simpa using bound⟩ kind
    · intro kind
      rw [Joint.sum_toList]
      exact ceiling kind

theorem Visited.limits {entries others : List (String × Pod ℚ)} {limits : List (PerKind ℚ)} {deeds : List (Deed ℚ)}
    (visited : Visited entries limits others deeds) (same : limits.length = entries.length) :
    others.map (·.2.limits) = limits := by
  induction visited with
  | done limits => exact (List.length_eq_zero_iff.mp same).symm
  | visit _ takes _ ih =>
    obtain ⟨_, _, _, sets⟩ := takes
    rw [List.map_cons, sets.limits_eq, ih (Nat.succ.inj same)]

end Monitor
end PodBudget
