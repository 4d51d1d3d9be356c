import PodBudget.Proofs.Monitor.Stages

/-! Admission. A live name is refused and nothing changes; any other name gets one new record. -/
namespace PodBudget.Monitor

variable {σ α : Type}

open scoped List

theorem isLive_iff (monitor : Monitor α) (name : String) :
    monitor.isLive name = true ↔ name ∈ monitor.notReady.names ∨ name ∈ monitor.running.names := by
  rw [isLive, Bool.or_eq_true, Roster.contains_iff, Roster.contains_iff, or_comm]

variable [Number α]

/-- A pod that has been admitted, and to which nothing else has happened. -/
structure IsFresh (admission : Admission α) (pod : Pod α) : Prop where
  name : pod.name = admission.name
  status : pod.status = .notReady
  reservation : pod.reservation = admission.reservation
  queue : pod.queue = 0
  updates : pod.updates = 0
  unsettled : pod.lastUpdate = none
  usage : pod.usage = .zero
  average : pod.average = .zero
  weights : pod.weights = .zero
  limits : pod.limits = .zero
  detached : pod.handles = []
  unread : ∀ kind, (pod.resource kind).lastReading = none
  unwritten : ∀ kind, (pod.resource kind).written = false

def admitted (admission : Admission α) : Pod α :=
  { Pod.new admission.name admission.reservation with status := .notReady }

theorem isFresh_admitted (admission : Admission α) : IsFresh admission (admitted admission) :=
  ⟨rfl, rfl, rfl, rfl, rfl, rfl, rfl, rfl, rfl, rfl, rfl, fun kind => by cases kind <;> rfl,
    fun kind => by cases kind <;> rfl⟩

theorem enroll_of_live (monitor : Monitor α) (admission : Admission α) (scene : Scene σ α)
    (live : monitor.isLive admission.name = true) :
    monitor.enroll admission scene = ((false, monitor), scene) := by
  rw [enroll, if_pos live]
  rfl

def taking (monitor : Monitor α) (admission : Admission α) : Monitor α :=
  { monitor with
    completed := monitor.completed.erase admission.name
    notReady := monitor.notReady.insert admission.name (admitted admission) }

theorem enroll_of_free (monitor : Monitor α) (admission : Admission α) (scene : Scene σ α)
    (free : ¬ monitor.isLive admission.name = true) :
    monitor.enroll admission scene =
      ((true, monitor.taking admission),
        { scene with acts := scene.acts ++ [.logged (.podAdmitted admission.name admission.reservation)] }) := by
  rw [enroll, if_neg free]
  rfl

section

variable {monitor : Monitor α} {admission : Admission α} (free : ¬ monitor.isLive admission.name = true)
include free

theorem perm_taking_of_completed (known : admission.name ∈ monitor.completed.names) :
    (monitor.taking admission).tracked ~ monitor.tracked := by
  obtain ⟨fresh, _⟩ := not_or.mp ((isLive_iff monitor admission.name).not.mp free)
  calc
    _ ~ admission.name :: monitor.notReady.names ++ monitor.running.names ++
          (monitor.completed.erase admission.name).names :=
      ((Roster.perm_names_insert _ _ _ fresh).append_right _).append_right _
    _ ~ monitor.notReady.names ++ monitor.running.names ++
          admission.name :: (monitor.completed.erase admission.name).names := List.perm_middle.symm
    _ ~ monitor.tracked := (Roster.perm_names_erase _ _ known).append_left _

theorem perm_taking_of_unknown (unknown : admission.name ∉ monitor.completed.names) :
    (monitor.taking admission).tracked ~ admission.name :: monitor.tracked := by
  obtain ⟨fresh, _⟩ := not_or.mp ((isLive_iff monitor admission.name).not.mp free)
  change (monitor.notReady.insert _ _).names ++ monitor.running.names ++ (monitor.completed.erase _).names ~ _
  rw [Roster.names_erase_of_absent _ _ unknown]
  exact ((Roster.perm_names_insert _ _ _ fresh).append_right _).append_right _

theorem subset_taking : monitor.tracked ⊆ (monitor.taking admission).tracked := by
  by_cases known : admission.name ∈ monitor.completed.names
  · exact (perm_taking_of_completed free known).symm.subset
  · intro name member
    exact (perm_taking_of_unknown free known).symm.subset (List.mem_cons_of_mem _ member)

theorem staged_taking (staged : monitor.Staged) : (monitor.taking admission).Staged where
  distinct := by
    by_cases known : admission.name ∈ monitor.completed.names
    · exact (perm_taking_of_completed free known).nodup_iff.mpr staged.distinct
    · refine (perm_taking_of_unknown free known).nodup_iff.mpr (List.nodup_cons.mpr ⟨?_, staged.distinct⟩)
      have live := (isLive_iff monitor admission.name).not.mp free
      simp only [tracked, List.mem_append]
      exact not_or.mpr ⟨live, known⟩
  notReady name pod found := by
    change (monitor.notReady.insert _ _).get? name = _ at found
    rw [Roster.get?_insert] at found
    split at found
    · next same =>
      cases found
      exact ⟨same, rfl⟩
    · exact staged.notReady name pod found
  running := staged.running
  completed name pod found := by
    change (monitor.completed.erase _).get? name = _ at found
    rw [Roster.get?_erase] at found
    split at found
    · cases found
    · exact staged.completed name pod found

end

/-- A live name is refused and nothing changes. Any other name gets a fresh record, and no other record changes. -/
def Admits (monitor : Monitor α) (scene : Scene σ α) (admission : Admission α) : Prop :=
  let out := monitor.enroll admission scene
  (admission.name ∈ monitor.notReady.names ∨ admission.name ∈ monitor.running.names →
    out = ((false, monitor), scene)) ∧
  (admission.name ∉ monitor.notReady.names ∧ admission.name ∉ monitor.running.names →
    out.1.1 = true ∧
    (∃ pod, out.1.2.notReady.get? admission.name = some pod ∧ IsFresh admission pod) ∧
    ∀ other, other ≠ admission.name →
      out.1.2.notReady.get? other = monitor.notReady.get? other ∧
      out.1.2.running.get? other = monitor.running.get? other ∧
      out.1.2.completed.get? other = monitor.completed.get? other)

theorem admits (monitor : Monitor α) (scene : Scene σ α) (admission : Admission α) :
    Admits monitor scene admission := by
  constructor
  · intro live
    exact enroll_of_live monitor admission scene ((isLive_iff ..).mpr live)
  · intro absent
    have free := (isLive_iff monitor admission.name).not.mpr (not_or.mpr absent)
    rw [enroll_of_free monitor admission scene free]
    refine ⟨rfl, ⟨admitted admission, ?_, isFresh_admitted admission⟩, ?_⟩
    · rw [taking, Roster.get?_insert, if_pos rfl]
    · intro other differs
      refine ⟨?_, rfl, ?_⟩
      · rw [taking, Roster.get?_insert, if_neg (Ne.symm differs)]
      · rw [taking, Roster.get?_erase, if_neg (Ne.symm differs)]

end PodBudget.Monitor
