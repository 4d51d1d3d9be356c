import PodBudget.Proofs.PodAccount
import PodBudget.Proofs.PodActs

/-!
Rounds of readings. A round with a missing source changes nothing at all. Of any other round every resource takes in all
readings of its kind, in the order of the round, and nothing else of the pod changes.
-/
namespace PodBudget

variable {α : Type}

theorem Node.isGone_iff (outcome : Except Node.ProbeFault Node.Reading) :
    Node.isGone outcome = true ↔ ∃ path, outcome = .error (.missing path) := by
  rcases outcome with (path | _ | _) | _ <;> simp [Node.isGone, Node.ProbeFault.isMissing]

namespace Readings

def Misses (readings : Readings) : Prop := ∃ reading ∈ readings, ∃ path, reading.2 = .error (.missing path)

theorem lost_iff (readings : Readings) : readings.lost = true ↔ readings.Misses := by
  simp only [lost, Misses, List.any_eq_true, Node.isGone_iff]

def ofKind (readings : Readings) (kind : Kind) : List (Except Node.ProbeFault Node.Reading) :=
  (readings.filter fun reading => reading.1 = kind).map (·.2)

theorem ofKind_cons (reading : Kind × Except Node.ProbeFault Node.Reading) (rest : Readings) (kind : Kind) :
    ofKind (reading :: rest) kind = if reading.1 = kind then reading.2 :: ofKind rest kind else ofKind rest kind := by
  by_cases same : reading.1 = kind <;> simp [ofKind, same]

end Readings

variable [Number α]

def Resource.recordAll (resource : Resource α) (outcomes : List (Except Node.ProbeFault Node.Reading)) : Resource α :=
  outcomes.foldl (fun resource outcome => (resource.recordSample outcome).2) resource

theorem Resource.weight_recordSample (resource : Resource α) (outcome : Except Node.ProbeFault Node.Reading) :
    (resource.recordSample outcome).2.weight = resource.weight := by
  obtain ⟨_, _, _, same⟩ := measured_recordSample resource outcome
  rw [same]

theorem Resource.weight_recordAll (resource : Resource α) (outcomes : List (Except Node.ProbeFault Node.Reading)) :
    (resource.recordAll outcomes).weight = resource.weight := by
  induction outcomes generalizing resource with
  | nil => rfl
  | cons outcome rest ih => exact (ih _).trans (weight_recordSample resource outcome)

namespace Pod

theorem resource_recordEach (pod : Pod α) {readings : Readings} (whole : readings.lost = false) (kind : Kind) :
    (pod.recordEach readings).2.resource kind = (pod.resource kind).recordAll (readings.ofKind kind) := by
  induction readings generalizing pod with
  | nil => rfl
  | cons reading rest ih =>
    obtain ⟨here, later⟩ := Bool.or_eq_false_iff.mp whole
    have present : ((pod.resource reading.1).recordSample reading.2).1 = true :=
      (Resource.present_recordSample ..).trans (congrArg Bool.not here)
    simp only [recordEach, present, ↓reduceIte]
    rw [ih _ later, resource_setResource, Readings.ofKind_cons]
    by_cases same : reading.1 = kind
    · rw [if_pos same, if_pos same.symm, same]
      rfl
    · rw [if_neg same, if_neg (Ne.symm same)]

/-- The pod after a round that was taken in. -/
structure Takes (pod : Pod α) (readings : Readings) (after : Pod α) : Prop where
  resource : ∀ kind, after.resource kind = (pod.resource kind).recordAll (readings.ofKind kind)
  name : after.name = pod.name
  status : after.status = pod.status
  reservation : after.reservation = pod.reservation
  queue : after.queue = pod.queue
  limits : after.limits = pod.limits
  weights : after.weights = pod.weights
  handles : after.handles = pod.handles
  lastUpdate : after.lastUpdate = pod.lastUpdate
  updates : after.updates = pod.updates

theorem takes_recordEach (pod : Pod α) {readings : Readings} (whole : readings.lost = false) :
    pod.Takes readings (pod.recordEach readings).2 := by
  have resource := pod.resource_recordEach whole
  have kept := pod.keeps_recordEach readings
  have rests := pod.rests_recordEach readings
  exact {
    resource
    name := kept.name
    status := kept.status
    reservation := congrArg Account.reservation rests.account
    queue := congrArg Account.queue rests.account
    limits := rests.limits
    weights := by
      refine congrArg PerKind.of (funext fun kind => ?_)
      rw [resource kind, Resource.weight_recordAll]
    handles := (pod.sameGrants_recordEach readings).sameHandles.handles
    lastUpdate := congrArg Account.lastUpdate rests.account
    updates := congrArg Account.updates rests.account }

/-- A round is refused if a source of it is missing, wherever in the round that is, and then nothing has changed. Every
other round is taken in as a whole. -/
theorem taken_of_round (pod : Pod α) (readings : Readings) :
    ((pod.recordSamples readings).1 = false ↔ readings.Misses) ∧
      (readings.Misses → (pod.recordSamples readings).2 = pod) ∧
      (¬ readings.Misses → pod.Takes readings (pod.recordSamples readings).2) := by
  refine ⟨?_, ?_, ?_⟩
  · rw [present_recordSamples, Bool.not_eq_false', Readings.lost_iff]
  · intro misses
    rw [recordSamples_eq, if_pos ((Readings.lost_iff _).mpr misses)]
  · intro present
    have whole : readings.lost = false := Bool.eq_false_iff.mpr fun lost => present ((Readings.lost_iff _).mp lost)
    rw [recordSamples_eq, whole]
    exact takes_recordEach pod whole

/-- The counter of the GPU is read three times and found unreadable once, and that of the CPU is not read. -/
private def repeated : Readings :=
  [(.gpu, .ok ⟨100, 0⟩), (.gpu, .error (.malformed "/gpu/web" "text")), (.gpu, .ok ⟨900, 1000000000⟩),
    (.gpu, .ok ⟨1300, 2000000000⟩)]

private def observed : Pod Rat := { Pod.new "web" 200 with queue := 7 }

theorem taken_of_round_repeated :
    ¬ repeated.Misses ∧ (observed.recordSamples repeated).2.gpu.average = 55 / 4 ∧
      (observed.recordSamples repeated).2.cpu = observed.cpu ∧ (observed.recordSamples repeated).2.queue = 7 ∧
      Readings.Misses ((.cpu, .ok ⟨5, 0⟩) :: repeated ++ [(.gpu, .error (.missing "/gpu/web"))]) ∧
      (observed.recordSamples ((.cpu, .ok ⟨5, 0⟩) :: repeated ++ [(.gpu, .error (.missing "/gpu/web"))])).2 =
        observed := by
  have present : ¬ repeated.Misses := by
    rw [← Readings.lost_iff]
    decide
  have gone : Readings.Misses ((.cpu, .ok ⟨5, 0⟩) :: repeated ++ [(.gpu, .error (.missing "/gpu/web"))]) := by
    rw [← Readings.lost_iff]
    decide
  have takes := (taken_of_round observed repeated).2.2 present
  refine ⟨present, ?_, takes.resource .cpu, takes.queue, gone, (taken_of_round observed _).2.1 gone⟩
  have gpu : (observed.recordSamples repeated).2.gpu = _ := takes.resource .gpu
  rw [gpu]
  decide +kernel

end Pod
end PodBudget
