import PodBudget.Pod
import PodBudget.Proofs.Dealing

/-!
The record of a pod. Sampling, charging and writing limits change what a pod uses and may spend; who the pod is,
its stage and the directories of its resources stay. No dealing of a pod alone is a move between stages.
-/
namespace PodBudget

variable {σ α : Type}

def Act.IsOrderly (act : Act α) : Prop := act.regression? = none

theorem Event.ensures_log (event : Event α) : Dealing.Ensures (σ := σ) Act.IsOrderly (fun _ => True) event.log :=
  Dealing.ensures_log event rfl

namespace Resource

variable [Number α]

theorem measured_recordSample (resource : Resource α) (outcome : Except Node.ProbeFault Node.Reading) :
    ∃ lastReading usage average,
      (resource.recordSample outcome).2 = { resource with lastReading, usage, average } := by
  unfold recordSample
  split
  · exact ⟨_, _, _, rfl⟩
  · exact ⟨_, _, _, rfl⟩
  · dsimp only
    split <;> exact ⟨_, _, _, rfl⟩

theorem kind_recordSample (resource : Resource α) (outcome : Except Node.ProbeFault Node.Reading) :
    (resource.recordSample outcome).2.kind = resource.kind := by
  obtain ⟨_, _, _, same⟩ := measured_recordSample resource outcome
  rw [same]

theorem path_recordSample (resource : Resource α) (outcome : Except Node.ProbeFault Node.Reading) :
    (resource.recordSample outcome).2.path = resource.path := by
  obtain ⟨_, _, _, same⟩ := measured_recordSample resource outcome
  rw [same]

theorem ensures_sampleUsage (node : Node σ α) (resource : Resource α) :
    Dealing.Ensures Act.IsOrderly (fun out => out.2.path = resource.path) (resource.sampleUsage node) := by
  unfold sampleUsage
  split
  · exact Dealing.ensures_pure rfl
  · refine (Dealing.ensures_readCounter node _ fun _ => rfl).bind ?_
    intro outcome _
    exact Dealing.ensures_pure (path_recordSample resource outcome)

theorem ensures_setLimit (node : Node σ α) (resource : Resource α) (value : α) :
    Dealing.Ensures Act.IsOrderly (fun out => out.2.path = resource.path) (resource.setLimit node value) := by
  unfold setLimit
  split
  · exact Dealing.ensures_pure rfl
  · split
    · exact Dealing.ensures_pure rfl
    · refine (Dealing.ensures_writeLimit node _ value fun _ => rfl).bind ?_
      rintro (fault | ⟨⟩) _
      · exact Dealing.ensures_pure rfl
      · dsimp only
        split
        · refine (Dealing.ensures_notify node fun _ => rfl).bind ?_
          intro _ _
          exact Dealing.ensures_pure rfl
        · exact Dealing.ensures_pure rfl

end Resource

namespace Pod

/-- The same pod at the same stage, with the same directories; once settled it stays settled. -/
structure Keeps (before after : Pod α) : Prop where
  name : after.name = before.name
  status : after.status = before.status
  path : ∀ kind, (after.resource kind).path = (before.resource kind).path
  settled : before.lastUpdate.isSome → after.lastUpdate.isSome

theorem Keeps.refl (pod : Pod α) : Keeps pod pod := ⟨rfl, rfl, fun _ => rfl, id⟩

theorem Keeps.trans {before middle after : Pod α} (first : Keeps before middle) (second : Keeps middle after) :
    Keeps before after where
  name := second.name.trans first.name
  status := second.status.trans first.status
  path kind := (second.path kind).trans (first.path kind)
  settled stamped := second.settled (first.settled stamped)

theorem resource_setResource (pod : Pod α) (kind other : Kind) (resource : Resource α) :
    (pod.setResource kind resource).resource other = if other = kind then resource else pod.resource other := by
  cases kind <;> cases other <;> rfl

theorem keeps_setResource (pod : Pod α) (kind : Kind) (resource : Resource α)
    (same : resource.path = (pod.resource kind).path) : Keeps pod (pod.setResource kind resource) where
  name := by cases kind <;> rfl
  status := by cases kind <;> rfl
  path other := by
    rw [resource_setResource]
    split
    · next equal => rw [equal, same]
    · rfl
  settled stamped := by cases kind <;> exact stamped

theorem keeps_stamp (pod : Pod α) (now : Nat) : Keeps pod (pod.stamp now) :=
  ⟨rfl, rfl, fun kind => by cases kind <;> rfl, fun _ => rfl⟩

theorem ensures_moveTo (pod : Pod α) (next : PodStatus) (forward : pod.status.rank < next.rank) :
    Dealing.Ensures (σ := σ) Act.IsOrderly (fun moved => moved = { pod with status := next }) (pod.moveTo next) := by
  unfold moveTo transition
  rw [if_pos forward]
  exact Dealing.ensures_pure rfl

variable [Number α]

theorem keeps_recordEach (pod : Pod α) (readings : Readings) : Keeps pod (pod.recordEach readings).2 := by
  induction readings generalizing pod with
  | nil => exact .refl pod
  | cons reading rest ih =>
    have one := keeps_setResource pod reading.1 _ (Resource.path_recordSample (pod.resource reading.1) reading.2)
    simp only [recordEach]
    split
    · exact one.trans (ih _)
    · exact one

theorem keeps_recordSamples (pod : Pod α) (readings : Readings) : Keeps pod (pod.recordSamples readings).2 := by
  unfold recordSamples
  split
  · exact .refl pod
  · exact keeps_recordEach pod readings

theorem keeps_settleQueue (pod : Pod α) (elapsed : α) (cap : QueueCap) : Keeps pod (pod.settleQueue elapsed cap) :=
  ⟨rfl, rfl, fun kind => by cases kind <;> rfl, id⟩

theorem keeps_updateWeights (pod : Pod α) (staticWeight : α) : Keeps pod (pod.updateWeights staticWeight) :=
  ⟨rfl, rfl, fun kind => by cases kind <;> rfl, id⟩

theorem ensures_writeLimits (node : Node σ α) (limits : PerKind α) (pod : Pod α) (report : ApplyReport)
    (kinds : List Kind) :
    Dealing.Ensures Act.IsOrderly (fun out => Keeps pod out.2) (pod.writeLimits node limits report kinds) := by
  induction kinds generalizing pod report with
  | nil => exact Dealing.ensures_pure (.refl pod)
  | cons kind rest ih =>
    refine ((pod.resource kind).ensures_setLimit node (limits.get kind)).bind ?_
    rintro ⟨outcome, resource⟩ same
    exact (ih _ _).weaken fun _ kept => (keeps_setResource pod kind resource same).trans kept

theorem ensures_seedLimits (node : Node σ α) (pod : Pod α) (limits : PerKind α) :
    Dealing.Ensures Act.IsOrderly (fun out => Keeps pod out.2) (pod.seedLimits node limits) :=
  ensures_writeLimits node limits pod .none Kind.all

theorem ensures_applyLimits (node : Node σ α) (pod : Pod α) (limits : PerKind α) (now : Nat) :
    Dealing.Ensures Act.IsOrderly (fun out => Keeps pod out.2) (pod.applyLimits node limits now) := by
  refine (ensures_seedLimits node pod limits).bind ?_
  rintro ⟨report, written⟩ kept
  refine Dealing.ensures_pure (kept.trans ?_)
  exact ⟨rfl, rfl, fun kind => by cases kind <;> rfl, fun _ => rfl⟩

theorem ensures_sampleAll (node : Node σ α) (pod : Pod α) (kinds : List Kind) :
    Dealing.Ensures Act.IsOrderly (Keeps pod) (pod.sampleAll node kinds) := by
  induction kinds generalizing pod with
  | nil => exact Dealing.ensures_pure (.refl pod)
  | cons kind rest ih =>
    refine ((pod.resource kind).ensures_sampleUsage node).bind ?_
    rintro ⟨present, resource⟩ same
    exact (ih _).weaken fun _ kept => (keeps_setResource pod kind resource same).trans kept

end Pod
end PodBudget
