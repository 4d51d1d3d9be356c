import PodBudget.Proofs.Lockstep
import PodBudget.Proofs.PodActs

/-!
What a pod would be had it only been watched: the record without limits, weights, tokens and updates. Readings are taken
into the bare record as they are into the pod, and nothing that is written shows in it.
-/
namespace PodBudget

variable {σ α : Type} [Number α] {alike : σ → σ → Prop} {allowed : Act α → Prop}

namespace Resource

def bare (resource : Resource α) : Resource α := { resource with weight := 0, limit := 0, written := false }

theorem recordSample_bare (resource : Resource α) (outcome : Except Node.ProbeFault Node.Reading) :
    resource.bare.recordSample outcome =
      ((resource.recordSample outcome).1, (resource.recordSample outcome).2.bare) := by
  rcases outcome with (_ | _ | _) | reading
  · rfl
  · rfl
  · rfl
  · simp only [recordSample, bare]
    split <;> rfl

theorem unnoticed_setLimit {node : Node σ α} (oblivious : node.Oblivious alike) (resource : Resource α) (value : α) :
    Dealing.Unnoticed alike (fun out => out.2.bare = resource.bare) (resource.setLimit node value) := by
  unfold setLimit
  split
  · exact Dealing.unnoticed_pure rfl
  · split
    · exact Dealing.unnoticed_pure rfl
    · refine (Dealing.unnoticed_writeLimit oblivious _ value).bind ?_
      rintro (fault | ⟨⟩) _
      · exact Dealing.unnoticed_pure rfl
      · dsimp only
        split
        · refine (Dealing.unnoticed_notify oblivious).bind ?_
          intro _ _
          exact Dealing.unnoticed_pure rfl
        · exact Dealing.unnoticed_pure rfl

theorem lockstep_sampleUsage {node : Node σ α} (oblivious : node.Oblivious alike)
    (fine : ∀ handle outcome, allowed (.read handle outcome)) (resource : Resource α) :
    Dealing.Lockstep alike allowed (fun out other => other = (out.1, out.2.bare)) (resource.sampleUsage node)
      (resource.bare.sampleUsage node) := by
  have place : resource.bare.handle? = resource.handle? := rfl
  unfold sampleUsage
  rw [place]
  split
  · exact Dealing.lockstep_pure rfl
  · next handle _ =>
    refine (Dealing.lockstep_readCounter oblivious handle (fine handle)).bind ?_
    rintro _ outcome rfl
    exact Dealing.lockstep_pure (recordSample_bare resource outcome)

end Resource

namespace Pod

/-- Without limits, weights, tokens and updates, and settled as the watched record is. -/
def bare (pod : Pod α) (last : Option Nat) : Pod α :=
  { pod with cpu := pod.cpu.bare, gpu := pod.gpu.bare, queue := 0, lastUpdate := last, updates := 0 }

section

variable (pod : Pod α) (last : Option Nat)

theorem resource_bare (kind : Kind) : (pod.bare last).resource kind = (pod.resource kind).bare := by
  cases kind <;> rfl

theorem setResource_bare (kind : Kind) (resource : Resource α) :
    (pod.bare last).setResource kind resource.bare = (pod.setResource kind resource).bare last := by
  cases kind <;> rfl

theorem recordEach_bare (readings : Readings) :
    (pod.bare last).recordEach readings = ((pod.recordEach readings).1, (pod.recordEach readings).2.bare last) := by
  induction readings generalizing pod with
  | nil => rfl
  | cons reading rest ih =>
    simp only [recordEach, resource_bare, Resource.recordSample_bare, setResource_bare, ih]
    split <;> rfl

theorem recordSamples_bare (readings : Readings) :
    (pod.bare last).recordSamples readings =
      ((pod.recordSamples readings).1, (pod.recordSamples readings).2.bare last) := by
  simp only [recordSamples_eq, recordEach_bare]
  split <;> rfl

theorem movedTo_bare (next : PodStatus) : (pod.bare last).movedTo next = (pod.movedTo next).bare last := by
  unfold movedTo
  split
  · next forward => rw [if_pos (show pod.status.rank < next.rank from forward)]; rfl
  · next stays => rw [if_neg (show ¬ pod.status.rank < next.rank from stays)]

end

/-- The record of the same pod where it has only been watched. -/
def IsShadow (pod shadow : Pod α) : Prop := ∃ last, shadow = pod.bare last

def SameBare (before after : Pod α) : Prop := ∀ last, after.bare last = before.bare last

theorem SameBare.refl (pod : Pod α) : pod.SameBare pod := fun _ => rfl

theorem SameBare.trans {before middle after : Pod α} (first : before.SameBare middle)
    (second : middle.SameBare after) : before.SameBare after :=
  fun last => (second last).trans (first last)

theorem IsShadow.of_sameBare {before after shadow : Pod α} (covers : before.IsShadow shadow)
    (same : before.SameBare after) : after.IsShadow shadow := by
  obtain ⟨last, rfl⟩ := covers
  exact ⟨last, (same last).symm⟩

theorem IsShadow.handles {pod shadow : Pod α} (covers : pod.IsShadow shadow) : shadow.handles = pod.handles := by
  obtain ⟨last, rfl⟩ := covers
  rfl

theorem IsShadow.recordSamples {pod shadow : Pod α} (covers : pod.IsShadow shadow) (readings : Readings) :
    (pod.recordSamples readings).2.IsShadow (shadow.recordSamples readings).2 := by
  obtain ⟨last, rfl⟩ := covers
  exact ⟨last, congrArg Prod.snd (recordSamples_bare pod last readings)⟩

theorem IsShadow.movedTo {pod shadow : Pod α} (covers : pod.IsShadow shadow) (next : PodStatus) :
    (pod.movedTo next).IsShadow (shadow.movedTo next) := by
  obtain ⟨last, rfl⟩ := covers
  exact ⟨last, movedTo_bare pod last next⟩

theorem IsShadow.stamp {pod shadow : Pod α} (covers : pod.IsShadow shadow) (now : Nat) :
    (pod.stamp now).IsShadow (shadow.stamp now) := by
  obtain ⟨last, rfl⟩ := covers
  exact ⟨some now, rfl⟩

theorem IsShadow.attach {pod shadow : Pod α} (covers : pod.IsShadow shadow) (paths : PerKind String) :
    (pod.attach paths).IsShadow (shadow.attach paths) := by
  obtain ⟨last, rfl⟩ := covers
  exact ⟨last, rfl⟩

theorem lockstep_moveTo (noted : ∀ regression, allowed (.refused regression)) {pod shadow : Pod α}
    (covers : pod.IsShadow shadow) (next : PodStatus) :
    Dealing.Lockstep alike allowed IsShadow (pod.moveTo next) (shadow.moveTo next) := by
  intro one other same
  rw [moveTo_eq, moveTo_eq]
  refine ⟨covers.movedTo next, same, shadow.refusals next, rfl, ?_⟩
  intro act member
  unfold refusals at member
  split at member
  · cases member
  · rw [List.mem_singleton.mp member]
    exact noted _

section

variable {node : Node σ α} (oblivious : node.Oblivious alike)
include oblivious

theorem unnoticed_writeLimits (limits : PerKind α) (pod : Pod α) (report : ApplyReport) (kinds : List Kind) :
    Dealing.Unnoticed alike (fun out => pod.SameBare out.2) (pod.writeLimits node limits report kinds) := by
  induction kinds generalizing pod report with
  | nil => exact Dealing.unnoticed_pure (.refl pod)
  | cons kind rest ih =>
    refine (Resource.unnoticed_setLimit oblivious (pod.resource kind) (limits.get kind)).bind ?_
    rintro ⟨outcome, resource⟩ same
    have one : pod.SameBare (pod.setResource kind resource) := by
      intro last
      have same : resource.bare = (pod.resource kind).bare := same
      rw [← setResource_bare, same, setResource_bare]
      cases kind <;> rfl
    exact (ih _ _).weaken fun _ kept => one.trans kept

theorem unnoticed_seedLimits (pod : Pod α) (limits : PerKind α) :
    Dealing.Unnoticed alike (fun out => pod.SameBare out.2) (pod.seedLimits node limits) :=
  unnoticed_writeLimits oblivious limits pod .none Kind.all

theorem unnoticed_applyLimits (pod : Pod α) (limits : PerKind α) (now : Nat) :
    Dealing.Unnoticed alike (fun out => pod.SameBare out.2) (pod.applyLimits node limits now) := by
  refine (unnoticed_seedLimits oblivious pod limits).bind ?_
  rintro ⟨report, written⟩ same
  exact Dealing.unnoticed_pure fun last => same last

theorem lockstep_sampleAll (fine : ∀ handle outcome, allowed (.read handle outcome)) (kinds : List Kind) (pod : Pod α)
    (last : Option Nat) :
    Dealing.Lockstep alike allowed (fun sampled other => other = sampled.bare last) (pod.sampleAll node kinds)
      ((pod.bare last).sampleAll node kinds) := by
  induction kinds generalizing pod with
  | nil => exact Dealing.lockstep_pure rfl
  | cons kind rest ih =>
    simp only [sampleAll, resource_bare]
    refine (Resource.lockstep_sampleUsage oblivious fine (pod.resource kind)).bind ?_
    rintro ⟨present, resource⟩ _ rfl
    simp only [setResource_bare]
    exact ih _

end

end Pod
end PodBudget
