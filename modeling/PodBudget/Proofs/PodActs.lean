import PodBudget.Proofs.PodRecord

/-!
What is asked of a node for one pod. A limit takes at most one attempt, and a counter is read once; meanwhile the pod
keeps to its control files.
-/
namespace PodBudget

variable {σ α : Type}

/-- One attempt at a limit. Where it succeeds on the GPU, the scheduler is told. -/
inductive Attempt (handle : Node.Handle) (value : α) : List (Act α) → Prop
  | failed (fault : Node.ProbeFault) : Attempt handle value [.wrote handle value (.error fault)]
  | quiet (other : handle.kind ≠ .gpu) : Attempt handle value [.wrote handle value (.ok ())]
  | announced (gpu : handle.kind = .gpu) (outcome : Except Node.ProbeFault Unit) :
    Attempt handle value [.wrote handle value (.ok ()), .rebalanced outcome]

def Attempts (handle? : Option Node.Handle) (value : α) (acts : List (Act α)) : Prop :=
  match handle? with
  | none => acts = []
  | some handle => Attempt handle value acts

def Node.isGone : Except ProbeFault Reading → Bool
  | .error fault => fault.isMissing
  | .ok _ => false

def Readings.lost (readings : Readings) : Bool := readings.any fun reading => Node.isGone reading.2

/-- What a resource has been granted: where, how much, and whether the node has been asked for it. -/
structure Grant (α : Type) where
  handle? : Option Node.Handle
  limit : α
  written : Bool

namespace Resource

def grant (resource : Resource α) : Grant α := ⟨resource.handle?, resource.limit, resource.written⟩

variable [Number α]

theorem grant_recordSample (resource : Resource α) (outcome : Except Node.ProbeFault Node.Reading) :
    (resource.recordSample outcome).2.grant = resource.grant := by
  obtain ⟨_, _, _, same⟩ := measured_recordSample resource outcome
  rw [same]
  rfl

theorem present_recordSample (resource : Resource α) (outcome : Except Node.ProbeFault Node.Reading) :
    (resource.recordSample outcome).1 = !Node.isGone outcome := by
  unfold recordSample
  split
  · rfl
  · next fault other =>
    cases fault with
    | missing path => exact absurd rfl (other path)
    | file path cause => rfl
    | malformed path reason => rfl
  · dsimp only
    split <;> rfl

/-- What setting a limit makes of a resource, and what it does to the node. -/
inductive Sets (resource : Resource α) (value : α) : Resource α → List (Act α) → Prop
  | inForce (written : resource.written = true) (same : (value == resource.limit) = true) :
    Sets resource value resource []
  | detached (nowhere : resource.handle? = none) : Sets resource value { resource with limit := value } []
  | attempt {handle : Node.Handle} {acts : List (Act α)} (known : resource.handle? = some handle)
    (attempt : Attempt handle value acts) : Sets resource value { resource with limit := value, written := true } acts

section

variable {resource next : Resource α} {value : α} {acts : List (Act α)} (sets : resource.Sets value next acts)
include sets

theorem Sets.handle?_eq : next.handle? = resource.handle? := by
  cases sets <;> rfl

theorem Sets.attempt_of_known {handle : Node.Handle} (known : resource.handle? = some handle) :
    next = resource ∧ acts = [] ∧ resource.written = true ∨
      next = { resource with limit := value, written := true } ∧ Attempt handle value acts := by
  cases sets with
  | inForce written _ => exact .inl ⟨rfl, rfl, written⟩
  | detached nowhere => cases known.symm.trans nowhere
  | attempt other attempt =>
    cases known.symm.trans other
    exact .inr ⟨rfl, attempt⟩

end

/-- Whether a limit is in force, as far as the record knows. -/
def isInForce (resource : Resource α) (value : α) : Bool := resource.written && value == resource.limit

def target? (resource : Resource α) (value : α) : Option Node.Handle :=
  if resource.isInForce value then none else resource.handle?

def granted (resource : Resource α) (value : α) : Resource α :=
  if resource.isInForce value then resource
  else { resource with limit := value, written := resource.written || resource.handle?.isSome }

/-- What is asked for, and what the record becomes, does not depend on what the node answers. -/
theorem performs_setLimit (node : Node σ α) (resource : Resource α) (value : α) :
    Dealing.Performs
      (fun out acts => out.2 = resource.granted value ∧ Attempts (resource.target? value) value acts)
      (resource.setLimit node value) := by
  unfold setLimit granted target? isInForce
  split
  · exact Dealing.performs_pure ⟨rfl, rfl⟩
  · split
    · next nowhere =>
      rw [nowhere]
      refine Dealing.performs_pure ⟨?_, rfl⟩
      simp only [Option.isSome_none, Bool.or_false]
    · next handle known =>
      have kind : handle.kind = resource.kind := by
        obtain ⟨path, _, rfl⟩ := Option.map_eq_some_iff.mp known
        rfl
      simp only [known, Option.isSome_some, Bool.or_true]
      refine (Dealing.performs_writeLimit node handle value).bind ?_
      rintro (fault | ⟨⟩) _ rfl
      · exact Dealing.performs_pure ⟨rfl, .failed fault⟩
      · dsimp only
        split
        · next gpu =>
          refine (Dealing.performs_notify node).bind ?_
          rintro outcome _ rfl
          exact Dealing.performs_pure ⟨rfl, .announced (kind.trans gpu) outcome⟩
        · next other =>
          exact Dealing.performs_pure ⟨rfl, .quiet fun gpu => other (kind.symm.trans gpu)⟩

theorem sets_granted {resource : Resource α} {value : α} {acts : List (Act α)}
    (attempts : Attempts (resource.target? value) value acts) : resource.Sets value (resource.granted value) acts := by
  unfold target? at attempts
  unfold granted
  split at attempts
  · next inForce =>
    rw [if_pos inForce]
    obtain ⟨written, same⟩ := Bool.and_eq_true_iff.mp inForce
    cases attempts
    exact .inForce written same
  · next other =>
    rw [if_neg other]
    cases known : resource.handle? with
    | none =>
      rw [known] at attempts
      cases attempts
      simp only [Option.isSome_none, Bool.or_false]
      exact .detached known
    | some handle =>
      rw [known] at attempts
      simp only [Option.isSome_some, Bool.or_true]
      exact .attempt known attempts

theorem performs_sampleUsage (node : Node σ α) (resource : Resource α) :
    Dealing.Performs (fun out acts => out.2.grant = resource.grant ∧
        ∃ outcome, acts = (resource.handle?.map (Act.read · outcome)).toList)
      (resource.sampleUsage node) := by
  unfold sampleUsage
  split
  · next nowhere => exact Dealing.performs_pure ⟨rfl, .error (.missing ""), by rw [nowhere]; rfl⟩
  · next handle known =>
    refine (Dealing.performs_readCounter node handle).bind ?_
    rintro outcome _ rfl
    exact Dealing.performs_pure ⟨grant_recordSample resource outcome, outcome, by rw [known]; rfl⟩

end Resource

namespace Pod

def SameHandles (before after : Pod α) : Prop :=
  ∀ kind, (after.resource kind).handle? = (before.resource kind).handle?

theorem SameHandles.refl (pod : Pod α) : pod.SameHandles pod := fun _ => rfl

theorem SameHandles.trans {before middle after : Pod α} (first : before.SameHandles middle)
    (second : middle.SameHandles after) : before.SameHandles after :=
  fun kind => (second kind).trans (first kind)

theorem SameHandles.handles {before after : Pod α} (same : before.SameHandles after) : after.handles = before.handles :=
  congrArg (Kind.all.filterMap ·) (funext same)

def SameGrants (before after : Pod α) : Prop :=
  ∀ kind, (after.resource kind).grant = (before.resource kind).grant

theorem SameGrants.refl (pod : Pod α) : pod.SameGrants pod := fun _ => rfl

theorem SameGrants.trans {before middle after : Pod α} (first : before.SameGrants middle)
    (second : middle.SameGrants after) : before.SameGrants after :=
  fun kind => (second kind).trans (first kind)

theorem SameGrants.sameHandles {before after : Pod α} (same : before.SameGrants after) : before.SameHandles after :=
  fun kind => congrArg Grant.handle? (same kind)

theorem sameGrants_setResource (pod : Pod α) (kind : Kind) (resource : Resource α)
    (same : resource.grant = (pod.resource kind).grant) : pod.SameGrants (pod.setResource kind resource) := by
  intro other
  rw [resource_setResource]
  split
  · next equal => rw [equal, same]
  · rfl

def Reads (pod : Pod α) (acts : List (Act α)) : Prop :=
  ∃ outcomes : Kind → Except Node.ProbeFault Node.Reading,
    acts = Kind.all.filterMap fun kind => (pod.resource kind).handle?.map (Act.read · (outcomes kind))

def movedTo (pod : Pod α) (next : PodStatus) : Pod α :=
  if pod.status.rank < next.rank then { pod with status := next } else pod

/-- What is noted of a move that does not go forward. -/
def refusals (pod : Pod α) (next : PodStatus) : List (Act α) :=
  if pod.status.rank < next.rank then [] else [.refused ⟨pod.name, pod.status, next⟩]

theorem moveTo_eq (pod : Pod α) (next : PodStatus) (scene : Scene σ α) :
    pod.moveTo next scene = (pod.movedTo next, { scene with acts := scene.acts ++ pod.refusals next }) := by
  unfold moveTo transition movedTo refusals
  by_cases forward : pod.status.rank < next.rank
  · simp only [forward, ↓reduceIte, List.append_nil]
    rfl
  · simp only [forward, ↓reduceIte]
    rfl

theorem performs_moveTo (pod : Pod α) (next : PodStatus) :
    Dealing.Performs (σ := σ) (fun moved acts => moved = pod.movedTo next ∧ acts = pod.refusals next)
      (pod.moveTo next) := by
  intro state
  refine ⟨pod.movedTo next, state, pod.refusals next, ⟨rfl, rfl⟩, ?_⟩
  intro before
  exact moveTo_eq pod next ⟨state, before⟩

variable [Number α]

theorem sameGrants_recordEach (pod : Pod α) (readings : Readings) : pod.SameGrants (pod.recordEach readings).2 := by
  induction readings generalizing pod with
  | nil => exact .refl pod
  | cons reading rest ih =>
    have recorded := Resource.grant_recordSample (pod.resource reading.1) reading.2
    have one := sameGrants_setResource pod reading.1 _ recorded
    simp only [recordEach]
    split
    · exact one.trans (ih _)
    · exact one

theorem sameGrants_recordSamples (pod : Pod α) (readings : Readings) :
    pod.SameGrants (pod.recordSamples readings).2 := by
  unfold recordSamples
  split
  · exact .refl pod
  · exact sameGrants_recordEach pod readings

theorem recordSamples_eq (pod : Pod α) (readings : Readings) :
    pod.recordSamples readings = if readings.lost then (false, pod) else pod.recordEach readings := rfl

theorem present_recordEach (pod : Pod α) (readings : Readings) : (pod.recordEach readings).1 = !readings.lost := by
  induction readings generalizing pod with
  | nil => rfl
  | cons reading rest ih =>
    have here := Resource.present_recordSample (pod.resource reading.1) reading.2
    simp only [recordEach, here, Readings.lost, List.any_cons]
    cases Node.isGone reading.2 with
    | true => rfl
    | false => exact ih _

theorem present_recordSamples (pod : Pod α) (readings : Readings) :
    (pod.recordSamples readings).1 = !readings.lost := by
  rw [recordSamples_eq]
  split
  · next lost => rw [lost]; rfl
  · exact present_recordEach pod readings

/-- What setting limits makes of the resources of a pod, and what it does to the node, kind by kind. -/
def Sets (pod : Pod α) (limits : PerKind α) (next : Pod α) (acts : List (Act α)) : Prop :=
  ∃ cpu gpu, acts = cpu ++ gpu ∧ pod.cpu.Sets limits.cpu next.cpu cpu ∧ pod.gpu.Sets limits.gpu next.gpu gpu

theorem Sets.sameHandles {pod next : Pod α} {limits : PerKind α} {acts : List (Act α)}
    (sets : pod.Sets limits next acts) : pod.SameHandles next := by
  obtain ⟨_, _, _, cpu, gpu⟩ := sets
  rintro (_ | _)
  · exact cpu.handle?_eq
  · exact gpu.handle?_eq

def granted (pod : Pod α) (limits : PerKind α) : Pod α :=
  { pod with cpu := pod.cpu.granted limits.cpu, gpu := pod.gpu.granted limits.gpu }

def applied (pod : Pod α) (limits : PerKind α) (now : Nat) : Pod α :=
  { pod.granted limits with updates := pod.updates + 1 }.stamp now

def Asks (pod : Pod α) (limits : PerKind α) (acts : List (Act α)) : Prop :=
  ∃ cpu gpu, acts = cpu ++ gpu ∧ Attempts (pod.cpu.target? limits.cpu) limits.cpu cpu ∧
    Attempts (pod.gpu.target? limits.gpu) limits.gpu gpu

theorem performs_seedLimits (node : Node σ α) (pod : Pod α) (limits : PerKind α) :
    Dealing.Performs (fun out acts => out.2 = pod.granted limits ∧ pod.Asks limits acts)
      (pod.seedLimits node limits) := by
  refine (Resource.performs_setLimit node pod.cpu limits.cpu).bind ?_
  rintro ⟨_, _⟩ first ⟨rfl, asksCpu⟩
  refine (Resource.performs_setLimit node pod.gpu limits.gpu).bind ?_
  rintro ⟨_, _⟩ second ⟨rfl, asksGpu⟩
  refine Dealing.performs_pure ⟨rfl, first, second, ?_, asksCpu, asksGpu⟩
  rw [List.append_nil]

theorem performs_applyLimits (node : Node σ α) (pod : Pod α) (limits : PerKind α) (now : Nat) :
    Dealing.Performs (fun out acts => out.2 = pod.applied limits now ∧ pod.Asks limits acts)
      (pod.applyLimits node limits now) := by
  refine (performs_seedLimits node pod limits).bind ?_
  rintro ⟨_, _⟩ acts ⟨rfl, asks⟩
  refine Dealing.performs_pure ⟨rfl, ?_⟩
  rwa [List.append_nil]

theorem Asks.sets {pod : Pod α} {limits : PerKind α} {acts : List (Act α)} (asks : pod.Asks limits acts) :
    pod.Sets limits (pod.granted limits) acts := by
  obtain ⟨cpu, gpu, rfl, first, second⟩ := asks
  exact ⟨cpu, gpu, rfl, Resource.sets_granted first, Resource.sets_granted second⟩

theorem Asks.sets_applied {pod : Pod α} {limits : PerKind α} {acts : List (Act α)} (asks : pod.Asks limits acts)
    (now : Nat) : pod.Sets limits (pod.applied limits now) acts := asks.sets

theorem performs_sampleAll (node : Node σ α) (pod : Pod α) :
    Dealing.Performs (fun sampled acts => pod.SameGrants sampled ∧ pod.Reads acts) (pod.sampleAll node Kind.all) := by
  refine (Resource.performs_sampleUsage node pod.cpu).bind ?_
  rintro ⟨_, cpu⟩ _ ⟨sameCpu, first, rfl⟩
  refine (Resource.performs_sampleUsage node pod.gpu).bind ?_
  rintro ⟨_, gpu⟩ _ ⟨sameGpu, second, rfl⟩
  refine Dealing.performs_pure ⟨?_, (PerKind.mk first second).get, ?_⟩
  · have one : pod.SameGrants (pod.setResource .cpu cpu) := sameGrants_setResource pod .cpu cpu sameCpu
    exact one.trans (sameGrants_setResource _ .gpu gpu sameGpu)
  · simp only [Kind.all, resource, List.filterMap_cons, List.filterMap_nil]
    cases pod.cpu.handle? <;> cases pod.gpu.handle? <;> rfl

end Pod
end PodBudget
