import PodBudget.Proofs.PodActs

/-!
What is in force at a path. A write that went through decides it until the next one, whoever makes it; so a pod can tell
from its own writes what is in force as long as nobody else writes to its paths.
-/
namespace PodBudget

variable {α : Type}

/-- The value that an act leaves in force at a path. -/
def Act.leaves? (path : String) (act : Act α) : Option α :=
  act.written?.bind fun write => if write.1.path = path then some write.2 else none

/-- What was last written to a path, of the writes that went through. -/
def lastWritten (path : String) (acts : List (Act α)) : Option α := (acts.filterMap (Act.leaves? path)).getLast?

def Spares (path : String) (acts : List (Act α)) : Prop := ∀ act ∈ acts, act.leaves? path = none

theorem lastWritten_append (path : String) (acts more : List (Act α)) :
    lastWritten path (acts ++ more) = (lastWritten path more).or (lastWritten path acts) := by
  rw [lastWritten, List.filterMap_append, List.getLast?_append]
  rfl

theorem Spares.lastWritten_append {path : String} {more : List (Act α)} (spares : Spares path more)
    (acts : List (Act α)) : lastWritten path (acts ++ more) = lastWritten path acts := by
  have nothing : lastWritten path more = none := by
    rw [lastWritten, List.filterMap_eq_nil_iff.mpr spares]
    rfl
  rw [PodBudget.lastWritten_append, nothing, Option.none_or]

theorem Spares.append {path : String} {acts more : List (Act α)} (early : Spares path acts) (late : Spares path more) :
    Spares path (acts ++ more) :=
  fun act member => (List.mem_append.mp member).elim (early act) (late act)

theorem spares_of_unwritten {acts : List (Act α)} (unwritten : ∀ act ∈ acts, act.written? = none) (path : String) :
    Spares path acts := by
  intro act member
  rw [Act.leaves?, unwritten act member]
  rfl

def Unfailing (acts : List (Act α)) : Prop := ∀ act ∈ acts, act.isFailedWrite = false

instance (acts : List (Act α)) : Decidable (Unfailing acts) := inferInstanceAs (Decidable (∀ act ∈ acts, _))

theorem unfailing_append {acts more : List (Act α)} : Unfailing (acts ++ more) ↔ Unfailing acts ∧ Unfailing more :=
  List.forall_mem_append

namespace Attempt

variable {handle : Node.Handle} {value : α} {acts : List (Act α)} (attempt : Attempt handle value acts)
include attempt

theorem spares {path : String} (elsewhere : handle.path ≠ path) : Spares path acts := by
  cases attempt <;> simp [Spares, Act.leaves?, Act.written?, elsewhere]

theorem lastWritten_eq (fine : Unfailing acts) : lastWritten handle.path acts = some value := by
  cases attempt with
  | failed fault => simp [Unfailing, Act.isFailedWrite] at fine
  | quiet _ => simp [lastWritten, Act.leaves?, Act.written?]
  | announced _ _ => simp [lastWritten, List.filterMap_cons, Act.leaves?, Act.written?]

end Attempt

/-- Where the limit has been written, it is what is in force. -/
def Grant.Enforced (acts : List (Act α)) (grant : Grant α) : Prop :=
  grant.written = true → ∃ handle, grant.handle? = some handle ∧ lastWritten handle.path acts = some grant.limit

theorem Grant.Enforced.spared {grant : Grant α} {acts more : List (Act α)} (enforced : grant.Enforced acts)
    (spared : ∀ handle, grant.handle? = some handle → Spares handle.path more) : grant.Enforced (acts ++ more) := by
  intro written
  obtain ⟨handle, known, last⟩ := enforced written
  exact ⟨handle, known, ((spared handle known).lastWritten_append acts).trans last⟩

namespace Resource

variable [Number α] {resource next : Resource α} {value : α} {acts : List (Act α)} {handle : Node.Handle}
  (sets : resource.Sets value next acts) (known : resource.handle? = some handle)
include sets known

theorem Sets.spares {path : String} (elsewhere : handle.path ≠ path) : Spares path acts := by
  rcases sets.attempt_of_known known with ⟨_, rfl, _⟩ | ⟨_, attempt⟩
  · exact nofun
  · exact attempt.spares elsewhere

/-- A limit that is not written again is in force already. -/
theorem Sets.enforced {before : List (Act α)} (fine : Unfailing acts) (enforced : resource.grant.Enforced before) :
    next.grant.Enforced (before ++ acts) ∧ next.written = true := by
  rcases sets.attempt_of_known known with ⟨rfl, rfl, written⟩ | ⟨rfl, attempt⟩
  · rw [List.append_nil]
    exact ⟨enforced, written⟩
  · refine ⟨fun _ => ⟨handle, known, ?_⟩, rfl⟩
    rw [lastWritten_append, attempt.lastWritten_eq fine]
    rfl

end Resource

def Pod.HasPaths (pod : Pod α) (paths : PerKind String) : Prop :=
  ∀ kind, (pod.resource kind).handle? = some ⟨kind, paths.get kind⟩

theorem Pod.HasPaths.kept {before after : Pod α} {paths : PerKind String} (known : before.HasPaths paths)
    (same : before.SameHandles after) : after.HasPaths paths :=
  fun kind => (same kind).trans (known kind)

def Pod.Enforced (acts : List (Act α)) (pod : Pod α) : Prop := ∀ kind, (pod.resource kind).grant.Enforced acts

namespace Pod

theorem Enforced.spared {pod : Pod α} {paths : PerKind String} {acts more : List (Act α)} (enforced : pod.Enforced acts)
    (known : pod.HasPaths paths) (spared : ∀ kind, Spares (paths.get kind) more) : pod.Enforced (acts ++ more) := by
  intro kind
  refine (enforced kind).spared ?_
  intro handle found
  cases (known kind).symm.trans found
  exact spared kind

variable [Number α] {pod next : Pod α} {limits : PerKind α} {acts : List (Act α)} {paths : PerKind String}
  (sets : pod.Sets limits next acts) (known : pod.HasPaths paths)
include sets known

theorem Sets.spares {path : String} (elsewhere : ∀ kind, paths.get kind ≠ path) : Spares path acts := by
  obtain ⟨cpu, gpu, rfl, first, second⟩ := sets
  exact (first.spares (known .cpu) (elsewhere .cpu)).append (second.spares (known .gpu) (elsewhere .gpu))

theorem Sets.enforced {before : List (Act α)} (apart : paths.cpu ≠ paths.gpu) (fine : Unfailing acts)
    (enforced : pod.Enforced before) :
    next.Enforced (before ++ acts) ∧ ∀ kind, (next.resource kind).written = true := by
  obtain ⟨cpu, gpu, rfl, first, second⟩ := sets
  obtain ⟨early, late⟩ := unfailing_append.mp fine
  have between : pod.gpu.grant.Enforced (before ++ cpu) := by
    refine (enforced .gpu).spared ?_
    intro handle found
    cases (known .gpu).symm.trans found
    exact first.spares (known .cpu) apart
  obtain ⟨held, writtenCpu⟩ := first.enforced (known .cpu) early (enforced .cpu)
  obtain ⟨last, writtenGpu⟩ := second.enforced (known .gpu) late between
  have still : next.cpu.grant.Enforced (before ++ cpu ++ gpu) := by
    refine held.spared ?_
    intro handle found
    cases (known .cpu).symm.trans (first.handle?_eq.symm.trans found)
    exact second.spares (known .gpu) apart.symm
  rw [← List.append_assoc]
  constructor
  · rintro (_ | _)
    · exact still
    · exact last
  · rintro (_ | _)
    · exact writtenCpu
    · exact writtenGpu

end Pod
end PodBudget
