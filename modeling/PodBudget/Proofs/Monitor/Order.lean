import PodBudget.Proofs.Monitor.Acts
import PodBudget.Proofs.Monitor.Reports

/-!
The order in which the workers report. Whatever it is, a cycle leaves the same monitor and deals with the node in the
same way; only the completions, of which the node learns nothing, are noted in another order.
-/
namespace PodBudget

variable {σ α β γ : Type}

/-- What is done does not depend on what was done before. -/
def Dealing.Blind (dealing : Dealing σ α β) : Prop := dealing.Performs fun _ _ => True

namespace Dealing

theorem blind_pure (value : β) : Blind (pure value : Dealing σ α β) := performs_pure trivial

theorem Performs.blind {dealing : Dealing σ α β} {spec : β → List (Act α) → Prop} (performs : dealing.Performs spec) :
    dealing.Blind :=
  performs.weaken fun _ _ _ => trivial

theorem Blind.bind {first : Dealing σ α γ} {next : γ → Dealing σ α β} (early : Blind first)
    (late : ∀ value, Blind (next value)) : Blind (first >>= next) :=
  Performs.bind early fun value _ _ => (late value).blind

end Dealing

namespace Monitor

variable [Number α]

theorem blind_prepare (node : Node σ α) (monitor : Monitor α) (now : Nat) (pod : Pod α) (paths : PerKind String) :
    (monitor.prepare node now pod paths).Blind := by
  have seeding : (monitor.seed node (pod.attach paths)).Blind := by
    unfold seed
    split
    · exact Dealing.blind_pure _
    · exact (Pod.performs_seedLimits node _ _).blind
  refine seeding.bind ?_
  intro seeded
  refine (Pod.performs_sampleAll node seeded.2).blind.bind ?_
  intro sampled
  exact Dealing.blind_pure _

theorem blind_promote (node : Node σ α) (monitor : Monitor α) (now : Nat) (name : String) (pod : Pod α)
    (paths : PerKind String) : (monitor.promote node now name pod paths).Blind := by
  refine (blind_prepare node monitor now pod paths).bind ?_
  intro prepared
  refine (prepared.2.performs_moveTo .running).blind.bind ?_
  intro ready
  refine (Dealing.performs_log _).blind.bind ?_
  intro _
  exact Dealing.blind_pure _

theorem blind_promoteEach (node : Node σ α) (now : Nat) (names : List String) (monitor : Monitor α) :
    (monitor.promoteEach node now names).Blind := by
  induction names generalizing monitor with
  | nil => exact Dealing.blind_pure _
  | cons name rest ih =>
    rw [promoteEach]
    refine (Dealing.performs_askPaths node name).blind.bind ?_
    intro answer
    split
    · refine (blind_promote node monitor now name _ _).bind ?_
      intro next
      refine (ih next).bind ?_
      intro out
      exact Dealing.blind_pure _
    · exact ih monitor

theorem blind_afterSampling (node : Node σ α) (monitor : Monitor α) (remaining : α) (now : Moment)
    (completed : List String) : (monitor.afterSampling node remaining now completed).Blind := by
  refine (carries_allocateIfActing node monitor remaining now).blind.bind ?_
  rintro ⟨allocation, allocated⟩
  refine (blind_promoteEach node now.instant _ allocated).bind ?_
  intro promoted
  exact Dealing.blind_pure _

open scoped List

/-- Two outcomes of a cycle that differ in the order of the completions only. -/
structure SameButOrder (one other : (CycleReport × Monitor α) × Scene σ α) : Prop where
  monitor : other.1.2 = one.1.2
  allocation : other.1.1.allocation = one.1.1.allocation
  promoted : other.1.1.promoted = one.1.1.promoted
  completed : other.1.1.completed ~ one.1.1.completed
  node : other.2.node = one.2.node
  acts : ∃ early closings others late, one.2.acts = early ++ closings ++ late ∧
    other.2.acts = early ++ others ++ late ∧ others ~ closings ∧
    ∀ act ∈ closings, ∃ name updates queue, act = .logged (.podCompleted name updates queue)

theorem sameButOrder_afterSampling (node : Node σ α) (monitor : Monitor α) (remaining : α) (now : Moment)
    {completed others : List String} (perm : others ~ completed) (state : σ) (early : List (Act α))
    {closings orders : List (Act α)} (noted : orders ~ closings)
    (only : ∀ act ∈ closings, ∃ name updates queue, act = .logged (.podCompleted name updates queue)) :
    SameButOrder (monitor.afterSampling node remaining now completed ⟨state, early ++ closings⟩)
      (monitor.afterSampling node remaining now others ⟨state, early ++ orders⟩) := by
  obtain ⟨result, after, late, -, runs⟩ := blind_afterSampling node monitor remaining now completed state
  -- The names of the completed pods are handed through, and nothing is decided by them.
  have relabelled (before : List (Act α)) : monitor.afterSampling node remaining now others ⟨state, before⟩ =
      ((⟨others, result.1.promoted, result.1.allocation⟩, result.2), ⟨after, before ++ late⟩) := by
    exact congrArg (fun out => (((⟨others, out.1.1.promoted, out.1.1.allocation⟩ : CycleReport), out.1.2), out.2))
      (runs before)
  have named : result.1.completed = completed :=
    (congrArg (fun out => out.1.1.completed) (runs [])).symm
  rw [runs, relabelled]
  exact ⟨rfl, rfl, rfl, named ▸ perm, rfl, early, closings, orders, late, rfl, rfl, noted, only⟩

theorem Staged.closings {monitor : Monitor α} (staged : monitor.Staged) {gone : List String} {act : Act α}
    (member : act ∈ gone.flatMap monitor.closingActs) :
    ∃ name updates queue, act = .logged (.podCompleted name updates queue) := by
  obtain ⟨name, _, inside⟩ := List.mem_flatMap.mp member
  cases found : monitor.running.get? name with
  | none =>
    rw [Monitor.closingActs, found] at inside
    cases inside
  | some pod =>
    rw [staged.closingActs found] at inside
    exact ⟨name, pod.updates, pod.queue, List.mem_singleton.mp inside⟩

theorem sameButOrder_cycle (node : Node σ α) (monitor : Monitor α) (staged : monitor.Staged) (scene : Scene σ α)
    (trigger : Trigger) (now : Moment) {reports others : List Sample} (distinct : (reports.map (·.name)).Nodup)
    (perm : others ~ reports) :
    SameButOrder (monitor.cycle node trigger now (fun _ => reports) scene)
      (monitor.cycle node trigger now (fun _ => others) scene) := by
  let opened := monitor.expire trigger now.instant
  let after := (takeSamples node monitor.running.entries scene).2
  have opens : Move node (monitor, scene) (opened, scene) := .expire trigger now.instant
  have still : opened.Staged := (opens.sound staged).1
  have cycles (samples : List Sample) : monitor.cycle node trigger now (fun _ => samples) scene =
      let taken := opened.takeIn samples after
      taken.1.2.afterSampling node (monitor.remaining trigger now.instant) now taken.1.1 taken.2 := rfl
  have apart : (others.map (·.name)).Nodup := (perm.map _).nodup_iff.mpr distinct
  obtain ⟨same, gone⟩ := foldSamples_perm opened.running perm distinct
  rw [cycles, cycles, takeIn_eq opened distinct, takeIn_eq opened apart, same, closings_perm _ gone]
  refine sameButOrder_afterSampling node _ _ now gone after.node after.acts (gone.flatMap_right _) ?_
  intro act member
  exact ((steady_foldSamples opened reports).staged still).closings member

/-- Wherever a run stands, the workers report on every running pod once, and it makes no difference in which order their
reports come in: they leave the same running and completed records and the same pods as gone, and the rest of the cycle
is the same. -/
theorem unordered_of_reached (node : Node σ α) (config : MonitorConfig α) (health : Option Health) (now : Nat)
    (state : σ) :
    let start : Monitor α × Scene σ α := (.new config health now, ⟨state, []⟩)
    ∀ position, Reached node start position →
      (takeSamples node position.1.running.entries position.2).1.map (·.name) = position.1.running.names ∧
      ∀ reports others, (reports.map (·.name)).Nodup → others ~ reports →
        (foldSamples position.1.running others).1 = (foldSamples position.1.running reports).1 ∧
        (foldSamples position.1.running others).2 ~ (foldSamples position.1.running reports).2 ∧
        (∀ scene : Scene σ α, (position.1.takeIn others scene).1.2 = (position.1.takeIn reports scene).1.2) ∧
        ∀ trigger moment, SameButOrder (position.1.cycle node trigger moment (fun _ => reports) position.2)
          (position.1.cycle node trigger moment (fun _ => others) position.2) := by
  intro start position reached
  have staged := (reached.sound (staged_new config health now)).1
  constructor
  · obtain ⟨_, ⟨_, _, sampled⟩, _⟩ :=
      (carries_takeSamples node position.1.running.entries position.1.running.nodup_names).on position.2
    exact sampled.names
  · intro reports others distinct perm
    have apart : (others.map (·.name)).Nodup := (perm.map _).nodup_iff.mpr distinct
    obtain ⟨same, gone⟩ := foldSamples_perm position.1.running perm distinct
    refine ⟨same, gone, ?_, ?_⟩
    · intro scene
      rw [takeIn_eq position.1 distinct, takeIn_eq position.1 apart, same, closings_perm _ gone]
    · intro trigger moment
      exact sameButOrder_cycle node position.1 staged position.2 trigger moment distinct perm

def hollow : Node Unit Rat := { willing with read := fun _ handle => (.error (.missing handle.path), ()) }

theorem unordered_of_reached_hollow :
    let start : Monitor Rat × Scene Unit Rat := (.new ⟨"node", 1, false, .default⟩ none 0, ⟨(), []⟩)
    let position := run hollow start [.enroll ⟨"server", 50⟩, .enroll ⟨"trainer", 100⟩, .cycle .tick ⟨0, 0⟩ id]
    let samples := (takeSamples hollow position.1.running.entries position.2).1
    let cycle := fun reports => position.1.cycle hollow .tick ⟨1, 1⟩ (fun _ => reports) position.2
    (cycle samples).1.1.completed = ["server", "trainer"] ∧
    (cycle samples.reverse).1.1.completed = ["trainer", "server"] ∧
    SameButOrder (cycle samples) (cycle samples.reverse) := by
  intro start position samples cycle
  have reached : Reached hollow start position := .run _ .start
  obtain ⟨names, unordered⟩ := unordered_of_reached hollow ⟨"node", 1, false, .default⟩ none 0 () position reached
  have distinct : (samples.map (·.name)).Nodup := by
    rw [names]
    exact position.1.running.nodup_names
  obtain ⟨_, _, _, cycles⟩ := unordered samples samples.reverse distinct (List.reverse_perm samples)
  exact ⟨by decide +kernel, by decide +kernel, cycles .tick ⟨1, 1⟩⟩

end Monitor
end PodBudget
