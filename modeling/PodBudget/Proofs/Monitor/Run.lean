import Mathlib.Logic.Relation
import PodBudget.Proofs.Monitor.Admission
import PodBudget.Proofs.Monitor.Census
import PodBudget.Proofs.Monitor.Moves

/-!
Runs of a monitor. A run is any sequence of admissions and cycles, over a node that answers as it likes and workers
that report in any order. It is made of moves, and the records are staged at every position between two moves, the
middle of a cycle included.
-/
namespace PodBudget.Monitor

variable {σ α : Type} [Number α]

/-- Where a call that answers something leaves a monitor. -/
def standing {β : Type} (out : (β × Monitor α) × Scene σ α) : Monitor α × Scene σ α := (out.1.2, out.2)

/-- What a cycle is made of, with whatever the node answers. -/
inductive Move (node : Node σ α) : Monitor α × Scene σ α → Monitor α × Scene σ α → Prop
  | expire {monitor scene} (trigger : Trigger) (now : Nat) :
    Move node (monitor, scene) (monitor.expire trigger now, scene)
  | sample {monitor scene} (entries : List (String × Pod α)) :
    Move node (monitor, scene) (monitor, (takeSamples node entries scene).2)
  | report {monitor scene} (samples : List Sample) :
    Move node (monitor, scene) ({ monitor with running := (foldSamples monitor.running samples).1 }, scene)
  | complete {monitor scene} (name : String) : Move node (monitor, scene) (monitor.complete name scene)
  | allocate {monitor scene} (remaining : α) (now : Moment) :
    Move node (monitor, scene) (standing (monitor.allocateIfActing node remaining now scene))
  | ask {monitor scene} (name : String) : Move node (monitor, scene) (monitor, (node.askPaths name scene).2)
  | promote {monitor scene} (now : Nat) (name : String) (pod : Pod α) (paths : PerKind String)
      (waiting : monitor.notReady.get? name = some pod) :
    Move node (monitor, scene) (monitor.promote node now name pod paths scene)
  | publish {monitor scene} (unix : Int) : Move node (monitor, scene) (monitor.publish unix, scene)

abbrev Moves (node : Node σ α) := Relation.ReflTransGen (Move node)

/-- The positions that a run passes. -/
inductive Reached (node : Node σ α) (start : Monitor α × Scene σ α) : Monitor α × Scene σ α → Prop
  | start : Reached node start start
  | enroll {monitor scene} (admission : Admission α) (before : Reached node start (monitor, scene)) :
    Reached node start (standing (monitor.enroll admission scene))
  | move {before after} (reached : Reached node start before) (move : Move node before after) :
    Reached node start after

/-- A call from outside. The reports of a cycle's workers come in as `arrival` has it. -/
inductive Call (α : Type) where
  | enroll (admission : Admission α)
  | cycle (trigger : Trigger) (now : Moment) (arrival : List Sample → List Sample)

def perform (node : Node σ α) (position : Monitor α × Scene σ α) : Call α → Monitor α × Scene σ α
  | .enroll admission => standing (position.1.enroll admission position.2)
  | .cycle trigger now arrival => standing (position.1.cycle node trigger now arrival position.2)

def run (node : Node σ α) (start : Monitor α × Scene σ α) (calls : List (Call α)) : Monitor α × Scene σ α :=
  calls.foldl (perform node) start

private theorem moves_completeAll (node : Node σ α) (names : List String) (monitor : Monitor α)
    (scene : Scene σ α) : Moves node (monitor, scene) (monitor.completeAll names scene) := by
  induction names generalizing monitor scene with
  | nil => exact .refl
  | cons name rest ih => exact .head (.complete name) (ih _ _)

theorem moves_takeIn (node : Node σ α) (samples : List Sample) (monitor : Monitor α) (scene : Scene σ α) :
    Moves node (monitor, scene) (standing (monitor.takeIn samples scene)) :=
  .head (.report samples) (moves_completeAll node _ _ _)

theorem promoteEach_cons (node : Node σ α) (monitor : Monitor α) (now : Nat) (name : String)
    (rest : List String) (scene : Scene σ α) :
    monitor.promoteEach node now (name :: rest) scene =
      match (node.askPaths name scene).1, monitor.notReady.get? name with
      | some paths, some pod =>
        let next := monitor.promote node now name pod paths (node.askPaths name scene).2
        let out := next.1.promoteEach node now rest next.2
        ((name :: out.1.1, out.1.2), out.2)
      | _, _ => monitor.promoteEach node now rest (node.askPaths name scene).2 := by
  rw [promoteEach]
  simp only [bind, StateT.bind]
  generalize node.askPaths name scene = answer
  obtain ⟨paths, after⟩ := answer
  cases paths <;> cases monitor.notReady.get? name <;> rfl

private theorem moves_promoteEach (node : Node σ α) (now : Nat) (names : List String) (monitor : Monitor α)
    (scene : Scene σ α) :
    Moves node (monitor, scene) (standing (monitor.promoteEach node now names scene)) := by
  induction names generalizing monitor scene with
  | nil => exact .refl
  | cons name rest ih =>
    refine .head (.ask name) ?_
    rw [promoteEach_cons]
    split
    · next paths pod _ found => exact .head (.promote now name pod paths found) (ih _ _)
    · exact ih _ _

private theorem moves_afterSampling (node : Node σ α) (monitor : Monitor α) (remaining : α) (now : Moment)
    (completed : List String) (scene : Scene σ α) :
    Moves node (monitor, scene) (standing (monitor.afterSampling node remaining now completed scene)) := by
  have allocated : Moves node (monitor, scene) (standing (monitor.allocateIfActing node remaining now scene)) :=
    .single (.allocate remaining now)
  exact (allocated.trans (moves_promoteEach node now.instant _ _ _)).tail (.publish now.unix)

/-- A cycle is made of moves. -/
theorem moves_cycle (node : Node σ α) (monitor : Monitor α) (scene : Scene σ α) (trigger : Trigger) (now : Moment)
    (arrival : List Sample → List Sample) :
    Moves node (monitor, scene) (standing (monitor.cycle node trigger now arrival scene)) := by
  refine .head (.sample monitor.running.entries) (.head (.expire trigger now.instant) ?_)
  exact (moves_takeIn node _ _ _).trans (moves_afterSampling node _ _ now _ _)

open scoped List

theorem Move.sound {node : Node σ α} {before after : Monitor α × Scene σ α} (move : Move node before after)
    (staged : before.1.Staged) :
    after.1.Staged ∧ after.1.tracked ~ before.1.tracked ∧ before.2.Extends Act.IsOrderly after.2 := by
  have steadily {next : Monitor α} (steady : Steady before.1 next) :
      next.Staged ∧ next.tracked ~ before.1.tracked := ⟨steady.staged staged, .of_eq steady.tracked_eq⟩
  cases move with
  | @expire monitor scene trigger now =>
    have steady : Steady monitor (monitor.expire trigger now) := by
      rw [expire_eq]
      exact .of_running rfl rfl rfl
    exact ⟨(steadily steady).1, (steadily steady).2, .refl _⟩
  | @sample monitor scene entries => exact ⟨staged, .refl _, (ensures_takeSamples (fun _ _ => rfl) node entries scene).2⟩
  | @report monitor scene samples =>
    have steady := steady_foldSamples monitor samples
    exact ⟨(steadily steady).1, (steadily steady).2, .refl _⟩
  | @complete monitor scene name =>
    obtain ⟨⟨stays, kept⟩, orderly⟩ := ensures_complete monitor staged name scene
    exact ⟨stays, kept, orderly⟩
  | @allocate monitor scene remaining now =>
    obtain ⟨steady, orderly⟩ := ensures_allocateIfActing node monitor remaining now scene
    exact ⟨(steadily steady).1, (steadily steady).2, orderly⟩
  | @ask monitor scene name =>
    have asking : Dealing.Ensures Act.IsOrderly _ (node.askPaths name) :=
      Dealing.ensures_askPaths node name fun _ => rfl
    exact ⟨staged, .refl _, (asking scene).2⟩
  | @promote monitor scene now name pod paths waiting =>
    obtain ⟨⟨stays, kept⟩, orderly⟩ := ensures_promote node monitor staged now name pod paths waiting scene
    exact ⟨stays, kept, orderly⟩
  | @publish monitor scene unix =>
    have steady : Steady monitor (monitor.publish unix) := .of_running rfl rfl rfl
    exact ⟨(steadily steady).1, (steadily steady).2, .refl _⟩

theorem sound_of_moves {node : Node σ α} {before after : Monitor α × Scene σ α} (moves : Moves node before after)
    (staged : before.1.Staged) :
    after.1.Staged ∧ after.1.tracked ~ before.1.tracked ∧ before.2.Extends Act.IsOrderly after.2 := by
  induction moves with
  | refl => exact ⟨staged, .refl _, .refl _⟩
  | tail _ move ih =>
    obtain ⟨middle, kept, orderly⟩ := ih
    obtain ⟨final, still, late⟩ := move.sound middle
    exact ⟨final, still.trans kept, orderly.trans late⟩

theorem enroll_sound {monitor : Monitor α} (staged : monitor.Staged) (admission : Admission α) (scene : Scene σ α) :
    (monitor.enroll admission scene).1.2.Staged ∧
      monitor.tracked ⊆ (monitor.enroll admission scene).1.2.tracked ∧
      scene.Extends Act.IsOrderly (monitor.enroll admission scene).2 := by
  by_cases live : monitor.isLive admission.name = true
  · rw [enroll_of_live monitor admission scene live]
    exact ⟨staged, List.Subset.refl _, .refl scene⟩
  · rw [enroll_of_free monitor admission scene live]
    refine ⟨staged_taking live staged, subset_taking live, _, rfl, ?_⟩
    intro act member
    rw [List.mem_singleton.mp member]
    rfl

/-- Whatever position a run passes, the records are staged and no move between stages has been refused. -/
theorem Reached.sound {node : Node σ α} {start position : Monitor α × Scene σ α}
    (reached : Reached node start position) (staged : start.1.Staged) :
    position.1.Staged ∧ start.2.Extends Act.IsOrderly position.2 := by
  induction reached with
  | start => exact ⟨staged, .refl _⟩
  | enroll admission _ ih =>
    obtain ⟨stays, _, orderly⟩ := enroll_sound ih.1 admission _
    exact ⟨stays, ih.2.trans orderly⟩
  | move _ move ih =>
    obtain ⟨stays, _, orderly⟩ := move.sound ih.1
    exact ⟨stays, ih.2.trans orderly⟩

theorem Reached.moves {node : Node σ α} {start before after : Monitor α × Scene σ α}
    (reached : Reached node start before) (moves : Moves node before after) : Reached node start after := by
  induction moves with
  | refl => exact reached
  | tail _ move ih => exact .move ih move

theorem Reached.run {node : Node σ α} {start before : Monitor α × Scene σ α} (calls : List (Call α))
    (reached : Reached node start before) : Reached node start (run node before calls) := by
  induction calls generalizing before with
  | nil => exact reached
  | cons call rest ih =>
    apply ih
    cases call with
    | enroll admission => exact .enroll admission reached
    | cycle trigger now arrival => exact reached.moves (moves_cycle node before.1 before.2 trigger now arrival)

/-- At every position of every run, the middle of a cycle included, each tracked pod has one record, at the stage
that its status says; nothing has been refused, and what completion and promotion insert hides no record. A cycle
keeps the tracked names and an admission loses none. -/
theorem staged_of_run (node : Node σ α) (config : MonitorConfig α) (health : Option Health) (now : Nat) (state : σ)
    (calls : List (Call α)) :
    let start : Monitor α × Scene σ α := (.new config health now, ⟨state, []⟩)
    Reached node start (run node start calls) ∧
    ∀ position, Reached node start position →
      position.1.Staged ∧
      position.2.acts.filterMap Act.regression? = [] ∧
      (∀ name ∈ position.1.running.names, name ∉ position.1.completed.names) ∧
      (∀ name ∈ position.1.notReady.names, name ∉ position.1.running.names) ∧
      (∀ trigger now arrival,
        (position.1.cycle node trigger now arrival position.2).1.2.tracked ~ position.1.tracked) ∧
      (∀ admission, position.1.tracked ⊆ (position.1.enroll admission position.2).1.2.tracked) ∧
      (∀ admission, Admits position.1 position.2 admission) ∧
      ∀ unix, IsCensus position.1 (position.1.snapshot unix) := by
  intro start
  refine ⟨Reached.run calls .start, ?_⟩
  intro position reached
  obtain ⟨staged, orderly⟩ := reached.sound (staged_new config health now)
  refine ⟨staged, orderly.filterMap_eq, ?_, ?_, ?_, ?_, admits position.1 position.2, staged.isCensus⟩
  · intro name working
    exact (staged.absent_of_running working).2
  · intro name waiting
    exact (staged.absent_of_notReady waiting).1
  · intro trigger now arrival
    exact (sound_of_moves (moves_cycle node position.1 position.2 trigger now arrival) staged).2.1
  · intro admission
    exact (enroll_sound staged admission position.2).2.1

def willing : Node Unit Rat where
  resolve _ pod := (some ⟨pod, pod⟩, ())
  read _ _ := (.ok ⟨0, 0⟩, ())
  write _ _ _ := (.ok (), ())
  rebalance _ := (.ok (), ())

theorem staged_of_run_promoted :
    let start : Monitor Rat × Scene Unit Rat := (.new ⟨"node", 1, false, .default⟩ none 0, ⟨(), []⟩)
    let calls : List (Call Rat) := [.enroll ⟨"trainer", 100⟩, .cycle .tick ⟨0, 0⟩ id]
    (run willing start calls).1.Staged ∧ (run willing start calls).1.running.names = ["trainer"] := by
  intro start calls
  obtain ⟨reached, sound⟩ := staged_of_run willing ⟨"node", 1, false, .default⟩ none 0 () calls
  exact ⟨(sound _ reached).1, by decide +kernel⟩

end PodBudget.Monitor
