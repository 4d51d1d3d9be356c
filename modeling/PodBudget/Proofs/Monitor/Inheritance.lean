import PodBudget.Proofs.Monitor.Billing
import PodBudget.Proofs.Monitor.Reports

/-!
Which admission a record goes back to. A cycle makes no record: each one it leaves continues one that was there, of the
same name and with the same reservation, and no pod begins to wait in it.
-/
namespace PodBudget.Monitor

variable {σ α : Type}

def Records (monitor : Monitor α) (name : String) (pod : Pod α) : Prop :=
  monitor.notReady.get? name = some pod ∨ monitor.Holds name pod

theorem mem_tracked_iff (monitor : Monitor α) (name : String) :
    name ∈ monitor.tracked ↔ ∃ pod, monitor.Records name pod := by
  simp only [tracked, List.mem_append, Roster.mem_names_iff, Records, Holds, exists_or, or_assoc]

/-- Each record was there before, under the same name and with the same reservation, and those that wait waited. -/
structure Inherits (before after : Monitor α) : Prop where
  record : ∀ name pod, after.Records name pod → ∃ old, before.Records name old ∧ pod.reservation = old.reservation
  waiting : ∀ name pod, after.notReady.get? name = some pod → before.notReady.get? name = some pod

theorem Inherits.trans {before middle after : Monitor α} (early : Inherits before middle)
    (late : Inherits middle after) : Inherits before after := by
  refine ⟨fun name pod found => ?_, fun name pod found => early.waiting name pod (late.waiting name pod found)⟩
  obtain ⟨between, present, same⟩ := late.record name pod found
  obtain ⟨old, held, equal⟩ := early.record name between present
  exact ⟨old, held, same.trans equal⟩

theorem Inherits.of_running {before after : Monitor α} (notReady : after.notReady = before.notReady)
    (running : after.running = before.running) (completed : after.completed = before.completed) :
    Inherits before after := by
  refine ⟨fun name pod found => ?_, fun name pod found => notReady ▸ found⟩
  rw [Records, Holds, notReady, running, completed] at found
  exact ⟨pod, found, rfl⟩

theorem Inherits.refl (monitor : Monitor α) : Inherits monitor monitor := .of_running rfl rfl rfl

variable [Number α]

theorem Inherits.of_idle {before after : Monitor α} (notReady : after.notReady = before.notReady)
    (idle : Idle before after) : Inherits before after := by
  refine ⟨?_, fun name pod found => notReady ▸ found⟩
  rintro name pod (waiting | held)
  · exact ⟨pod, .inl (notReady ▸ waiting), rfl⟩
  · obtain ⟨old, present, rests⟩ := idle.held name pod held
    exact ⟨old, .inr present, congrArg Account.reservation rests.account⟩

theorem inherits_complete (monitor : Monitor α) (name : String) (scene : Scene σ α) :
    Inherits monitor (monitor.complete name scene).1 := by
  refine .of_idle ?_ (yields_complete monitor name scene)
  rw [complete_eq, closing]
  split <;> rfl

theorem inherits_allocateIfActing (node : Node σ α) {monitor : Monitor α} (staged : monitor.Staged) (remaining : α)
    (now : Moment) (scene : Scene σ α) :
    Inherits monitor (monitor.allocateIfActing node remaining now scene).1.2 := by
  cases acting : monitor.config.monitoringOnly with
  | true =>
    rw [allocateIfActing, acting]
    exact .refl monitor
  | false =>
    obtain ⟨-, settles⟩ := yields_allocateIfActing node monitor remaining now acting staged scene
    obtain ⟨steady, -⟩ := ensures_allocateIfActing node monitor remaining now scene
    refine ⟨?_, fun name pod found => steady.notReady ▸ found⟩
    rintro name pod (waiting | running | completed)
    · exact ⟨pod, .inl (steady.notReady ▸ waiting), rfl⟩
    · obtain ⟨old, present, charged⟩ := settles.get? running
      exact ⟨old, .inr (.inl present), charged.reservation⟩
    · exact ⟨pod, .inr (.inr (steady.completed ▸ completed)), rfl⟩

theorem inherits_promote (node : Node σ α) (monitor : Monitor α) (now : Nat) (name : String) (pod : Pod α)
    (paths : PerKind String) (waiting : monitor.notReady.get? name = some pod) (scene : Scene σ α) :
    Inherits monitor (monitor.promote node now name pod paths scene).1 := by
  obtain ⟨-, notReady, completed, ready, running, account⟩ := yields_promote node monitor now name pod paths scene
  constructor
  · intro other value found
    rw [Records, Holds, notReady, running, completed, Roster.get?_erase, Roster.get?_insert] at found
    by_cases same : name = other
    · subst same
      simp only [↓reduceIte, reduceCtorEq, Option.some.injEq, false_or] at found
      rcases found with rfl | ended
      · exact ⟨pod, .inl waiting, congrArg Account.reservation account⟩
      · exact ⟨value, .inr (.inr ended), rfl⟩
    · simp only [same, ↓reduceIte] at found
      exact ⟨value, found, rfl⟩
  · intro other value found
    rw [notReady, Roster.get?_erase, Option.ite_none_left_eq_some] at found
    exact found.2

theorem Move.inherits {node : Node σ α} {before after : Monitor α × Scene σ α} (move : Move node before after)
    (staged : before.1.Staged) : Inherits before.1 after.1 := by
  cases move with
  | expire trigger now =>
    rw [expire_eq]
    exact .of_running rfl rfl rfl
  | sample entries => exact .refl _
  | report samples => exact .of_idle rfl (idle_foldSamples _ samples)
  | complete name => exact inherits_complete _ name _
  | allocate remaining now => exact inherits_allocateIfActing node staged remaining now _
  | ask name => exact .refl _
  | promote now name pod paths waiting => exact inherits_promote node _ now name pod paths waiting _
  | publish unix => exact .of_running rfl rfl rfl

theorem inherits_of_moves {node : Node σ α} {before after : Monitor α × Scene σ α} (moves : Moves node before after)
    (staged : before.1.Staged) : Inherits before.1 after.1 := by
  induction moves with
  | refl => exact .refl before.1
  | tail moves move ih => exact ih.trans (move.inherits (sound_of_moves moves staged).1)

theorem records_taking {monitor : Monitor α} {admission : Admission α} {name : String} {pod : Pod α}
    (free : ¬ monitor.isLive admission.name = true) (found : (monitor.taking admission).Records name pod) :
    if admission.name = name then pod.reservation = admission.reservation else monitor.Records name pod := by
  rw [Records, Holds, taking, Roster.get?_insert, Roster.get?_erase] at found
  by_cases same : admission.name = name
  · subst same
    obtain ⟨-, idle⟩ := not_or.mp ((isLive_iff monitor admission.name).not.mp free)
    rw [if_pos rfl, if_pos rfl, (monitor.running.get?_eq_none_iff admission.name).mpr idle] at found
    simp only [Option.some.injEq, reduceCtorEq, or_false] at found
    rw [if_pos rfl, ← found]
    rfl
  · rw [if_neg same, if_neg same] at found
    rw [if_neg same]
    exact found

end PodBudget.Monitor
