import PodBudget.Proofs.Monitor.Kept
import PodBudget.Proofs.Monitor.Reports
import PodBudget.Proofs.Monitor.Acts

/-!
Steps of a run that write nothing. Admissions, readings, reports and completions leave every grant of a running pod as
it is, and so does a pass that keeps the limits.
-/
namespace PodBudget.Monitor

variable {σ α : Type} [Number α]

/-- Nothing is written, and nothing that was granted changes. -/
structure Quiet (before after : Monitor α × Scene σ α) : Prop where
  config : after.1.config = before.1.config
  waiting : ∀ name pod, after.1.notReady.get? name = some pod →
    before.1.notReady.get? name = some pod ∨ ∃ reservation, pod = admitted ⟨name, reservation⟩
  running : ∀ name pod, after.1.running.get? name = some pod →
    ∃ old, before.1.running.get? name = some old ∧ old.SameGrants pod
  acts : before.2.Extends (fun act => act.written? = none) after.2

theorem Quiet.trans {before middle after : Monitor α × Scene σ α} (early : Quiet before middle)
    (late : Quiet middle after) : Quiet before after where
  config := late.config.trans early.config
  waiting name pod found := (late.waiting name pod found).elim (early.waiting name pod) .inr
  running name pod found := by
    obtain ⟨old, present, same⟩ := late.running name pod found
    obtain ⟨first, held, before⟩ := early.running name old present
    exact ⟨first, held, before.trans same⟩
  acts := early.acts.trans late.acts

theorem Quiet.of_aligned {before after : Monitor α} {scene next : Scene σ α} (config : after.config = before.config)
    (notReady : after.notReady = before.notReady) (running : before.running.Aligned Pod.SameGrants after.running)
    (acts : scene.Extends (fun act => act.written? = none) next) : Quiet (before, scene) (after, next) where
  config := config
  waiting _ _ found := .inl (notReady ▸ found)
  running _ _ found := running.get? found
  acts := acts

theorem Quiet.of_running {before after : Monitor α} {scene next : Scene σ α} (config : after.config = before.config)
    (notReady : after.notReady = before.notReady) (running : after.running = before.running)
    (acts : scene.Extends (fun act => act.written? = none) next) : Quiet (before, scene) (after, next) :=
  .of_aligned config notReady (running ▸ .refl Pod.SameGrants.refl before.running) acts

theorem quiet_enroll (monitor : Monitor α) (scene : Scene σ α) (admission : Admission α) :
    Quiet (monitor, scene) (standing (monitor.enroll admission scene)) := by
  by_cases live : monitor.isLive admission.name = true
  · rw [enroll_of_live monitor admission scene live]
    exact .of_running rfl rfl rfl (.refl scene)
  · rw [enroll_of_free monitor admission scene live]
    refine ⟨rfl, ?_, fun name pod found => ⟨pod, found, .refl pod⟩, _, rfl, by simp [Act.written?]⟩
    intro name pod found
    change (monitor.notReady.insert admission.name (admitted admission)).get? name = some pod at found
    rw [Roster.get?_insert] at found
    split at found
    · next same =>
      cases found
      exact .inr ⟨admission.reservation, by rw [← same]⟩
    · exact .inl found

theorem quiet_complete (monitor : Monitor α) (scene : Scene σ α) (name : String) :
    Quiet (monitor, scene) (monitor.complete name scene) := by
  rw [complete_eq]
  have still : (monitor.closing name).config = monitor.config ∧ (monitor.closing name).notReady = monitor.notReady := by
    unfold closing
    split <;> exact ⟨rfl, rfl⟩
  refine ⟨still.1, fun _ _ found => .inl (still.2 ▸ found), ?_, monitor.closingActs name, rfl, ?_⟩
  · intro other pod found
    rw [get?_running_closing] at found
    split at found
    · cases found
    · exact ⟨pod, found, .refl pod⟩
  · intro act member
    rcases noted_of_mem_closingActs member with ⟨regression, rfl⟩ | ⟨event, rfl⟩
    · rfl
    · rfl

theorem quiet_completeAll (names : List String) (monitor : Monitor α) (scene : Scene σ α) :
    Quiet (monitor, scene) (monitor.completeAll names scene) := by
  induction names generalizing monitor scene with
  | nil => exact .of_running rfl rfl rfl (.refl scene)
  | cons name rest ih => exact (quiet_complete monitor scene name).trans (ih _ _)

theorem quiet_takeIn (monitor : Monitor α) (scene : Scene σ α) (reports : List Sample) :
    Quiet (monitor, scene) (standing (monitor.takeIn reports scene)) := by
  have folded : Quiet (monitor, scene) ({ monitor with running := (foldSamples monitor.running reports).1 }, scene) :=
    .of_aligned rfl rfl
      (aligned_foldSamples Pod.SameGrants.refl Pod.SameGrants.trans Pod.sameGrants_recordSamples monitor.running reports)
      (.refl scene)
  exact folded.trans (quiet_completeAll _ _ scene)

theorem quiet_onAllocation (node : Node σ α) (position : Monitor α × Scene σ α) (trigger : Trigger) (now : Moment)
    (arrival : List Sample → List Sample) : Quiet position (onAllocation node position trigger now arrival) := by
  obtain ⟨monitor, scene⟩ := position
  have sampled : Quiet (monitor, scene) (monitor, (takeSamples node monitor.running.entries scene).2) :=
    .of_running rfl rfl rfl (ensures_takeSamples (fun _ _ => rfl) node _ scene).2
  have expired (scene : Scene σ α) : Quiet (monitor, scene) (monitor.expire trigger now.instant, scene) := by
    rw [expire_eq]
    exact .of_running rfl rfl rfl (.refl scene)
  exact (sampled.trans (expired _)).trans (quiet_takeIn _ _ _)

omit [Number α] in
theorem unwritten_of_remarks {remarks : List (Deed α)} (remark : ∀ deed ∈ remarks, IsRemark deed) :
    ∀ act ∈ remarks.map (·.act), act.written? = none := by
  intro act member
  obtain ⟨deed, present, rfl⟩ := List.mem_map.mp member
  obtain ⟨_, event, logged, _⟩ := remark deed present
  rw [logged]
  rfl

theorem sameGrants_charge (policy : Policy α) (fallback now : Nat) (pod : Pod α) :
    pod.SameGrants (charge policy fallback now pod) := fun kind => by cases kind <;> rfl

end PodBudget.Monitor
