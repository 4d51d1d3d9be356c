import PodBudget.Monitor.Cycle
import PodBudget.Proofs.PodRecord
import PodBudget.Proofs.Roster

/-!
Where the records of a monitor stand. Each name has one record, kept under that name in the roster of its stage.
Sampling and allocation leave every record at its stage; admission, completion and promotion move one name each,
to a place that is free.
-/
namespace PodBudget.Monitor

variable {σ α : Type} [Number α]

/-- The names that a monitor has a record of, stage by stage. -/
def tracked (monitor : Monitor α) : List String :=
  monitor.notReady.names ++ monitor.running.names ++ monitor.completed.names

def IsAttached (pod : Pod α) : Prop :=
  (∀ kind, (pod.resource kind).handle?.isSome) ∧ pod.lastUpdate.isSome

structure Staged (monitor : Monitor α) : Prop where
  distinct : monitor.tracked.Nodup
  notReady : ∀ name pod, monitor.notReady.get? name = some pod → pod.name = name ∧ pod.status = .notReady
  running : ∀ name pod, monitor.running.get? name = some pod →
    pod.name = name ∧ pod.status = .running ∧ IsAttached pod
  completed : ∀ name pod, monitor.completed.get? name = some pod → pod.name = name ∧ pod.status = .completed

/-- The same pods at the same stages; only running records may differ. -/
structure Steady (before after : Monitor α) : Prop where
  notReady : after.notReady = before.notReady
  running : before.running.Aligned Pod.Keeps after.running
  completed : after.completed = before.completed

omit [Number α]

theorem Steady.of_running {before after : Monitor α} (notReady : after.notReady = before.notReady)
    (running : after.running = before.running) (completed : after.completed = before.completed) :
    Steady before after :=
  ⟨notReady, running ▸ .refl Pod.Keeps.refl before.running, completed⟩

theorem expire_eq (monitor : Monitor α) (trigger : Trigger) (now : Nat) :
    monitor.expire trigger now = { monitor with lastExpired := (monitor.expire trigger now).lastExpired } := by
  unfold expire
  split <;> rfl

theorem Steady.refl (monitor : Monitor α) : Steady monitor monitor := .of_running rfl rfl rfl

theorem steady_count (monitor : Monitor α) (change : Tally → Tally) : Steady monitor (monitor.count change) :=
  .of_running rfl rfl rfl

theorem Steady.trans {before middle after : Monitor α} (first : Steady before middle)
    (second : Steady middle after) : Steady before after where
  notReady := second.notReady.trans first.notReady
  running := first.running.trans Pod.Keeps.trans second.running
  completed := second.completed.trans first.completed

theorem Steady.tracked_eq {before after : Monitor α} (steady : Steady before after) :
    after.tracked = before.tracked := by
  simp only [tracked, steady.notReady, steady.completed, steady.running.names]

theorem IsAttached.keeps {before after : Pod α} (attached : IsAttached before) (kept : Pod.Keeps before after) :
    IsAttached after := by
  refine ⟨fun kind => ?_, kept.settled attached.2⟩
  have handle := attached.1 kind
  simp only [Resource.handle?, Option.isSome_map] at handle ⊢
  rw [kept.path kind]
  exact handle

theorem Steady.staged {before after : Monitor α} (steady : Steady before after) (staged : before.Staged) :
    after.Staged where
  distinct := steady.tracked_eq ▸ staged.distinct
  notReady := steady.notReady ▸ staged.notReady
  running name pod found := by
    obtain ⟨old, present, kept⟩ := steady.running.get? found
    obtain ⟨same, status, attached⟩ := staged.running name old present
    exact ⟨kept.name.trans same, kept.status.trans status, attached.keeps kept⟩
  completed := steady.completed ▸ staged.completed

theorem staged_new (config : MonitorConfig α) (health : Option Health) (now : Nat) :
    (Monitor.new config health now).Staged where
  distinct := .nil
  notReady name _ found := absurd ((Roster.get?_empty name).symm.trans found) nofun
  running name _ found := absurd ((Roster.get?_empty name).symm.trans found) nofun
  completed name _ found := absurd ((Roster.get?_empty name).symm.trans found) nofun

-- A name stands at one stage only.

section

variable {monitor : Monitor α} (staged : monitor.Staged) {name : String}
include staged

theorem Staged.absent_of_notReady (waiting : name ∈ monitor.notReady.names) :
    name ∉ monitor.running.names ∧ name ∉ monitor.completed.names := by
  obtain ⟨⟨_, _, apart⟩, _, far⟩ := List.nodup_append.mp staged.distinct |>.imp_left List.nodup_append.mp
  exact ⟨fun member => apart name waiting name member rfl,
    fun member => far name (List.mem_append_left _ waiting) name member rfl⟩

theorem Staged.absent_of_running (working : name ∈ monitor.running.names) :
    name ∉ monitor.notReady.names ∧ name ∉ monitor.completed.names := by
  obtain ⟨⟨_, _, apart⟩, _, far⟩ := List.nodup_append.mp staged.distinct |>.imp_left List.nodup_append.mp
  exact ⟨fun member => apart name member name working rfl,
    fun member => far name (List.mem_append_right _ working) name member rfl⟩

end

end PodBudget.Monitor
