import PodBudget.Proofs.Monitor.Discipline

/-!
What taking the reports in does, pod by pod. A pod whose worker reported a source gone completes; every other pod goes
on, with the same control files.
-/
namespace PodBudget.Monitor

variable {σ α : Type}

open scoped List

def IsLost (reports : List Sample) (name : String) : Prop :=
  ∃ sample ∈ reports, sample.name = name ∧ sample.readings.lost = true

/-- What becomes of the running pods once the reports are in. -/
structure Swept (before : Monitor α) (reports : List Sample) (after : Monitor α) (deeds : List (Deed α)) : Prop where
  config : after.config = before.config
  notReady : after.notReady = before.notReady
  owned : ∀ deed ∈ deeds, deed.pod ≠ none
  lost : ∀ name pod, before.running.get? name = some pod → IsLost reports name →
    ∃ record : Pod α, after.running.get? name = none ∧ after.completed.get? name = some record ∧
      own name deeds = [.logged (.podCompleted name record.updates record.queue)]
  kept : ∀ name pod, before.running.get? name = some pod → ¬ IsLost reports name →
    ∃ next, after.running.get? name = some next ∧ next.name = pod.name ∧ pod.SameHandles next ∧ own name deeds = []
  away : ∀ name, before.running.get? name = none →
    after.running.get? name = none ∧ after.completed.get? name = before.completed.get? name ∧ own name deeds = []

variable [Number α]

theorem mem_gone_iff (running : Roster (Pod α)) (reports : List Sample) (name : String) :
    name ∈ (foldSamples running reports).2 ↔ running.contains name = true ∧ IsLost reports name := by
  rw [gone_foldSamples, List.mem_map]
  constructor
  · rintro ⟨sample, member, rfl⟩
    obtain ⟨present, both⟩ := List.mem_filter.mp member
    obtain ⟨known, lost⟩ := Bool.and_eq_true_iff.mp both
    exact ⟨known, sample, present, rfl, lost⟩
  · rintro ⟨known, sample, present, rfl, lost⟩
    exact ⟨sample, List.mem_filter.mpr ⟨present, Bool.and_eq_true_iff.mpr ⟨known, lost⟩⟩, rfl⟩

theorem folded_of_running {running : Roster (Pod α)} {name : String} {pod : Pod α}
    (found : running.get? name = some pod) (reports : List Sample) :
    ∃ next, (foldSamples running reports).1.get? name = some next ∧ next.name = pod.name ∧ pod.SameHandles next := by
  rw [get?_foldSamples, found, Option.map_some]
  refine ⟨_, rfl, ?_⟩
  generalize reports.filter (fun sample => sample.name = name) = mine
  clear found
  induction mine generalizing pod with
  | nil => exact ⟨rfl, .refl pod⟩
  | cons sample rest ih =>
    obtain ⟨named, same⟩ := @ih (pod.recordSamples sample.readings).2
    have recorded := pod.keeps_recordSamples sample.readings
    exact ⟨named.trans recorded.name, (pod.sameGrants_recordSamples sample.readings).sameHandles.trans same⟩

theorem swept_takeIn (monitor : Monitor α) (staged : monitor.Staged) {reports : List Sample}
    (distinct : (reports.map (·.name)).Nodup) (scene : Scene σ α) :
    ∃ deeds, Swept monitor reports (monitor.takeIn reports scene).1.2 deeds ∧
      (monitor.takeIn reports scene).2.acts = scene.acts ++ deeds.map (·.act) := by
  let folded : Monitor α := { monitor with running := (foldSamples monitor.running reports).1 }
  let gone := (foldSamples monitor.running reports).2
  have steady : folded.Staged := (steady_foldSamples monitor reports).staged staged
  have turns := turns_flatMap folded.closingActs (nodup_gone monitor.running distinct)
  have away (name : String) (absent : ¬ (monitor.running.contains name = true ∧ IsLost reports name)) : name ∉ gone :=
    mt (mem_gone_iff monitor.running reports name).mp absent
  rw [takeIn_eq monitor distinct scene]
  refine ⟨gone.flatMap fun name => work name (folded.closingActs name), ?_, ?_⟩
  · refine ⟨?_, ?_, turns.owned, ?_, ?_, ?_⟩
    · rw [closings_eq]
    · rw [closings_eq]
    · intro name pod found lost
      have known : monitor.running.contains name = true := by rw [Roster.contains, found]; rfl
      have member : name ∈ gone := (mem_gone_iff ..).mpr ⟨known, lost⟩
      obtain ⟨last, present, _, _⟩ := folded_of_running found reports
      have present : folded.running.get? name = some last := present
      refine ⟨last.movedTo .completed, ?_, ?_, ?_⟩
      · rw [get?_running_closings, if_pos member]
      · rw [get?_completed_closings, if_pos member, present]
        rfl
      · rw [turns.taken name member, steady.closingActs present]
        unfold Pod.movedTo
        split <;> rfl
    · intro name pod found fine
      have absent := away name fun lost => fine lost.2
      obtain ⟨last, present, named, same⟩ := folded_of_running found reports
      refine ⟨last, ?_, named, same, turns.idle name absent⟩
      rw [get?_running_closings, if_neg absent]
      exact present
    · intro name free
      have unknown : ¬ monitor.running.contains name = true := by simp [Roster.contains, free]
      have absent := away name fun lost => unknown lost.1
      refine ⟨?_, ?_, turns.idle name absent⟩
      · rw [get?_running_closings, if_neg absent]
        change (foldSamples monitor.running reports).1.get? name = none
        rw [get?_foldSamples, free]
        rfl
      · rw [get?_completed_closings, if_neg absent]
  · simp only [List.map_flatMap, acts_work]
    rfl

end PodBudget.Monitor
