import Mathlib.Data.List.Nodup
import PodBudget.Proofs.Monitor.Stages
import PodBudget.Proofs.PodActs

/-!
The reports of the workers. A report goes to the record of its own pod and to no other, and a completion moves one
record; so it makes no difference in which order the reports of different pods are taken in, or the pods completed.
-/
namespace PodBudget.Monitor

variable {σ α : Type}

open scoped List

def closing (monitor : Monitor α) (name : String) : Monitor α :=
  match monitor.running.get? name with
  | none => monitor
  | some pod =>
    { monitor with
      running := monitor.running.erase name
      completed := monitor.completed.insert name (pod.movedTo .completed) }

def closingActs (monitor : Monitor α) (name : String) : List (Act α) :=
  match monitor.running.get? name with
  | none => []
  | some pod => pod.refusals .completed ++ [.logged (.podCompleted name pod.updates pod.queue)]

theorem complete_eq (monitor : Monitor α) (name : String) (scene : Scene σ α) :
    monitor.complete name scene =
      (monitor.closing name, { scene with acts := scene.acts ++ monitor.closingActs name }) := by
  unfold complete closing closingActs
  cases monitor.running.get? name with
  | none =>
    rw [List.append_nil]
    rfl
  | some pod =>
    have kept : (pod.movedTo .completed).updates = pod.updates ∧ (pod.movedTo .completed).queue = pod.queue := by
      unfold Pod.movedTo
      split <;> exact ⟨rfl, rfl⟩
    simp only [bind, StateT.bind, Pod.moveTo_eq, Event.log, kept.1, kept.2, List.append_assoc]
    rfl

theorem noted_of_mem_closingActs {monitor : Monitor α} {name : String} {act : Act α}
    (member : act ∈ monitor.closingActs name) : (∃ regression, act = .refused regression) ∨ ∃ event, act = .logged event := by
  unfold closingActs Pod.refusals at member
  split at member
  · cases member
  · rcases List.mem_append.mp member with refused | logged
    · split at refused
      · cases refused
      · exact .inl ⟨_, List.mem_singleton.mp refused⟩
    · exact .inr ⟨_, List.mem_singleton.mp logged⟩

theorem get?_running_closing (monitor : Monitor α) (name other : String) :
    (monitor.closing name).running.get? other = if other = name then none else monitor.running.get? other := by
  unfold closing
  split
  · next absent =>
    split
    · next same => rw [same, absent]
    · rfl
  · rw [Roster.get?_erase]
    exact if_congr eq_comm rfl rfl

theorem get?_completed_closing (monitor : Monitor α) (name other : String) :
    (monitor.closing name).completed.get? other =
      if other = name then ((monitor.running.get? name).map (·.movedTo .completed)).or (monitor.completed.get? name)
      else monitor.completed.get? other := by
  unfold closing
  split
  · next absent =>
    split
    · next same => rw [absent, same]; rfl
    · rfl
  · next pod found =>
    rw [Roster.get?_insert, found]
    exact if_congr eq_comm rfl rfl

section

variable (monitor : Monitor α) (names : List String)

theorem get?_running_closings (other : String) :
    (names.foldl closing monitor).running.get? other = if other ∈ names then none else monitor.running.get? other := by
  induction names generalizing monitor with
  | nil => rfl
  | cons name rest ih =>
    rw [List.foldl_cons, ih, get?_running_closing]
    simp only [List.mem_cons]
    split_ifs <;> simp_all

theorem get?_completed_closings (other : String) :
    (names.foldl closing monitor).completed.get? other =
      if other ∈ names then ((monitor.running.get? other).map (·.movedTo .completed)).or (monitor.completed.get? other)
      else monitor.completed.get? other := by
  induction names generalizing monitor with
  | nil => rfl
  | cons name rest ih =>
    rw [List.foldl_cons, ih, get?_running_closing, get?_completed_closing]
    simp only [List.mem_cons]
    split_ifs <;> simp_all

theorem closings_eq : names.foldl closing monitor =
    { monitor with
      running := (names.foldl closing monitor).running
      completed := (names.foldl closing monitor).completed } := by
  induction names generalizing monitor with
  | nil => rfl
  | cons name rest ih =>
    rw [List.foldl_cons, ih]
    unfold closing
    split <;> rfl

variable {names} in
theorem closings_perm {others : List String} (perm : others ~ names) :
    others.foldl closing monitor = names.foldl closing monitor := by
  have running : (others.foldl closing monitor).running = (names.foldl closing monitor).running := by
    apply Roster.ext_get?
    intro name
    rw [get?_running_closings, get?_running_closings]
    exact if_congr perm.mem_iff rfl rfl
  have completed : (others.foldl closing monitor).completed = (names.foldl closing monitor).completed := by
    apply Roster.ext_get?
    intro name
    rw [get?_completed_closings, get?_completed_closings]
    exact if_congr perm.mem_iff rfl rfl
  rw [closings_eq monitor others, running, completed, ← closings_eq]

variable {names} in
theorem completeAll_eq (distinct : names.Nodup) (scene : Scene σ α) :
    monitor.completeAll names scene =
      (names.foldl closing monitor, { scene with acts := scene.acts ++ names.flatMap monitor.closingActs }) := by
  induction names generalizing monitor scene with
  | nil =>
    rw [List.flatMap_nil, List.append_nil]
    rfl
  | cons name rest ih =>
    obtain ⟨fresh, distinct⟩ := List.nodup_cons.mp distinct
    have others : rest.flatMap (monitor.closing name).closingActs = rest.flatMap monitor.closingActs := by
      apply List.flatMap_congr
      intro other member
      have differs : other ≠ name := fun same => fresh (same ▸ member)
      simp only [closingActs, get?_running_closing, differs, ↓reduceIte]
    change (monitor.complete name scene).1.completeAll rest (monitor.complete name scene).2 = _
    rw [complete_eq, ih _ distinct, others, List.foldl_cons, List.flatMap_cons, List.append_assoc]

theorem Staged.closingActs [Number α] {monitor : Monitor α} (staged : monitor.Staged) {name : String} {pod : Pod α}
    (found : monitor.running.get? name = some pod) :
    monitor.closingActs name = [.logged (.podCompleted name pod.updates pod.queue)] := by
  have forward : pod.status.rank < PodStatus.completed.rank := by
    rw [(staged.running name pod found).2.1]
    decide
  rw [Monitor.closingActs, found]
  simp only [Pod.refusals, forward, ↓reduceIte, List.nil_append]

end

theorem nodup_of_gathered {samples reports : List Sample} (gathered : reports <+~ samples)
    (distinct : (samples.map (·.name)).Nodup) : (reports.map (·.name)).Nodup := by
  obtain ⟨kept, perm, inside⟩ := gathered
  exact (perm.map _).nodup_iff.mp (distinct.sublist (inside.map _))

variable [Number α]

theorem get?_foldSample (running : Roster (Pod α)) (gone : List String) (sample : Sample) (name : String) :
    (foldSample running gone sample).1.get? name =
      (running.get? name).map fun pod =>
        if sample.name = name then (pod.recordSamples sample.readings).2 else pod := by
  unfold foldSample
  split
  · next absent =>
    by_cases same : sample.name = name
    · rw [← same, absent]; rfl
    · simp [same]
  · next pod found =>
    change (running.modify sample.name fun _ => (pod.recordSamples sample.readings).2).get? name = _
    rw [Roster.modify, Roster.get?_map]
    by_cases same : sample.name = name
    · subst same
      simp [found]
    · simp [same, Ne.symm same]

theorem gone_foldSample (running : Roster (Pod α)) (gone : List String) (sample : Sample) :
    (foldSample running gone sample).2 =
      gone ++ if running.contains sample.name && sample.readings.lost then [sample.name] else [] := by
  unfold foldSample Roster.contains
  split
  · next absent => simp [absent]
  · next pod found =>
    simp only [found, Option.isSome_some, Bool.true_and, Pod.present_recordSamples]
    cases sample.readings.lost <;> simp

theorem get?_foldSamples (running : Roster (Pod α)) (samples : List Sample) (name : String) :
    (foldSamples running samples).1.get? name =
      (running.get? name).map fun pod =>
        (samples.filter fun sample => sample.name = name).foldl
          (fun pod sample => (pod.recordSamples sample.readings).2) pod := by
  unfold foldSamples
  generalize ([] : List String) = gone
  induction samples generalizing running gone with
  | nil => simp
  | cons sample rest ih =>
    rw [List.foldl_cons]
    refine (ih (foldSample running gone sample).1 (foldSample running gone sample).2).trans ?_
    rw [get?_foldSample, Option.map_map, List.filter_cons]
    congr 1
    funext pod
    by_cases same : sample.name = name <;> simp [same]

theorem gone_foldSamples (running : Roster (Pod α)) (samples : List Sample) :
    (foldSamples running samples).2 =
      (samples.filter fun sample => running.contains sample.name && sample.readings.lost).map (·.name) := by
  -- The names found so far and the records are generalised; which names are known never changes on the way.
  have general (gone : List String) (running others : Roster (Pod α)) (same : others.contains = running.contains) :
      (samples.foldl (fun state sample => foldSample state.1 state.2 sample) (others, gone)).2 =
        gone ++ (samples.filter fun sample => running.contains sample.name && sample.readings.lost).map (·.name) := by
    induction samples generalizing gone others with
    | nil => simp
    | cons sample rest ih =>
      have kept : (foldSample others gone sample).1.contains = running.contains := by
        rw [← same]
        funext name
        rw [Roster.contains, get?_foldSample, Option.isSome_map, Roster.contains]
      rw [List.foldl_cons]
      refine (ih (foldSample others gone sample).2 (foldSample others gone sample).1 kept).trans ?_
      rw [gone_foldSample, same, List.filter_cons, List.append_assoc]
      split <;> rfl
  exact general [] running running rfl

theorem filter_eq_of_perm {samples others : List Sample} (perm : others ~ samples)
    (distinct : (samples.map (·.name)).Nodup) (name : String) :
    (others.filter fun sample => sample.name = name) = samples.filter fun sample => sample.name = name := by
  have few : (samples.filter fun sample => sample.name = name).length ≤ 1 := by
    have once := List.nodup_iff_count_le_one.mp distinct name
    rw [List.count, List.countP_map, List.countP_eq_length_filter] at once
    exact once
  have same := perm.filter fun sample => sample.name = name
  generalize samples.filter (fun sample => sample.name = name) = kept at few same
  match kept, few with
  | [], _ => exact same.eq_nil
  | [sample], _ => exact List.perm_singleton.mp same

theorem foldSamples_perm (running : Roster (Pod α)) {samples others : List Sample} (perm : others ~ samples)
    (distinct : (samples.map (·.name)).Nodup) :
    (foldSamples running others).1 = (foldSamples running samples).1 ∧
      (foldSamples running others).2 ~ (foldSamples running samples).2 := by
  constructor
  · apply Roster.ext_get?
    intro name
    rw [get?_foldSamples, get?_foldSamples, filter_eq_of_perm perm distinct]
  · rw [gone_foldSamples, gone_foldSamples]
    exact (perm.filter _).map _

theorem nodup_gone (running : Roster (Pod α)) {samples : List Sample} (distinct : (samples.map (·.name)).Nodup) :
    (foldSamples running samples).2.Nodup := by
  rw [gone_foldSamples]
  exact distinct.sublist (List.filter_sublist.map _)

theorem takeIn_eq (monitor : Monitor α) {samples : List Sample} (distinct : (samples.map (·.name)).Nodup)
    (scene : Scene σ α) :
    let folded : Monitor α := { monitor with running := (foldSamples monitor.running samples).1 }
    let gone := (foldSamples monitor.running samples).2
    monitor.takeIn samples scene =
      ((gone, gone.foldl closing folded), { scene with acts := scene.acts ++ gone.flatMap folded.closingActs }) := by
  intro folded gone
  have completes := folded.completeAll_eq (nodup_gone monitor.running distinct) scene
  exact congrArg (fun out => ((gone, out.1), out.2)) completes

end PodBudget.Monitor
