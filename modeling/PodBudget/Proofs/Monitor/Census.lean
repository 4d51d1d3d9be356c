import PodBudget.Proofs.Monitor.Stages

/-! What a snapshot shows of a monitor whose records are staged. -/
namespace PodBudget.Monitor

variable {α : Type}

/-- A snapshot with one record for each tracked pod, under its stage and in the order of the names. -/
structure IsCensus (monitor : Monitor α) (shot : NodeSnapshot α) : Prop where
  names : (shot.notReady ++ shot.running ++ shot.completed).map (·.name) = monitor.tracked
  once : ((shot.notReady ++ shot.running ++ shot.completed).map (·.name)).Nodup
  notReady : ∀ record ∈ shot.notReady, record.status = .notReady
  running : ∀ record ∈ shot.running, record.status = .running
  completed : ∀ record ∈ shot.completed, record.status = .completed
  ordered : ∀ records ∈ [shot.notReady, shot.running, shot.completed],
    (records.map (·.name)).Pairwise (· < ·)

private theorem names_snapshots (roster : Roster (Pod α))
    (own : ∀ name pod, roster.get? name = some pod → pod.name = name) :
    (roster.values.map Pod.snapshot).map (·.name) = roster.names := by
  simp only [Roster.values, Roster.names, List.map_map]
  apply List.map_congr_left
  intro entry member
  exact own entry.1 entry.2 ((Roster.get?_eq_some_iff ..).mpr member)

private theorem status_snapshots (roster : Roster (Pod α)) (stage : PodStatus)
    (own : ∀ name pod, roster.get? name = some pod → pod.status = stage) :
    ∀ record ∈ roster.values.map Pod.snapshot, record.status = stage := by
  intro record member
  obtain ⟨pod, present, rfl⟩ := List.mem_map.mp member
  obtain ⟨name, found⟩ := (Roster.mem_values_iff ..).mp present
  exact own name pod found

theorem Staged.isCensus {monitor : Monitor α} (staged : monitor.Staged) (unix : Int) :
    IsCensus monitor (monitor.snapshot unix) := by
  have notReady := names_snapshots monitor.notReady fun name pod found => (staged.notReady name pod found).1
  have running := names_snapshots monitor.running fun name pod found => (staged.running name pod found).1
  have completed := names_snapshots monitor.completed fun name pod found => (staged.completed name pod found).1
  have all : ((monitor.snapshot unix).notReady ++ (monitor.snapshot unix).running ++
      (monitor.snapshot unix).completed).map (·.name) = monitor.tracked := by
    rw [List.map_append, List.map_append]
    exact congrArg₂ _ (congrArg₂ _ notReady running) completed
  refine ⟨all, all ▸ staged.distinct, ?_, ?_, ?_, ?_⟩
  · exact status_snapshots _ _ fun name pod found => (staged.notReady name pod found).2
  · exact status_snapshots _ _ fun name pod found => (staged.running name pod found).2.1
  · exact status_snapshots _ _ fun name pod found => (staged.completed name pod found).2
  · intro records member
    simp only [List.mem_cons, List.not_mem_nil, or_false] at member
    rcases member with rfl | rfl | rfl
    · exact notReady.symm ▸ monitor.notReady.ascending_names
    · exact running.symm ▸ monitor.running.ascending_names
    · exact completed.symm ▸ monitor.completed.ascending_names

end PodBudget.Monitor
