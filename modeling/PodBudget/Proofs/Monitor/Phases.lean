import PodBudget.Proofs.Monitor.Sweep

/-!
The phases of a cycle, taken together. What they do for a pod depends on where it stands, and it is what the discipline
of the pod says.
-/
namespace PodBudget.Monitor

variable {σ α : Type} [Number α]

open scoped List

/-- A pod stands at a stage, with a record that the stage allows. -/
inductive Stands (monitor : Monitor α) (name : String) : Stage α → Prop
  | absent (running : monitor.running.get? name = none) (notReady : monitor.notReady.get? name = none)
      (completed : monitor.completed.get? name = none) : Stands monitor name .absent
  | waiting {reservation} (running : monitor.running.get? name = none)
      (notReady : monitor.notReady.get? name = some (admitted ⟨name, reservation⟩)) : Stands monitor name .waiting
  | running {pod paths} (running : monitor.running.get? name = some pod) (notReady : monitor.notReady.get? name = none)
      (known : pod.HasPaths paths) : Stands monitor name (.running (Node.handlesAt paths))
  | completed {record} (running : monitor.running.get? name = none) (notReady : monitor.notReady.get? name = none)
      (completed : monitor.completed.get? name = some record) : Stands monitor name (.completed record)

theorem Stands.stageOf_eq {monitor : Monitor α} {name : String} {stage : Stage α} (stands : Stands monitor name stage) :
    stageOf monitor name = stage := by
  cases stands with
  | absent running notReady completed => simp only [stageOf, running, notReady, completed]
  | waiting running notReady => simp only [stageOf, running, notReady]
  | running running _ known => simp only [stageOf, running, known.handles]
  | completed running notReady completed => simp only [stageOf, running, notReady, completed]

theorem Stands.carry {before after : Monitor α} {name : String} {stage : Stage α} (stands : Stands before name stage)
    (running : after.running = before.running) (notReady : after.notReady = before.notReady)
    (completed : after.completed = before.completed) : Stands after name stage := by
  cases stands with
  | absent free clear same => exact .absent (running ▸ free) (notReady ▸ clear) (completed ▸ same)
  | waiting free found => exact .waiting (running ▸ free) (notReady ▸ found)
  | running found clear known => exact .running (running ▸ found) (notReady ▸ clear) known
  | completed free clear same => exact .completed (running ▸ free) (notReady ▸ clear) (completed ▸ same)

theorem stands_of_away {monitor : Monitor α} {name : String} (running : monitor.running.get? name = none)
    (notReady : monitor.notReady.get? name = none) :
    ∃ stage, Stands monitor name stage ∧ ¬ stage.IsLive ∧ ∀ after : Monitor α, after.running.get? name = none →
      after.notReady.get? name = none → after.completed.get? name = monitor.completed.get? name →
      Stands after name stage := by
  cases found : monitor.completed.get? name with
  | none =>
    refine ⟨.absent, .absent running notReady found, id, ?_⟩
    intro after free clear same
    exact .absent free clear same
  | some record =>
    refine ⟨.completed record, .completed running notReady found, id, ?_⟩
    intro after free clear same
    exact .completed free clear same

structure Orderly (config : MonitorConfig α) (monitor : Monitor α) : Prop where
  config : monitor.config = config
  staged : monitor.Staged
  stands : ∀ name, ∃ stage, Stands monitor name stage

theorem Orderly.waiting {config : MonitorConfig α} {monitor : Monitor α} (orderly : Orderly config monitor) {name : String}
    (member : name ∈ monitor.notReady.names) :
    ∃ reservation, monitor.notReady.get? name = some (admitted ⟨name, reservation⟩) := by
  obtain ⟨pod, found⟩ := (Roster.mem_names_iff ..).mp member
  obtain ⟨stage, stands⟩ := orderly.stands name
  cases stands with
  | waiting _ present => exact ⟨_, present⟩
  | absent _ clear _ => cases clear.symm.trans found
  | running _ clear _ => cases clear.symm.trans found
  | completed _ clear _ => cases clear.symm.trans found

omit [Number α] in
theorem Reported.reads {paths : PerKind String} {readings : Readings} {acts : List (Act α)}
    (reported : Reported (Node.handlesAt paths) readings acts) :
    ∃ cpu gpu, acts = readsAt paths cpu gpu ∧ readings.lost = (Node.isGone cpu || Node.isGone gpu) := by
  obtain ⟨outcomes, length, rfl, rfl⟩ := reported
  match outcomes, length with
  | [cpu, gpu], _ =>
    refine ⟨cpu, gpu, rfl, ?_⟩
    simp [Readings.lost, Node.handlesAt, Kind.all]

theorem isLost_iff {samples reports : List Sample} (distinct : (samples.map (·.name)).Nodup)
    (gathered : reports <+~ samples) {sample : Sample} (member : sample ∈ samples) :
    IsLost reports sample.name ↔ sample.name ∈ reports.map (·.name) ∧ sample.readings.lost = true := by
  have only (other : Sample) (present : other ∈ reports) (same : other.name = sample.name) : other = sample :=
    List.inj_on_of_nodup_map distinct (gathered.subset present) member same
  constructor
  · rintro ⟨other, present, same, lost⟩
    obtain rfl := only other present same
    exact ⟨List.mem_map_of_mem present, lost⟩
  · rintro ⟨listed, lost⟩
    obtain ⟨other, present, same⟩ := List.mem_map.mp listed
    obtain rfl := only other present same
    exact ⟨other, present, rfl, lost⟩

/-- What the phases of a cycle do, from one monitor to the next. -/
structure Phases (before swept allocated after : Monitor α) (samples reports : List Sample) (pass : Pass α) : Prop where
  sampled : Sampled before.running.entries samples pass.sampling
  gathered : reports <+~ samples
  heard : pass.heard = reports.map (·.name)
  sweep : Swept before reports swept pass.completing
  allocation : Allocated swept pass.allocation allocated pass.allocating
  raised : Raised allocated.notReady.names allocated after pass.promoting

namespace Phases

variable {config : MonitorConfig α} {before swept allocated after : Monitor α} {samples reports : List Sample}
  {pass : Pass α} {name : String} (phases : Phases before swept allocated after samples reports pass)
include phases

omit [Number α] in
theorem quiet_of_free (free : before.running.get? name = none) :
    own name pass.sampling = [] ∧ own name pass.completing = [] ∧ own name pass.allocating = [] ∧
      allocated.running.get? name = none ∧ allocated.notReady.get? name = before.notReady.get? name ∧
      allocated.completed.get? name = before.completed.get? name := by
  have unknown : name ∉ before.running.names := (Roster.get?_eq_none_iff ..).mp free
  obtain ⟨gone, kept, nothing⟩ := phases.sweep.away name free
  have absent : name ∉ swept.running.names := (Roster.get?_eq_none_iff ..).mp gone
  have still : name ∉ allocated.running.names := by rwa [phases.allocation.names]
  refine ⟨phases.sampled.turns.idle name unknown, nothing, phases.allocation.idle name absent, ?_, ?_, ?_⟩
  · exact (Roster.get?_eq_none_iff ..).mpr still
  · rw [phases.allocation.notReady, phases.sweep.notReady]
  · rw [phases.allocation.completed, kept]

omit [Number α] in
theorem unraised (settled : allocated.notReady.get? name = none) :
    own name pass.promoting = [] ∧ after.notReady.get? name = none ∧
      after.running.get? name = allocated.running.get? name := by
  have absent : name ∉ allocated.notReady.names := (Roster.get?_eq_none_iff ..).mp settled
  obtain ⟨waiting, working⟩ := phases.raised.apart name absent
  exact ⟨phases.raised.turns.idle name absent, waiting.trans settled, working⟩

theorem obeys_of_away (free : before.running.get? name = none) (clear : before.notReady.get? name = none) :
    ∃ stage, Stands before name stage ∧ Obeys config name stage (.cycle pass) stage ∧ Stands after name stage := by
  obtain ⟨sampling, completing, allocating, running, notReady, completed⟩ := phases.quiet_of_free free
  obtain ⟨promoting, still, same⟩ := phases.unraised (notReady.trans clear)
  obtain ⟨stage, stands, away, stays⟩ := stands_of_away free clear
  refine ⟨stage, stands, .idle away ⟨sampling, completing, allocating, promoting⟩, ?_⟩
  refine stays after (same.trans running) still ?_
  rw [phases.raised.completed, completed]

theorem obeys_of_waiting {reservation : α} (settings : before.config = config)
    (free : before.running.get? name = none)
    (found : before.notReady.get? name = some (admitted ⟨name, reservation⟩)) :
    ∃ stage, Obeys config name .waiting (.cycle pass) stage ∧ Stands after name stage := by
  obtain ⟨sampling, completing, allocating, running, notReady, _⟩ := phases.quiet_of_free free
  have waiting : name ∈ allocated.notReady.names := (Roster.mem_names_iff ..).mpr ⟨_, notReady.trans found⟩
  have same : allocated.config = config := phases.allocation.config.trans (phases.sweep.config.trans settings)
  have asked := same ▸ phases.raised.turns.taken name waiting
  generalize promoting : own name pass.promoting = acts at asked
  cases asked with
  | waits stays idle =>
    refine ⟨.waiting, .waits ⟨sampling, completing, allocating, promoting⟩, ?_⟩
    exact .waiting (idle.trans running) (stays.trans (notReady.trans found))
  | starts begins known clear starts =>
    exact ⟨_, .starts begins ⟨sampling, completing, allocating, promoting⟩, .running starts clear known⟩

theorem obeys_of_running {pod : Pod α} {paths : PerKind String} (found : before.running.get? name = some pod)
    (clear : before.notReady.get? name = none) (named : pod.name = name) (known : pod.HasPaths paths) :
    ∃ stage, Obeys config name (.running (Node.handlesAt paths)) (.cycle pass) stage ∧ Stands after name stage := by
  have working : name ∈ before.running.entries.map (·.1) := (Roster.mem_names_iff ..).mpr ⟨pod, found⟩
  have distinct : (samples.map (·.name)).Nodup := phases.sampled.names ▸ before.running.nodup_names
  obtain ⟨other, inside, sample, member, same, reported⟩ := phases.sampled.turns.taken name working
  obtain rfl := Option.some.inj (found.symm.trans ((Roster.get?_eq_some_iff ..).mpr inside))
  obtain ⟨cpu, gpu, reads, lost⟩ := (known.handles ▸ reported).reads
  have settled : allocated.notReady.get? name = none := by
    rw [phases.allocation.notReady, phases.sweep.notReady, clear]
  obtain ⟨promoting, still, stays⟩ := phases.unraised settled
  have verdict : IsLost reports name ↔ name ∈ pass.heard ∧ (Node.isGone cpu = true ∨ Node.isGone gpu = true) := by
    rw [← same, isLost_iff distinct phases.gathered member, phases.heard, lost, Bool.or_eq_true]
  -- Whether it ends is decided by the reports that came in, not by what was read.
  by_cases gone : IsLost reports name
  · obtain ⟨record, free, completed, completing⟩ := phases.sweep.lost name pod found gone
    have absent : name ∉ swept.running.names := (Roster.get?_eq_none_iff ..).mp free
    have vacant : allocated.running.get? name = none :=
      (Roster.get?_eq_none_iff ..).mpr (by rwa [phases.allocation.names])
    have allocating := phases.allocation.idle name absent
    obtain ⟨listed, source⟩ := verdict.mp gone
    refine ⟨.completed record, .ends listed source ⟨reads, completing, allocating, promoting⟩, ?_⟩
    refine .completed (stays.trans vacant) still ?_
    rw [phases.raised.completed, phases.allocation.completed, completed]
  · obtain ⟨next, present, carried, kept, completing⟩ := phases.sweep.kept name pod found gone
    obtain ⟨last, running, same, allocating⟩ := phases.allocation.working name next present
    have fine (listed : name ∈ pass.heard) : Node.isGone cpu = false ∧ Node.isGone gpu = false := by
      have sound := mt verdict.mpr gone
      simp only [listed, true_and, not_or, Bool.not_eq_true] at sound
      exact sound
    have handles : (fun kind => (next.resource kind).handle?) = fun kind => some ⟨kind, paths.get kind⟩ :=
      funext (known.kept kept)
    rw [IsAssigned, carried, named, handles] at allocating
    refine ⟨_, .goesOn fine allocating ⟨reads, completing, rfl, promoting⟩, ?_⟩
    exact .running (stays.trans running) still ((known.kept kept).kept same)

theorem obeys (orderly : Orderly config before) (name : String) :
    ∃ stage next, Stands before name stage ∧ Obeys config name stage (.cycle pass) next ∧ Stands after name next := by
  obtain ⟨stage, stands⟩ := orderly.stands name
  cases stands with
  | absent free clear _ =>
    obtain ⟨stage, stands, obeys, still⟩ := phases.obeys_of_away free clear
    exact ⟨stage, stage, stands, obeys, still⟩
  | completed free clear _ =>
    obtain ⟨stage, stands, obeys, still⟩ := phases.obeys_of_away free clear
    exact ⟨stage, stage, stands, obeys, still⟩
  | waiting free found =>
    obtain ⟨next, obeys, later⟩ := phases.obeys_of_waiting orderly.config free found
    exact ⟨.waiting, next, .waiting free found, obeys, later⟩
  | running found clear known =>
    have named := (orderly.staged.running name _ found).1
    obtain ⟨next, obeys, later⟩ := phases.obeys_of_running found clear named known
    exact ⟨_, next, .running found clear known, obeys, later⟩

omit [Number α] in
theorem shared : ∀ deed ∈ pass.deeds, deed.pod = none → IsRemark deed := by
  intro deed member owner
  simp only [Pass.deeds, List.mem_append] at member
  rcases member with ((sampling | completing) | allocating) | promoting
  · exact absurd owner (phases.sampled.turns.owned deed sampling)
  · exact absurd owner (phases.sweep.owned deed completing)
  · exact phases.allocation.shared deed allocating owner
  · exact absurd owner (phases.raised.turns.owned deed promoting)

omit [Number α] in
theorem config_eq : after.config = before.config := by
  rw [phases.raised.config, phases.allocation.config, phases.sweep.config]

end Phases

end PodBudget.Monitor
