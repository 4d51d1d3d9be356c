import PodBudget.Proofs.Monitor.Phases

/-!
The chronicle of a run: what each call did, phase by phase and pod by pod. Every pod keeps to its discipline in every
chapter, so from one call to the next its stage is the one that the discipline says.
-/
namespace PodBudget.Monitor

variable {σ α : Type} [Number α]

open scoped List

/-- A chapter is the answer to a call. Where every worker reports, every running pod is heard of. -/
def Answers (node : Node σ α) (position : Monitor α × Scene σ α) : Call α → Chapter α → Prop
  | .enroll admission, .enrollment other taken =>
    other = admission ∧ taken = (position.1.enroll admission position.2).1.1
  | .cycle trigger now arrival, .cycle pass =>
    pass.allocation = (position.1.cycle node trigger now arrival position.2).1.1.allocation ∧
      pass.heard = (arrival (takeSamples node position.1.running.entries position.2).1).map (·.name) ∧
      ((∀ samples, arrival samples ~ samples) → pass.heard ~ position.1.running.names)
  | _, _ => False

/-- A chapter tells what a call did to the node, and every pod keeps to its discipline. -/
structure Tells (node : Node σ α) (config : MonitorConfig α) (position : Monitor α × Scene σ α) (call : Call α)
    (chapter : Chapter α) : Prop where
  answers : Answers node position call chapter
  acts : (perform node position call).2.acts = position.2.acts ++ chapter.deeds.map (·.act)
  shared : ∀ deed ∈ chapter.deeds, deed.pod = none → IsRemark deed
  ordered : ∀ pass, chapter = .cycle pass → pass.ReadsFirst (stageOf position.1)
  obeys : ∀ name, Obeys config name (stageOf position.1 name) chapter (stageOf (perform node position call).1 name)

/-- Every worker reports once at most, and what it sends comes in as it was sent. -/
def Call.IsGathered : Call α → Prop
  | .enroll _ => True
  | .cycle _ _ arrival => ∀ samples, arrival samples <+~ samples

theorem swept_cycle (node : Node σ α) (monitor : Monitor α) (staged : monitor.Staged) (trigger : Trigger) (now : Nat)
    {reports : List Sample} (distinct : (reports.map (·.name)).Nodup) (scene : Scene σ α) :
    let taken := (monitor.expire trigger now).takeIn reports scene
    ∃ deeds, Swept monitor reports taken.1.2 deeds ∧ taken.2.acts = scene.acts ++ deeds.map (·.act) := by
  intro taken
  have opens : Move node (monitor, scene) (monitor.expire trigger now, scene) := .expire trigger now
  obtain ⟨deeds, sweep, acts⟩ := swept_takeIn (monitor.expire trigger now) (opens.sound staged).1 distinct scene
  refine ⟨deeds, ?_, acts⟩
  have same : (monitor.expire trigger now).config = monitor.config ∧
      (monitor.expire trigger now).notReady = monitor.notReady ∧
      (monitor.expire trigger now).running = monitor.running ∧
      (monitor.expire trigger now).completed = monitor.completed := by
    rw [expire_eq]
    exact ⟨rfl, rfl, rfl, rfl⟩
  obtain ⟨config, notReady, running, completed⟩ := same
  refine ⟨sweep.config.trans config, sweep.notReady.trans notReady, sweep.owned, ?_, ?_, ?_⟩
  · rw [← running]
    exact sweep.lost
  · rw [← running]
    exact sweep.kept
  · rw [← running, ← completed]
    exact sweep.away

theorem phases_of_cycle (node : Node σ α) {config : MonitorConfig α} {monitor : Monitor α}
    (orderly : Orderly config monitor) (scene : Scene σ α) (trigger : Trigger) (now : Moment)
    {arrival : List Sample → List Sample} (gathered : ∀ samples, arrival samples <+~ samples) :
    let cycle := monitor.cycle node trigger now arrival scene
    let samples := (takeSamples node monitor.running.entries scene).1
    ∃ swept allocated after pass, Phases monitor swept allocated after samples (arrival samples) pass ∧
      pass.allocation = cycle.1.1.allocation ∧ cycle.1.2 = after.publish now.unix ∧
      cycle.2.acts = scene.acts ++ pass.deeds.map (·.act) := by
  -- The positions between the phases.
  let sample := takeSamples node monitor.running.entries scene
  let taken := (monitor.expire trigger now.instant).takeIn (arrival sample.1) sample.2
  let allotment := taken.1.2.allocateIfActing node (monitor.remaining trigger now.instant) now taken.2
  let promotion := allotment.1.2.promoteReady node now.instant allotment.2
  obtain ⟨_, ⟨sampling, rfl, sampled⟩, reading⟩ :=
    (carries_takeSamples node monitor.running.entries monitor.running.nodup_names).on scene
  have distinct : (sample.1.map (·.name)).Nodup := sampled.names ▸ monitor.running.nodup_names
  obtain ⟨completing, sweep, ending⟩ := swept_cycle node monitor orderly.staged trigger now.instant
    (nodup_of_gathered (gathered sample.1) distinct) sample.2
  obtain ⟨_, ⟨allocating, rfl, ends⟩, writing⟩ :=
    (carries_allocateIfActing node taken.1.2 (monitor.remaining trigger now.instant) now).on taken.2
  have allocation := ends.allocated
  have notReady : allotment.1.2.notReady = monitor.notReady := allocation.notReady.trans sweep.notReady
  have waiting : ∀ name ∈ allotment.1.2.notReady.names,
      ∃ reservation, allotment.1.2.notReady.get? name = some (admitted ⟨name, reservation⟩) := by
    intro name member
    rw [notReady] at member ⊢
    exact orderly.waiting member
  obtain ⟨_, ⟨promoting, rfl, raised⟩, starting⟩ :=
    (carries_promoteEach node now.instant _ allotment.1.2.notReady.nodup_names allotment.1.2 waiting).on allotment.2
  let pass : Pass α :=
    ⟨allotment.1.1, (arrival sample.1).map (·.name), sampling, completing, allocating, promoting⟩
  refine ⟨taken.1.2, allotment.1.2, promotion.1.2, pass, ?_, rfl, rfl, ?_⟩
  · exact ⟨sampled, gathered sample.1, rfl, sweep, allocation, raised⟩
  · exact pass.acts_of_phases reading ending writing starting

theorem tells_cycle (node : Node σ α) {config : MonitorConfig α} {position : Monitor α × Scene σ α}
    (orderly : Orderly config position.1) (trigger : Trigger) (now : Moment) {arrival : List Sample → List Sample}
    (gathered : ∀ samples, arrival samples <+~ samples) :
    ∃ chapter, Tells node config position (.cycle trigger now arrival) chapter ∧
      Orderly config (perform node position (.cycle trigger now arrival)).1 := by
  obtain ⟨monitor, scene⟩ := position
  have staged := (sound_of_moves (moves_cycle node monitor scene trigger now arrival) orderly.staged).1
  obtain ⟨swept, allocated, after, pass, phases, allocation, ends, acts⟩ :=
    phases_of_cycle node orderly scene trigger now gathered
  have each (name : String) : ∃ stage next, Stands monitor name stage ∧ Obeys config name stage (.cycle pass) next ∧
      Stands (after.publish now.unix) name next := by
    obtain ⟨stage, next, stands, obeys, later⟩ := phases.obeys orderly name
    exact ⟨stage, next, stands, obeys, later.carry rfl rfl rfl⟩
  have obeys (name : String) : Obeys config name (stageOf monitor name) (.cycle pass)
      (stageOf (after.publish now.unix) name) := by
    obtain ⟨stage, next, stands, obeys, later⟩ := each name
    rwa [stands.stageOf_eq, later.stageOf_eq]
  have whole (faithful : ∀ samples, arrival samples ~ samples) : pass.heard ~ monitor.running.names := by
    have names : _ = monitor.running.names := phases.sampled.names
    rw [phases.heard, ← names]
    exact (faithful _).map _
  refine ⟨.cycle pass, ⟨⟨allocation, phases.heard, whole⟩, acts, phases.shared, ?_, ?_⟩, ?_⟩
  · rintro _ ⟨rfl⟩
    exact readsFirst_of_obeys obeys phases.shared
  · intro name
    rw [perform, standing, ends]
    exact obeys name
  · rw [standing, ends] at staged
    rw [perform, standing, ends]
    refine ⟨phases.config_eq.trans orderly.config, staged, ?_⟩
    intro name
    obtain ⟨_, next, _, _, later⟩ := each name
    exact ⟨next, later⟩

theorem Stands.isLive_iff {monitor : Monitor α} {name : String} {stage : Stage α} (stands : Stands monitor name stage) :
    monitor.isLive name = true ↔ stage.IsLive := by
  cases stands with
  | absent free clear _ => simp [Monitor.isLive, Roster.contains, free, clear, Stage.IsLive]
  | waiting free found => simp [Monitor.isLive, Roster.contains, found, Stage.IsLive]
  | running found _ _ => simp [Monitor.isLive, Roster.contains, found, Stage.IsLive]
  | completed free clear _ => simp [Monitor.isLive, Roster.contains, free, clear, Stage.IsLive]

theorem stands_taking {monitor : Monitor α} {admission : Admission α} {name : String} {stage : Stage α}
    (stands : Stands monitor name stage) (free : ¬ monitor.isLive admission.name = true) :
    ∃ next, Obeys monitor.config name stage (.enrollment admission true) next ∧
      Stands (monitor.taking admission) name next := by
  by_cases mine : admission.name = name
  · subst mine
    have away := mt stands.isLive_iff.mpr free
    have vacant : monitor.running.get? admission.name = none := by
      refine (Roster.get?_eq_none_iff ..).mpr ?_
      intro working
      exact free ((isLive_iff monitor admission.name).mpr (.inr working))
    have waits : (monitor.taking admission).notReady.get? admission.name = some (admitted admission) := by
      rw [taking, Roster.get?_insert, if_pos rfl]
    exact ⟨.waiting, .admitted rfl away, .waiting vacant waits⟩
  · have notReady : (monitor.taking admission).notReady.get? name = monitor.notReady.get? name := by
      rw [taking, Roster.get?_insert, if_neg mine]
    have completed : (monitor.taking admission).completed.get? name = monitor.completed.get? name := by
      rw [taking, Roster.get?_erase, if_neg mine]
    refine ⟨stage, .bystander mine, ?_⟩
    cases stands with
    | absent running clear same => exact .absent running (notReady.trans clear) (completed.trans same)
    | waiting running found => exact .waiting running (notReady.trans found)
    | running found clear known => exact .running found (notReady.trans clear) known
    | completed running clear same => exact .completed running (notReady.trans clear) (completed.trans same)

theorem tells_enroll (node : Node σ α) {config : MonitorConfig α} {position : Monitor α × Scene σ α}
    (orderly : Orderly config position.1) (admission : Admission α) :
    ∃ chapter, Tells node config position (.enroll admission) chapter ∧
      Orderly config (perform node position (.enroll admission)).1 := by
  obtain ⟨monitor, scene⟩ := position
  by_cases live : monitor.isLive admission.name = true
  · have refused := enroll_of_live monitor admission scene live
    refine ⟨.enrollment admission false, ⟨⟨rfl, ?_⟩, ?_, nofun, nofun, ?_⟩, ?_⟩
    · rw [refused]
    · rw [perform, refused]
      exact (List.append_nil _).symm
    · intro name
      obtain ⟨stage, stands⟩ := orderly.stands name
      rw [perform, refused]
      change Obeys config name (stageOf monitor name) _ (stageOf monitor name)
      rw [stands.stageOf_eq]
      by_cases mine : admission.name = name
      · subst mine
        exact .refused rfl (stands.isLive_iff.mp live)
      · exact .bystander mine
    · rw [perform, refused]
      exact orderly
  · have taken := enroll_of_free monitor admission scene live
    have named : monitor.config = config := orderly.config
    refine ⟨.enrollment admission true, ⟨⟨rfl, ?_⟩, ?_, ?_, nofun, ?_⟩, ?_⟩
    · rw [taken]
    · rw [perform, taken]
      rfl
    · intro deed member owner
      cases (pod_of_mem_work member).symm.trans owner
    · intro name
      obtain ⟨stage, stands⟩ := orderly.stands name
      obtain ⟨next, obeys, later⟩ := stands_taking stands live
      rw [perform, taken]
      change Obeys config name (stageOf monitor name) _ (stageOf (monitor.taking admission) name)
      rw [stands.stageOf_eq, later.stageOf_eq, ← named]
      exact obeys
    · rw [perform, taken]
      refine ⟨orderly.config, staged_taking live orderly.staged, ?_⟩
      intro name
      obtain ⟨stage, stands⟩ := orderly.stands name
      obtain ⟨next, _, later⟩ := stands_taking stands live
      exact ⟨next, later⟩

inductive Chronicle (node : Node σ α) (config : MonitorConfig α) :
    Monitor α × Scene σ α → List (Call α) → List (Chapter α) → Prop
  | nil {position} : Chronicle node config position [] []
  | cons {position call calls chapter chapters} (tells : Tells node config position call chapter)
      (later : Chronicle node config (perform node position call) calls chapters) :
    Chronicle node config position (call :: calls) (chapter :: chapters)

theorem orderly_new (config : MonitorConfig α) (health : Option Health) (now : Nat) :
    Orderly config (Monitor.new config health now) := by
  refine ⟨rfl, staged_new config health now, ?_⟩
  intro name
  exact ⟨.absent, .absent rfl rfl rfl⟩

theorem chronicle_of_orderly (node : Node σ α) {config : MonitorConfig α} {position : Monitor α × Scene σ α}
    (orderly : Orderly config position.1) (calls : List (Call α)) (gathered : ∀ call ∈ calls, call.IsGathered) :
    ∃ chapters, Chronicle node config position calls chapters := by
  induction calls generalizing position with
  | nil => exact ⟨[], .nil⟩
  | cons call rest ih =>
    have step : ∃ chapter, Tells node config position call chapter ∧ Orderly config (perform node position call).1 := by
      have here := gathered call List.mem_cons_self
      cases call with
      | enroll admission => exact tells_enroll node orderly admission
      | cycle trigger now arrival => exact tells_cycle node orderly trigger now here
    obtain ⟨chapter, tells, next⟩ := step
    obtain ⟨chapters, later⟩ := ih next fun call member => gathered call (List.mem_cons_of_mem _ member)
    exact ⟨chapter :: chapters, .cons tells later⟩

/-- Whatever is admitted to a run and whatever the node answers, all that is done to the node is told, call by call,
phase by phase and pod by pod, and every pod keeps to its discipline from the first call to the last. -/
theorem disciplined_of_run (node : Node σ α) (config : MonitorConfig α) (health : Option Health) (now : Nat) (state : σ)
    (calls : List (Call α)) (gathered : ∀ call ∈ calls, call.IsGathered) :
    ∃ chapters, Chronicle node config (.new config health now, ⟨state, []⟩) calls chapters :=
  chronicle_of_orderly node (orderly_new config health now) calls gathered

theorem disciplined_of_run_reversed :
    let config : MonitorConfig Rat := ⟨"node", 1000000000, false, .default⟩
    let start : Monitor Rat × Scene Unit Rat := (.new config none 0, ⟨(), []⟩)
    let calls : List (Call Rat) :=
      [.enroll ⟨"trainer", 100⟩, .enroll ⟨"server", 50⟩, .cycle .tick ⟨0, 0⟩ id,
        .cycle .tick ⟨1000000000, 1⟩ List.reverse]
    (∃ chapters, Chronicle willing config start calls chapters) ∧
      (run willing start calls).1.running.names = ["server", "trainer"] := by
  intro config start calls
  have gathered : ∀ call ∈ calls, call.IsGathered := by
    intro call member
    simp only [calls, List.mem_cons, List.not_mem_nil, or_false] at member
    rcases member with rfl | rfl | rfl | rfl
    · exact trivial
    · exact trivial
    · exact List.Subperm.refl
    · exact fun samples => (List.reverse_perm samples).subperm
  exact ⟨disciplined_of_run willing config none 0 () calls gathered, by decide +kernel⟩

end PodBudget.Monitor
