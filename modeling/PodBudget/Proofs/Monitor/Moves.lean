import PodBudget.Proofs.Monitor.Stages

/-! What each part of a cycle, and an admission, does to the stages of the records. -/
namespace PodBudget.Monitor

variable {σ α : Type}

section

variable {allowed : Act α → Prop} (fine : ∀ handle outcome, allowed (.read handle outcome))
include fine

theorem ensures_readHandles (node : Node σ α) (handles : List Node.Handle) :
    Dealing.Ensures allowed (fun _ => True) (readHandles node handles) := by
  induction handles with
  | nil => exact Dealing.ensures_pure trivial
  | cons handle rest ih =>
    refine (Dealing.ensures_readCounter node handle (fine handle)).bind ?_
    intro outcome _
    exact ih.bind fun _ _ => Dealing.ensures_pure trivial

theorem ensures_takeSamples (node : Node σ α) (entries : List (String × Pod α)) :
    Dealing.Ensures allowed (fun _ => True) (takeSamples node entries) := by
  induction entries with
  | nil => exact Dealing.ensures_pure trivial
  | cons entry rest ih =>
    refine (ensures_readHandles fine node entry.2.handles).bind ?_
    intro readings _
    exact ih.bind fun _ _ => Dealing.ensures_pure trivial

end

open scoped List

private theorem perm_complete (monitor : Monitor α) (name : String) (pod : Pod α)
    (working : name ∈ monitor.running.names) (free : name ∉ monitor.completed.names) :
    monitor.notReady.names ++ (monitor.running.erase name).names ++ (monitor.completed.insert name pod).names ~
      monitor.tracked := by
  calc
    _ ~ monitor.notReady.names ++ (monitor.running.erase name).names ++ name :: monitor.completed.names :=
      (Roster.perm_names_insert _ _ _ free).append_left _
    _ ~ monitor.notReady.names ++ name :: (monitor.running.erase name).names ++ monitor.completed.names :=
      List.perm_middle.trans (List.perm_middle.symm.append_right _)
    _ ~ monitor.tracked :=
      ((Roster.perm_names_erase _ _ working).append_left _).append_right _

private theorem perm_promote (monitor : Monitor α) (name : String) (pod : Pod α)
    (waiting : name ∈ monitor.notReady.names) (free : name ∉ monitor.running.names) :
    (monitor.notReady.erase name).names ++ (monitor.running.insert name pod).names ++ monitor.completed.names ~
      monitor.tracked := by
  calc
    _ ~ (monitor.notReady.erase name).names ++ name :: monitor.running.names ++ monitor.completed.names :=
      ((Roster.perm_names_insert _ _ _ free).append_left _).append_right _
    _ ~ name :: (monitor.notReady.erase name).names ++ monitor.running.names ++ monitor.completed.names :=
      List.perm_middle.append_right _
    _ ~ monitor.tracked :=
      ((Roster.perm_names_erase _ _ waiting).append_right _).append_right _

theorem ensures_complete (monitor : Monitor α) (staged : monitor.Staged) (name : String) :
    Dealing.Ensures (σ := σ) Act.IsOrderly (fun next => next.Staged ∧ next.tracked ~ monitor.tracked)
      (monitor.complete name) := by
  unfold complete
  split
  · exact Dealing.ensures_pure ⟨staged, .refl _⟩
  · next pod found =>
    obtain ⟨same, status, attached⟩ := staged.running name pod found
    have working : name ∈ monitor.running.names := (Roster.mem_names_iff ..).mpr ⟨pod, found⟩
    obtain ⟨_, free⟩ := staged.absent_of_running working
    refine (pod.ensures_moveTo .completed (by rw [status]; decide)).bind ?_
    rintro _ rfl
    refine (Event.ensures_log _).bind ?_
    intro _ _
    have moved := perm_complete monitor name { pod with status := .completed } working free
    refine Dealing.ensures_pure ⟨?_, moved⟩
    refine ⟨moved.nodup_iff.mpr staged.distinct, staged.notReady, ?_, ?_⟩
    · intro other value present
      rw [Roster.get?_erase] at present
      split at present
      · cases present
      · exact staged.running other value present
    · intro other value present
      rw [Roster.get?_insert] at present
      split at present
      · next equal =>
        cases present
        exact ⟨same.trans equal, rfl⟩
      · exact staged.completed other value present

variable [Number α]

-- What taking a round of readings in does to each pod, all reports do to the running ones.

section

variable {relation : Pod α → Pod α → Prop} (refl : ∀ pod, relation pod pod)
  (trans : ∀ {before middle after}, relation before middle → relation middle after → relation before after)
  (recorded : ∀ pod readings, relation pod (Pod.recordSamples pod readings).2)
include refl recorded

theorem aligned_foldSample (running : Roster (Pod α)) (gone : List String) (sample : Sample) :
    running.Aligned relation (foldSample running gone sample).1 := by
  unfold foldSample
  split
  · exact .refl refl running
  · next pod found =>
    refine Roster.aligned_map _ running ?_
    intro name value present
    split
    · next same =>
      have equal : value = pod := Option.some.inj (present.symm.trans (same ▸ found))
      rw [equal]
      exact recorded pod sample.readings
    · exact refl value

include trans

theorem aligned_foldSamples (running : Roster (Pod α)) (samples : List Sample) :
    running.Aligned relation (foldSamples running samples).1 := by
  unfold foldSamples
  generalize ([] : List String) = gone
  induction samples generalizing running gone with
  | nil => exact .refl refl running
  | cons sample rest ih =>
    exact (aligned_foldSample refl recorded running gone sample).trans trans (ih _ _)

end

theorem steady_foldSamples (monitor : Monitor α) (samples : List Sample) :
    Steady monitor { monitor with running := (foldSamples monitor.running samples).1 } :=
  ⟨rfl, aligned_foldSamples Pod.Keeps.refl Pod.Keeps.trans Pod.keeps_recordSamples monitor.running samples, rfl⟩

theorem ensures_applyOne (node : Node σ α) (now : Nat) (joint : Bool) (pod : Pod α) (limits : PerKind α) :
    Dealing.Ensures Act.IsOrderly (fun out => pod.Keeps out.2) (applyOne node now joint pod limits) := by
  refine (Pod.ensures_applyLimits node pod limits now).bind ?_
  rintro ⟨report, applied⟩ kept
  refine (Event.ensures_log _).bind ?_
  intro _ _
  exact Dealing.ensures_pure kept

theorem ensures_applyEach (node : Node σ α) (now : Nat) (joint : Bool) (running : Roster (Pod α))
    (limits : List (PerKind α)) :
    Dealing.Ensures Act.IsOrderly (fun out => running.Aligned Pod.Keeps out.2)
      (applyEach node now joint running limits) := by
  intro scene
  constructor
  · refine Roster.aligned_zipTraverse _ Pod.Keeps.refl ?_ running limits (0, scene)
    intro _ pod limits state
    exact (ensures_applyOne node now joint pod limits state.2).1
  · refine Roster.zipTraverse_state (fun before after => before.2.Extends Act.IsOrderly after.2) _
      (fun _ => .refl _) (fun early late => early.trans late) ?_ running limits (0, scene)
    intro _ pod limits state
    exact (ensures_applyOne node now joint pod limits state.2).2

theorem ensures_enforce (node : Node σ α) (monitor : Monitor α) (now : Moment) (joint : Bool)
    (limits : List (PerKind α)) :
    Dealing.Ensures Act.IsOrderly (Steady monitor) (monitor.enforce node now joint limits) := by
  refine (ensures_applyEach node now.instant joint monitor.running limits).bind ?_
  rintro ⟨failed, running⟩ aligned
  exact Dealing.ensures_pure ⟨rfl, aligned, rfl⟩

theorem ensures_keepPrevious (monitor : Monitor α) (now : Moment) (pods : Nat) (error : Joint.JointError α) :
    Dealing.Ensures (σ := σ) Act.IsOrderly (Steady monitor) (monitor.keepPrevious now pods error) := by
  refine (Event.ensures_log _).bind ?_
  intro _ _
  refine Dealing.ensures_pure ⟨rfl, ?_, rfl⟩
  exact Roster.aligned_map _ monitor.running fun _ pod _ => pod.keeps_stamp now.instant

theorem keeps_charge (policy : Policy α) (fallback now : Nat) (pod : Pod α) :
    pod.Keeps (charge policy fallback now pod) :=
  (pod.keeps_settleQueue _ _).trans (Pod.keeps_updateWeights _ _)

theorem ensures_allocate (node : Node σ α) (monitor : Monitor α) (remaining : α) (now : Moment) :
    Dealing.Ensures Act.IsOrderly (fun out => Steady monitor out.2) (monitor.allocate node remaining now) := by
  have charged : Steady monitor { monitor with
      running := monitor.running.map fun _ pod => charge monitor.config.policy monitor.lastUpdate now.instant pod } :=
    ⟨rfl, Roster.aligned_map _ monitor.running fun _ pod _ => keeps_charge _ _ _ pod, rfl⟩
  unfold allocate
  split
  · exact Dealing.ensures_pure (.refl monitor)
  · dsimp only
    split
    · refine (ensures_enforce node _ now false _).bind ?_
      intro next steady
      exact Dealing.ensures_pure (charged.trans steady)
    · split
      · refine (Event.ensures_log _).bind ?_
        intro _ _
        refine (ensures_enforce node _ now true _).bind ?_
        intro next steady
        exact Dealing.ensures_pure (charged.trans ((steady_count _ _).trans steady))
      · refine (ensures_keepPrevious _ now _ _).bind ?_
        intro next steady
        exact Dealing.ensures_pure (charged.trans ((steady_count _ _).trans steady))

theorem ensures_allocateIfActing (node : Node σ α) (monitor : Monitor α) (remaining : α) (now : Moment) :
    Dealing.Ensures Act.IsOrderly (fun out => Steady monitor out.2)
      (monitor.allocateIfActing node remaining now) := by
  unfold allocateIfActing
  split
  · exact Dealing.ensures_pure (.refl monitor)
  · exact ensures_allocate node monitor remaining now

theorem ensures_prepare (node : Node σ α) (monitor : Monitor α) (now : Nat) (pod : Pod α) (paths : PerKind String) :
    Dealing.Ensures Act.IsOrderly
      (fun out => out.2.name = pod.name ∧ out.2.status = pod.status ∧ IsAttached out.2)
      (monitor.prepare node now pod paths) := by
  have seeding : Dealing.Ensures Act.IsOrderly (fun out => (pod.attach paths).Keeps out.2)
      (monitor.seed node (pod.attach paths)) := by
    unfold seed
    split
    · exact Dealing.ensures_pure (.refl _)
    · exact Pod.ensures_seedLimits node _ _
  refine seeding.bind ?_
  rintro ⟨report, seeded⟩ kept
  refine (Pod.ensures_sampleAll node seeded Kind.all).bind ?_
  intro sampled more
  have ready := (kept.trans more).trans (sampled.keeps_stamp now)
  refine Dealing.ensures_pure ⟨ready.name, ready.status, ?_, rfl⟩
  intro kind
  rw [Resource.handle?, ready.path kind]
  cases kind <;> rfl

theorem ensures_promote (node : Node σ α) (monitor : Monitor α) (staged : monitor.Staged) (now : Nat) (name : String)
    (pod : Pod α) (paths : PerKind String) (found : monitor.notReady.get? name = some pod) :
    Dealing.Ensures Act.IsOrderly (fun next => next.Staged ∧ next.tracked ~ monitor.tracked)
      (monitor.promote node now name pod paths) := by
  obtain ⟨same, status⟩ := staged.notReady name pod found
  have waiting : name ∈ monitor.notReady.names := (Roster.mem_names_iff ..).mpr ⟨pod, found⟩
  obtain ⟨free, _⟩ := staged.absent_of_notReady waiting
  refine (ensures_prepare node monitor now pod paths).bind ?_
  rintro ⟨report, ready⟩ ⟨kept, stage, attached⟩
  refine (Pod.ensures_moveTo _ .running (by rw [stage, status]; decide)).bind ?_
  rintro _ rfl
  refine (Event.ensures_log _).bind ?_
  intro _ _
  have moved := perm_promote monitor name { ready with status := .running } waiting free
  refine Dealing.ensures_pure ⟨⟨moved.nodup_iff.mpr staged.distinct, ?_, ?_, staged.completed⟩, moved⟩
  · intro other value present
    change (monitor.notReady.erase name).get? other = _ at present
    rw [Roster.get?_erase] at present
    split at present
    · cases present
    · exact staged.notReady other value present
  · intro other value present
    change (monitor.running.insert name _).get? other = _ at present
    rw [Roster.get?_insert] at present
    split at present
    · next equal =>
      cases present
      exact ⟨(kept.trans same).trans equal, rfl, attached⟩
    · exact staged.running other value present

end PodBudget.Monitor
