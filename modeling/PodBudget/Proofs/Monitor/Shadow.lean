import PodBudget.Proofs.Monitor.Discipline
import PodBudget.Proofs.Monitor.Run
import PodBudget.Proofs.PodBare

/-!
A monitor that only watches, beside one that acts. It has the same records but for what the other makes of them, and
keeps step with it through admissions and cycles, as long as the node does not show what is written to it.
-/
namespace PodBudget

variable {σ α : Type}

def Act.IsPassive (act : Act α) : Prop := act.isWrite = false ∧ act.isRebalance = false

namespace Monitor

open scoped List

private theorem rel_map {one other : Option (Pod α)} {relation : Pod α → Pod α → Prop} {f g : Pod α → Pod α}
    (related : Option.Rel relation one other)
    (step : ∀ pod shadow, relation pod shadow → relation (f pod) (g shadow)) :
    Option.Rel relation (one.map f) (other.map g) := by
  cases related with
  | none => exact .none
  | some covers => exact .some (step _ _ covers)

private theorem rel_or {one other first second : Option (Pod α)} {relation : Pod α → Pod α → Prop}
    (related : Option.Rel relation one other) (rest : Option.Rel relation first second) :
    Option.Rel relation (one.or first) (other.or second) := by
  cases related with
  | none => exact rest
  | some covers => exact .some covers

variable [Number α]

/-- The same records but for limits, weights, tokens and updates. -/
structure Shadows (acting watch : Monitor α) : Prop where
  watching : watch.config.monitoringOnly = true
  notReady : acting.notReady.Aligned Pod.IsShadow watch.notReady
  running : acting.running.Aligned Pod.IsShadow watch.running
  completed : acting.completed.Aligned Pod.IsShadow watch.completed

variable {node : Node σ α} {alike : σ → σ → Prop}

section

variable (oblivious : node.Oblivious alike)
include oblivious

omit [Number α] in
theorem lockstep_readHandles (handles : List Node.Handle) :
    Dealing.Lockstep alike Act.IsPassive (fun readings others => others = readings) (readHandles node handles)
      (readHandles node handles) := by
  induction handles with
  | nil => exact Dealing.lockstep_pure rfl
  | cons handle rest ih =>
    refine (Dealing.lockstep_readCounter oblivious handle fun _ => ⟨rfl, rfl⟩).bind ?_
    rintro _ outcome rfl
    refine ih.bind ?_
    rintro _ readings rfl
    exact Dealing.lockstep_pure rfl

theorem lockstep_takeSamples {entries others : List (String × Pod α)}
    (related : List.Forall₂ (fun left right => left.1 = right.1 ∧ left.2.IsShadow right.2) entries others) :
    Dealing.Lockstep alike Act.IsPassive
      (fun samples same => same = samples ∧ samples.map (·.name) = entries.map (·.1)) (takeSamples node entries)
      (takeSamples node others) := by
  induction related with
  | nil => exact Dealing.lockstep_pure ⟨rfl, rfl⟩
  | @cons entry other _ _ pair _ ih =>
    obtain ⟨name, pod⟩ := entry
    obtain ⟨same, shadow⟩ := other
    obtain ⟨rfl, covers⟩ : name = same ∧ pod.IsShadow shadow := pair
    rw [takeSamples, takeSamples, covers.handles]
    refine (lockstep_readHandles oblivious pod.handles).bind ?_
    rintro _ readings rfl
    refine ih.bind ?_
    rintro _ samples ⟨rfl, names⟩
    exact Dealing.lockstep_pure ⟨rfl, congrArg (name :: ·) names⟩

end

section

variable {acting watch : Monitor α} (shadows : Shadows acting watch) {reports others : List Sample}
  (perm : others ~ reports) (distinct : (reports.map (·.name)).Nodup)
include shadows perm distinct

theorem Shadows.folded :
    Shadows { acting with running := (foldSamples acting.running reports).1 }
      { watch with running := (foldSamples watch.running others).1 } := by
  refine ⟨shadows.watching, shadows.notReady, ?_, shadows.completed⟩
  apply Roster.aligned_of_get?
  intro name
  rw [get?_foldSamples, get?_foldSamples, filter_eq_of_perm perm distinct]
  refine rel_map (shadows.running.rel_get? name) ?_
  -- Only the pod's own reports are left, and these are the same on both sides.
  induction reports.filter (fun sample => sample.name = name) with
  | nil => exact fun _ _ covers => covers
  | cons sample rest ih => exact fun pod shadow covers => ih _ _ (covers.recordSamples sample.readings)

omit distinct in
theorem Shadows.gone : (foldSamples watch.running others).2 ~ (foldSamples acting.running reports).2 := by
  rw [gone_foldSamples, gone_foldSamples, funext shadows.running.contains]
  exact (perm.filter _).map _

omit reports others perm distinct in
theorem Shadows.closings {names same : List String} (gone : same ~ names) :
    Shadows (names.foldl closing acting) (same.foldl closing watch) := by
  rw [closings_eq acting, closings_eq watch]
  refine ⟨shadows.watching, shadows.notReady, ?_, ?_⟩
  · apply Roster.aligned_of_get?
    intro name
    rw [get?_running_closings, get?_running_closings, if_congr gone.mem_iff rfl rfl]
    split
    · exact .none
    · exact shadows.running.rel_get? name
  · apply Roster.aligned_of_get?
    intro name
    have kept := shadows.completed.rel_get? name
    rw [get?_completed_closings, get?_completed_closings, if_congr gone.mem_iff rfl rfl]
    split
    · exact rel_or (rel_map (shadows.running.rel_get? name) fun _ _ covers => covers.movedTo .completed) kept
    · exact kept

theorem lockstep_takeIn :
    Dealing.Lockstep (σ := σ) alike Act.IsPassive (fun out other => other.1 ~ out.1 ∧ Shadows out.2 other.2)
      (acting.takeIn reports) (watch.takeIn others) := by
  intro one other same
  have apart : (others.map (·.name)).Nodup := (perm.map _).nodup_iff.mpr distinct
  have gone := shadows.gone perm
  rw [takeIn_eq acting distinct, takeIn_eq watch apart]
  refine ⟨⟨gone, (shadows.folded perm distinct).closings gone⟩, same, _, rfl, ?_⟩
  intro act member
  obtain ⟨name, _, inside⟩ := List.mem_flatMap.mp member
  rcases noted_of_mem_closingActs inside with ⟨regression, rfl⟩ | ⟨event, rfl⟩
  · exact ⟨rfl, rfl⟩
  · exact ⟨rfl, rfl⟩

end

/-- Nothing has changed that a shadow would show. -/
structure SameBare (before after : Monitor α) : Prop where
  notReady : after.notReady = before.notReady
  completed : after.completed = before.completed
  running : before.running.Aligned Pod.SameBare after.running

theorem Shadows.of_sameBare {acting after watch : Monitor α} (shadows : Shadows acting watch)
    (same : SameBare acting after) : Shadows after watch where
  watching := shadows.watching
  notReady := same.notReady ▸ shadows.notReady
  running := same.running.flip.comp (fun _ _ _ kept covers => covers.of_sameBare kept) shadows.running
  completed := same.completed ▸ shadows.completed

theorem SameBare.refl (monitor : Monitor α) : SameBare monitor monitor :=
  ⟨rfl, rfl, .refl Pod.SameBare.refl monitor.running⟩

theorem SameBare.trans {before middle after : Monitor α} (first : SameBare before middle)
    (second : SameBare middle after) : SameBare before after where
  notReady := second.notReady.trans first.notReady
  completed := second.completed.trans first.completed
  running := first.running.trans Pod.SameBare.trans second.running

theorem sameBare_count (monitor : Monitor α) (change : Tally → Tally) : SameBare monitor (monitor.count change) :=
  ⟨rfl, rfl, .refl Pod.SameBare.refl monitor.running⟩

section

variable (oblivious : node.Oblivious alike)
include oblivious

theorem unnoticed_applyOne (now : Nat) (joint : Bool) (pod : Pod α) (limits : PerKind α) :
    Dealing.Unnoticed alike (fun out => pod.SameBare out.2) (applyOne node now joint pod limits) := by
  refine (Pod.unnoticed_applyLimits oblivious pod limits now).bind ?_
  rintro ⟨report, applied⟩ same
  refine (Dealing.unnoticed_log _).bind ?_
  intro _ _
  exact Dealing.unnoticed_pure same

theorem unnoticed_applyEach (now : Nat) (joint : Bool) (running : Roster (Pod α)) (limits : List (PerKind α)) :
    Dealing.Unnoticed alike (fun out => running.Aligned Pod.SameBare out.2)
      (applyEach node now joint running limits) := by
  intro scene
  constructor
  · refine Roster.aligned_zipTraverse _ Pod.SameBare.refl ?_ running limits (0, scene)
    intro _ pod limits state
    exact (unnoticed_applyOne oblivious now joint pod limits state.2).1
  · refine Roster.zipTraverse_state
      (fun before after => ∀ state, alike before.2.node state → alike after.2.node state) _
      (fun _ _ same => same) ?_ ?_ running limits (0, scene)
    · intro before middle after early late state same
      exact late state (early state same)
    · intro _ pod limits state
      exact (unnoticed_applyOne oblivious now joint pod limits state.2).2

theorem unnoticed_enforce (monitor : Monitor α) (now : Moment) (joint : Bool) (limits : List (PerKind α)) :
    Dealing.Unnoticed alike (SameBare monitor) (monitor.enforce node now joint limits) := by
  refine (unnoticed_applyEach oblivious now.instant joint monitor.running limits).bind ?_
  rintro ⟨failed, running⟩ aligned
  exact Dealing.unnoticed_pure ⟨rfl, rfl, aligned⟩

omit oblivious in
theorem unnoticed_keepPrevious (monitor : Monitor α) (now : Moment) (pods : Nat) (error : Joint.JointError α) :
    Dealing.Unnoticed (σ := σ) alike (SameBare monitor) (monitor.keepPrevious now pods error) := by
  refine (Dealing.unnoticed_log _).bind ?_
  intro _ _
  refine Dealing.unnoticed_pure ⟨rfl, rfl, ?_⟩
  exact Roster.aligned_map _ monitor.running fun _ _ _ _ => rfl

theorem unnoticed_allocate (monitor : Monitor α) (remaining : α) (now : Moment) :
    Dealing.Unnoticed alike (fun out => SameBare monitor out.2) (monitor.allocate node remaining now) := by
  have charged : SameBare monitor { monitor with
      running := monitor.running.map fun _ pod => charge monitor.config.policy monitor.lastUpdate now.instant pod } :=
    ⟨rfl, rfl, Roster.aligned_map _ monitor.running fun _ _ _ _ => rfl⟩
  unfold allocate
  split
  · exact Dealing.unnoticed_pure (.refl _)
  · dsimp only
    split
    · refine (unnoticed_enforce oblivious _ now false _).bind ?_
      intro next same
      exact Dealing.unnoticed_pure (charged.trans same)
    · split
      · refine (Dealing.unnoticed_log _).bind ?_
        intro _ _
        refine (unnoticed_enforce oblivious _ now true _).bind ?_
        intro next same
        exact Dealing.unnoticed_pure (charged.trans ((sameBare_count _ _).trans same))
      · refine (unnoticed_keepPrevious _ now _ _).bind ?_
        intro next same
        exact Dealing.unnoticed_pure (charged.trans ((sameBare_count _ _).trans same))

theorem lockstep_allocateIfActing {acting watch : Monitor α} (shadows : Shadows acting watch) (left right : α)
    (now : Moment) :
    Dealing.Lockstep alike Act.IsPassive (fun out other => other.1 = .skipped ∧ Shadows out.2 other.2)
      (acting.allocateIfActing node left now) (watch.allocateIfActing node right now) := by
  have waits : watch.allocateIfActing node right now = pure (.skipped, watch) := by
    rw [allocateIfActing, if_pos shadows.watching]
  rw [waits]
  -- One side has nothing to do, so all that counts is that the other goes unnoticed.
  have unnoticed : Dealing.Unnoticed alike (fun out => SameBare acting out.2)
      (acting.allocateIfActing node left now) := by
    unfold allocateIfActing
    split
    · exact Dealing.unnoticed_pure (.refl _)
    · exact unnoticed_allocate oblivious acting left now
  exact unnoticed.lockstep fun out same => ⟨rfl, shadows.of_sameBare same⟩

theorem lockstep_prepare {acting watch : Monitor α} (shadows : Shadows acting watch) (now : Nat) {pod shadow : Pod α}
    (covers : pod.IsShadow shadow) (paths : PerKind String) :
    Dealing.Lockstep alike Act.IsPassive (fun out other => out.2.IsShadow other.2) (acting.prepare node now pod paths)
      (watch.prepare node now shadow paths) := by
  have seeding : Dealing.Lockstep alike Act.IsPassive (fun out other => out.2.IsShadow other.2)
      (acting.seed node (pod.attach paths)) (watch.seed node (shadow.attach paths)) := by
    have waits : watch.seed node (shadow.attach paths) = pure (.none, shadow.attach paths) := by
      rw [seed, if_pos shadows.watching]
    have unnoticed : Dealing.Unnoticed alike (fun out => (pod.attach paths).SameBare out.2)
        (acting.seed node (pod.attach paths)) := by
      unfold seed
      split
      · exact Dealing.unnoticed_pure (.refl _)
      · exact Pod.unnoticed_seedLimits oblivious _ _
    rw [waits]
    exact unnoticed.lockstep fun out same => (covers.attach paths).of_sameBare same
  refine seeding.bind ?_
  rintro ⟨report, seeded⟩ ⟨none, _⟩ ⟨last, rfl⟩
  refine (Pod.lockstep_sampleAll oblivious (fun _ _ => ⟨rfl, rfl⟩) Kind.all seeded last).bind ?_
  rintro sampled _ rfl
  exact Dealing.lockstep_pure (Pod.IsShadow.stamp ⟨last, rfl⟩ now)

theorem lockstep_promote {acting watch : Monitor α} (shadows : Shadows acting watch) (now : Nat) (name : String)
    {pod shadow : Pod α} (covers : pod.IsShadow shadow) (paths : PerKind String) :
    Dealing.Lockstep alike Act.IsPassive Shadows (acting.promote node now name pod paths)
      (watch.promote node now name shadow paths) := by
  refine (lockstep_prepare oblivious shadows now covers paths).bind ?_
  rintro ⟨report, prepared⟩ ⟨none, ready⟩ covers
  refine (Pod.lockstep_moveTo (fun _ => ⟨rfl, rfl⟩) covers .running).bind ?_
  intro started running covers
  refine (Dealing.lockstep_log _ _ ⟨rfl, rfl⟩).bind ?_
  intro _ _ _
  exact Dealing.lockstep_pure ⟨shadows.watching, shadows.notReady.erase name, shadows.running.insert name covers,
    shadows.completed⟩

theorem lockstep_promoteEach (now : Nat) (names : List String) {acting watch : Monitor α}
    (shadows : Shadows acting watch) :
    Dealing.Lockstep alike Act.IsPassive (fun out other => other.1 = out.1 ∧ Shadows out.2 other.2)
      (acting.promoteEach node now names) (watch.promoteEach node now names) := by
  induction names generalizing acting watch with
  | nil => exact Dealing.lockstep_pure ⟨rfl, shadows⟩
  | cons name rest ih =>
    have waiting := shadows.notReady.rel_get? name
    rw [promoteEach, promoteEach]
    refine (Dealing.lockstep_askPaths oblivious name fun _ => ⟨rfl, rfl⟩).bind ?_
    rintro _ answer rfl
    -- The name waits with both monitors or with neither, and the node has given both the same answer.
    generalize acting.notReady.get? name = pod at waiting ⊢
    generalize watch.notReady.get? name = shadow at waiting ⊢
    cases waiting with
    | none =>
      cases answer
      · exact ih shadows
      · exact ih shadows
    | some covers =>
      cases answer with
      | none => exact ih shadows
      | some paths =>
        refine (lockstep_promote oblivious shadows now name covers paths).bind ?_
        intro next after followed
        refine (ih followed).bind ?_
        rintro ⟨promoted, last⟩ ⟨_, final⟩ ⟨rfl, still⟩
        exact Dealing.lockstep_pure ⟨rfl, still⟩

structure SameSight (report watched : CycleReport) : Prop where
  completed : watched.completed ~ report.completed
  promoted : watched.promoted = report.promoted
  skipped : watched.allocation = .skipped

theorem lockstep_afterSampling {acting watch : Monitor α} (shadows : Shadows acting watch) (left right : α)
    (now : Moment) {completed others : List String} (perm : others ~ completed) :
    Dealing.Lockstep alike Act.IsPassive (fun out watched => SameSight out.1 watched.1 ∧ Shadows out.2 watched.2)
      (acting.afterSampling node left now completed) (watch.afterSampling node right now others) := by
  refine (lockstep_allocateIfActing oblivious shadows left right now).bind ?_
  rintro ⟨allocation, allocated⟩ ⟨_, same⟩ ⟨rfl, followed⟩
  dsimp only [promoteReady]
  rw [followed.notReady.names]
  refine (lockstep_promoteEach oblivious now.instant _ followed).bind ?_
  rintro ⟨promoted, last⟩ ⟨_, final⟩ ⟨rfl, still⟩
  exact Dealing.lockstep_pure
    ⟨⟨perm, rfl, rfl⟩, still.watching, still.notReady, still.running, still.completed⟩

theorem lockstep_cycle {acting watch : Monitor α} (shadows : Shadows acting watch) (trigger : Trigger) (now : Moment)
    {arrival other : List Sample → List Sample} (gathered : ∀ samples, arrival samples <+~ samples)
    (perm : ∀ samples, other samples ~ arrival samples) :
    Dealing.Lockstep alike Act.IsPassive (fun out watched => SameSight out.1 watched.1 ∧ Shadows out.2 watched.2)
      (acting.cycle node trigger now arrival) (watch.cycle node trigger now other) := by
  have opened : Shadows (acting.expire trigger now.instant) (watch.expire trigger now.instant) := by
    rw [expire_eq acting, expire_eq watch]
    exact ⟨shadows.watching, shadows.notReady, shadows.running, shadows.completed⟩
  refine (lockstep_takeSamples oblivious shadows.running).bind ?_
  rintro _ samples ⟨rfl, names⟩
  have distinct : ((arrival samples).map (·.name)).Nodup :=
    nodup_of_gathered (gathered samples) (names ▸ acting.running.nodup_names)
  refine (lockstep_takeIn opened (perm samples) distinct).bind ?_
  rintro ⟨completed, sampled⟩ ⟨others, seen⟩ ⟨gone, still⟩
  exact lockstep_afterSampling oblivious still _ _ now gone

end

theorem lockstep_enroll {acting watch : Monitor α} (shadows : Shadows acting watch) (admission : Admission α) :
    Dealing.Lockstep (σ := σ) alike Act.IsPassive (fun out other => other.1 = out.1 ∧ Shadows out.2 other.2)
      (acting.enroll admission) (watch.enroll admission) := by
  have same : watch.isLive admission.name = acting.isLive admission.name := by
    rw [isLive, isLive, shadows.running.contains, shadows.notReady.contains]
  unfold enroll
  rw [same]
  split
  · exact Dealing.lockstep_pure ⟨rfl, shadows⟩
  · have covers : (Pod.new admission.name admission.reservation).IsShadow (Pod.new admission.name admission.reservation) :=
      ⟨none, rfl⟩
    refine (Pod.lockstep_moveTo (fun _ => ⟨rfl, rfl⟩) covers .notReady).bind ?_
    intro pod shadow covers
    refine (Dealing.lockstep_log _ _ ⟨rfl, rfl⟩).bind ?_
    intro _ _ _
    exact Dealing.lockstep_pure ⟨rfl, shadows.watching, shadows.notReady.insert _ covers, shadows.running,
      shadows.completed.erase _⟩

end Monitor
end PodBudget
