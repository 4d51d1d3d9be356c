import PodBudget.Proofs.Faults
import PodBudget.Proofs.Monitor.Kept
import PodBudget.Proofs.Monitor.Reports

/-!
What becomes of writes that fail. Every one of them is counted. The registry hears of those of an allocation pass, which
judges the probe by them; those of a promotion, which come after it in a cycle, leave that judgement as it is.
-/
namespace PodBudget.Monitor

variable {σ α : Type}

/-- What the probe is judged to be once so many writes of a pass have failed. -/
def judgement (failed : Nat) (unix : Int) : ComponentHealth :=
  if 0 < failed then .degraded s!"{failed} limit writes failed" unix else .healthy unix

def probe? (monitor : Monitor α) : Option ComponentHealth :=
  monitor.health.bind fun health => health.components.get? Health.probePart

/-- Writes that fail are counted, and the registry does not hear of them. -/
structure Unheard (before after : Monitor α) (failed : Nat) : Prop where
  counted : after.tally.writeErrors = before.tally.writeErrors + failed
  health : after.health = before.health

theorem Unheard.refl (monitor : Monitor α) : Unheard monitor monitor 0 := ⟨rfl, rfl⟩

theorem Unheard.trans {before middle after : Monitor α} {failed more : Nat} (first : Unheard before middle failed)
    (second : Unheard middle after more) : Unheard before after (failed + more) where
  counted := by
    have early := first.counted
    have late := second.counted
    omega
  health := second.health.trans first.health

/-- Writes that fail are counted, and a pass that writes judges the probe by them. -/
structure Judged (unix : Int) (before after : Monitor α) (outcome : Allocation) (failed : Nat) : Prop where
  counted : after.tally.writeErrors = before.tally.writeErrors + failed
  probe : after.probe? =
    if outcome.isApplied then before.health.map fun _ => judgement failed unix else before.probe?
  spared : outcome.isApplied = false → failed = 0

theorem Unheard.judged {unix : Int} {before after : Monitor α} {outcome : Allocation} (unheard : Unheard before after 0)
    (idle : outcome.isApplied = false) : Judged unix before after outcome 0 where
  counted := unheard.counted
  probe := by simp [probe?, idle, unheard.health]
  spared _ := rfl

variable [Number α]

omit [Number α] in
theorem fails_readHandles (node : Node σ α) (handles : List Node.Handle) :
    Dealing.Fails (fun _ count => count = 0) (readHandles node handles) := by
  induction handles with
  | nil => exact Dealing.fails_pure rfl
  | cons handle rest ih =>
    refine (Dealing.fails_readCounter node handle).silently ?_
    intro outcome
    refine ih.silently ?_
    intro readings
    exact Dealing.fails_pure rfl

omit [Number α] in
theorem fails_takeSamples (node : Node σ α) (entries : List (String × Pod α)) :
    Dealing.Fails (fun _ count => count = 0) (takeSamples node entries) := by
  induction entries with
  | nil => exact Dealing.fails_pure rfl
  | cons entry rest ih =>
    refine (fails_readHandles node entry.2.handles).silently ?_
    intro readings
    refine ih.silently ?_
    intro samples
    exact Dealing.fails_pure rfl

omit [Number α] in
theorem fails_complete (monitor : Monitor α) (name : String) :
    Dealing.Fails (σ := σ) (fun next count => count = 0 ∧ Unheard monitor next 0) (monitor.complete name) := by
  unfold complete
  split
  · exact Dealing.fails_pure ⟨rfl, .refl monitor⟩
  · next pod _ =>
    refine (pod.fails_moveTo .completed).silently ?_
    intro moved
    refine (Dealing.fails_log _).silently ?_
    intro _
    exact Dealing.fails_pure ⟨rfl, rfl, rfl⟩

omit [Number α] in
theorem fails_completeAll (monitor : Monitor α) (names : List String) :
    Dealing.Fails (σ := σ) (fun next count => count = 0 ∧ Unheard monitor next 0) (monitor.completeAll names) := by
  induction names generalizing monitor with
  | nil => exact Dealing.fails_pure ⟨rfl, .refl monitor⟩
  | cons name rest ih =>
    refine (fails_complete monitor name).bind ?_
    rintro next _ ⟨rfl, unheard⟩
    refine (ih next).weaken ?_
    rintro last _ ⟨rfl, later⟩
    exact ⟨rfl, unheard.trans later⟩

theorem fails_takeIn (monitor : Monitor α) (samples : List Sample) :
    Dealing.Fails (σ := σ) (fun out count => count = 0 ∧ Unheard monitor out.2 0) (monitor.takeIn samples) := by
  refine (fails_completeAll _ _).bind ?_
  rintro next _ ⟨rfl, unheard⟩
  exact Dealing.fails_pure ⟨rfl, unheard.counted, unheard.health⟩

theorem fails_applyOne (node : Node σ α) (now : Nat) (joint : Bool) (pod : Pod α) (placed : pod.IsPlaced)
    (limits : PerKind α) : Dealing.Fails (fun out count => out.1 = count) (applyOne node now joint pod limits) := by
  refine (pod.fails_applyLimits node placed limits now).bind ?_
  intro out count failed
  refine (Dealing.fails_log _).silently ?_
  intro _
  exact Dealing.fails_pure failed

theorem fails_applyEach (node : Node σ α) (now : Nat) (joint : Bool) (running : Roster (Pod α))
    (placed : ∀ entry ∈ running.entries, entry.2.IsPlaced) (limits : List (PerKind α)) :
    Dealing.Fails (fun out count => out.1 = count) (applyEach node now joint running limits) := by
  intro scene
  -- The count that is carried along grows with the faults of the scene.
  have grown : ∃ count, (applyEach node now joint running limits scene).2.faults = scene.faults + count ∧
      (applyEach node now joint running limits scene).1.1 = 0 + count := by
    refine running.zipTraverse_state_of_mem (fun before after =>
      ∃ count, after.2.faults = before.2.faults + count ∧ after.1 = before.1 + count) _ ?_ ?_ ?_ limits (0, scene)
    · intro state
      exact ⟨0, rfl, rfl⟩
    · rintro before middle after ⟨count, faults, carried⟩ ⟨more, later, last⟩
      exact ⟨count + more, by omega, by omega⟩
    · intro entry member limits state
      obtain ⟨count, faults, failed⟩ := fails_applyOne node now joint entry.2 (placed entry member) limits state.2
      exact ⟨count, faults, congrArg (state.1 + ·) failed⟩
  obtain ⟨count, faults, carried⟩ := grown
  exact ⟨count, faults, carried.trans (Nat.zero_add count)⟩

theorem fails_enforce (node : Node σ α) (monitor : Monitor α)
    (placed : ∀ entry ∈ monitor.running.entries, entry.2.IsPlaced) (now : Moment) (joint : Bool)
    (limits : List (PerKind α)) :
    Dealing.Fails
      (fun next count => next.tally.writeErrors = monitor.tally.writeErrors + count ∧
        next.probe? = monitor.health.map fun _ => judgement count now.unix)
      (monitor.enforce node now joint limits) := by
  refine (fails_applyEach node now.instant joint monitor.running placed limits).bind ?_
  rintro ⟨failed, running⟩ _ rfl
  refine Dealing.fails_pure ⟨rfl, ?_⟩
  cases registry : monitor.health with
  | none => simp [probe?, report, count]
  | some health =>
    by_cases failing : 0 < failed
    · simp [probe?, report, count, judgement, failing, Health.setDegraded, Health.update, Roster.get?_insert]
    · simp [probe?, report, count, judgement, failing, Health.setHealthy, Health.update, Roster.get?_insert]

omit [Number α] in
theorem probe?_report_of_ne (monitor : Monitor α) {part : String} (other : part ≠ Health.probePart)
    (state : ComponentHealth) : (monitor.report (·.update part state)).probe? = monitor.probe? := by
  cases registry : monitor.health <;> simp [probe?, report, registry, Health.update, Roster.get?_insert, other]

theorem fails_keepPrevious (monitor : Monitor α) (now : Moment) (pods : Nat) (error : Joint.JointError α) :
    Dealing.Fails (σ := σ) (fun next count => Judged now.unix monitor next .keptPrevious count)
      (monitor.keepPrevious now pods error) := by
  refine (Dealing.fails_log _).silently ?_
  intro _
  exact Dealing.fails_pure ⟨rfl, probe?_report_of_ne _ (by decide) _, fun _ => rfl⟩

theorem placed_charged (monitor : Monitor α) (staged : monitor.Staged) (now : Nat) :
    ∀ entry ∈ (monitor.charged now).entries, entry.2.IsPlaced := by
  intro entry member
  obtain ⟨⟨name, pod⟩, present, rfl⟩ := List.mem_map.mp member
  have attached := (staged.running name pod ((Roster.get?_eq_some_iff ..).mpr present)).2.2
  exact (attached.keeps (keeps_charge _ _ _ pod)).1

theorem fails_allocate (node : Node σ α) (monitor : Monitor α) (staged : monitor.Staged) (remaining : α)
    (now : Moment) :
    Dealing.Fails (fun out count => Judged now.unix monitor out.2 out.1 count)
      (monitor.allocate node remaining now) := by
  have placed := placed_charged monitor staged now.instant
  unfold allocate
  split
  · exact Dealing.fails_pure ((Unheard.refl monitor).judged rfl)
  · dsimp only
    split
    · refine (fails_enforce node _ placed now false _).bind ?_
      rintro next count ⟨counted, probe⟩
      exact Dealing.fails_pure ⟨counted, probe, fun idle => by cases idle⟩
    · split
      · refine (Dealing.fails_log _).silently ?_
        intro _
        refine (fails_enforce node _ placed now true _).bind ?_
        rintro next count ⟨counted, probe⟩
        exact Dealing.fails_pure ⟨counted, probe, fun idle => by cases idle⟩
      · refine (fails_keepPrevious _ now _ _).bind ?_
        rintro next count ⟨counted, probe, spared⟩
        exact Dealing.fails_pure ⟨counted, probe, spared⟩

theorem fails_allocateIfActing (node : Node σ α) (monitor : Monitor α) (staged : monitor.Staged) (remaining : α)
    (now : Moment) :
    Dealing.Fails (fun out count => Judged now.unix monitor out.2 out.1 count)
      (monitor.allocateIfActing node remaining now) := by
  unfold allocateIfActing
  split
  · exact Dealing.fails_pure ((Unheard.refl monitor).judged rfl)
  · exact fails_allocate node monitor staged remaining now

theorem fails_prepare (node : Node σ α) (monitor : Monitor α) (now : Nat) (pod : Pod α) (paths : PerKind String) :
    Dealing.Fails (fun out count => out.1.failed = count) (monitor.prepare node now pod paths) := by
  have seeding : Dealing.Fails (fun out count => out.1.failed = count) (monitor.seed node (pod.attach paths)) := by
    have placed : (pod.attach paths).IsPlaced := by
      intro kind
      cases kind <;> rfl
    unfold seed
    split
    · exact Dealing.fails_pure rfl
    · exact (pod.attach paths).fails_seedLimits node placed _
  refine seeding.bind ?_
  rintro ⟨report, seeded⟩ count failed
  refine (seeded.fails_sampleAll node Kind.all).silently ?_
  intro sampled
  exact Dealing.fails_pure failed

theorem fails_promote (node : Node σ α) (monitor : Monitor α) (now : Nat) (name : String) (pod : Pod α)
    (paths : PerKind String) :
    Dealing.Fails (fun next count => Unheard monitor next count) (monitor.promote node now name pod paths) := by
  refine (fails_prepare node monitor now pod paths).bind ?_
  rintro ⟨report, ready⟩ count failed
  refine (ready.fails_moveTo .running).silently ?_
  intro moved
  refine (Dealing.fails_log _).silently ?_
  intro _
  exact Dealing.fails_pure ⟨congrArg (monitor.tally.writeErrors + ·) failed, rfl⟩

theorem fails_promoteEach (node : Node σ α) (now : Nat) (names : List String) (monitor : Monitor α) :
    Dealing.Fails (fun out count => Unheard monitor out.2 count) (monitor.promoteEach node now names) := by
  induction names generalizing monitor with
  | nil => exact Dealing.fails_pure (.refl monitor)
  | cons name rest ih =>
    refine (Dealing.fails_askPaths node name).silently ?_
    intro paths
    split
    · next paths pod _ =>
      refine (fails_promote node monitor now name pod paths).bind ?_
      intro next count unheard
      refine (ih next).bind ?_
      intro out more later
      exact Dealing.fails_pure (unheard.trans later)
    · exact ih monitor

theorem unheard_onAllocation (node : Node σ α) (position : Monitor α × Scene σ α) (trigger : Trigger) (now : Moment)
    (arrival : List Sample → List Sample) :
    let before := onAllocation node position trigger now arrival
    before.2.faults = position.2.faults ∧ Unheard position.1 before.1 0 := by
  intro before
  obtain ⟨_, sampled, rfl⟩ := fails_takeSamples node position.1.running.entries position.2
  have expired : Unheard position.1 (position.1.expire trigger now.instant) 0 := by
    rw [expire_eq]
    exact ⟨rfl, rfl⟩
  obtain ⟨_, taken, rfl, unheard⟩ := fails_takeIn (position.1.expire trigger now.instant)
    (arrival (takeSamples node position.1.running.entries position.2).1)
    (takeSamples node position.1.running.entries position.2).2
  exact ⟨taken.trans sampled, expired.trans unheard⟩

/-- Wherever a run stands, a cycle counts every write that fails. Those of its allocation pass judge the probe, which
ends up degraded if there are any and healthy if a pass came off without; those of its promotions leave it as the pass
did, and so does a cycle without a pass. -/
theorem judged_of_reached (node : Node σ α) (config : MonitorConfig α) (health : Option Health) (now : Nat)
    (state : σ) :
    let start : Monitor α × Scene σ α := (.new config health now, ⟨state, []⟩)
    ∀ position, Reached node start position → ∀ registry, position.1.health = some registry →
      ∀ trigger moment arrival,
        let cycle := position.1.cycle node trigger moment arrival position.2
        let before := onAllocation node position trigger moment arrival
        let pass := before.1.allocateIfActing node (position.1.remaining trigger moment.instant) moment before.2
        ∃ failed seeds, before.2.faults = position.2.faults ∧ pass.2.faults = before.2.faults + failed ∧
          cycle.2.faults = pass.2.faults + seeds ∧
          cycle.1.2.tally.writeErrors = position.1.tally.writeErrors + (failed + seeds) ∧
          cycle.1.2.probe? =
            (if cycle.1.1.allocation.isApplied then some (judgement failed moment.unix) else position.1.probe?) ∧
          (0 < failed → cycle.1.2.probe?.map (·.status) = some .degraded) := by
  intro start position reached registry registered trigger moment arrival cycle before pass
  have moves : Moves node position before := moves_onAllocation node position trigger moment arrival
  have staged := ((reached.moves moves).sound (staged_new config health now)).1
  obtain ⟨quiet, unheard⟩ := unheard_onAllocation node position trigger moment arrival
  obtain ⟨failed, passed, judged⟩ :=
    fails_allocateIfActing node before.1 staged (position.1.remaining trigger moment.instant) moment before.2
  obtain ⟨seeds, promoted, later⟩ := fails_promoteEach node moment.instant pass.1.2.notReady.names pass.1.2 pass.2
  have outcome : cycle.1.1.allocation = pass.1.1 := rfl
  have probe : cycle.1.2.probe? =
      if cycle.1.1.allocation.isApplied then some (judgement failed moment.unix) else position.1.probe? := by
    have before := unheard.health
    calc cycle.1.2.probe?
      _ = pass.1.2.probe? := congrArg (·.bind fun health => health.components.get? Health.probePart) later.health
      _ = _ := judged.probe
      _ = _ := by rw [outcome, probe?, probe?, before, registered, Option.map_some]
  refine ⟨failed, seeds, quiet, passed, promoted, ?_, probe, ?_⟩
  · calc cycle.1.2.tally.writeErrors
      _ = pass.1.2.tally.writeErrors + seeds := later.counted
      _ = position.1.tally.writeErrors + 0 + failed + seeds := by rw [judged.counted, unheard.counted]
      _ = _ := by omega
  · intro positive
    have applied : cycle.1.1.allocation.isApplied = true := by
      by_contra idle
      have none := judged.spared (by simpa [outcome] using idle)
      omega
    rw [probe, if_pos applied]
    simp [judgement, positive, ComponentHealth.degraded]

def sealed : Node Unit Rat := { willing with write := fun _ _ _ => (.error (.file "limit" (.other "sealed")), ()) }

/-- A pod was promoted on the sealed node and another one admitted since. -/
def sealedQueue : Monitor Rat × Scene Unit Rat :=
  run sealed (.new ⟨"node", 1000000000, false, .default⟩ (some .new) 0, ⟨(), []⟩)
    [.enroll ⟨"trainer", 100⟩, .cycle .tick ⟨1000000000, 1⟩ id, .enroll ⟨"server", 50⟩]

/-- One pod is assigned limits and another one promoted while nothing can be written. -/
theorem judged_of_reached_sealed :
    sealedQueue.1.probe? = none ∧
      (sealedQueue.1.cycle sealed .tick ⟨2000000000, 2⟩ id sealedQueue.2).1.2.tally.writeErrors =
        sealedQueue.1.tally.writeErrors + 4 ∧
      (sealedQueue.1.cycle sealed .tick ⟨2000000000, 2⟩ id sealedQueue.2).1.2.probe?.map (·.status) =
        some .degraded := by
  obtain ⟨registry, registered⟩ : ∃ registry, sealedQueue.1.health = some registry :=
    Option.isSome_iff_exists.mp (by decide +kernel)
  obtain ⟨failed, seeds, quiet, passed, _, _, _, degraded⟩ :=
    judged_of_reached sealed ⟨"node", 1000000000, false, .default⟩ (some .new) 0 () sealedQueue (.run _ .start) registry
      registered .tick ⟨2000000000, 2⟩ id
  refine ⟨by decide +kernel, by decide +kernel, degraded (Nat.pos_of_ne_zero ?_)⟩
  rintro rfl
  revert passed
  decide +kernel

/-- Faults of a promotion are counted and do not degrade the probe. -/
theorem unheard_of_promotion :
    let start : Monitor Rat × Scene Unit Rat := (.new ⟨"node", 1000000000, false, .default⟩ (some .new) 0, ⟨(), []⟩)
    ¬ ∀ position, Reached sealed start position → position.1.health.isSome → ∀ trigger moment arrival,
      let cycle := position.1.cycle sealed trigger moment arrival position.2
      position.1.tally.writeErrors < cycle.1.2.tally.writeErrors →
        cycle.1.2.probe?.map (·.status) = some .degraded := by
  intro start always
  have reached : Reached sealed start (run sealed start [.enroll ⟨"trainer", 100⟩]) := .run _ .start
  have degraded := always _ reached (by decide +kernel) .tick ⟨1000000000, 1⟩ id (by decide +kernel)
  revert degraded
  decide +kernel

end PodBudget.Monitor
