import PodBudget.Proofs.Monitor.History

/-!
Billing of a run. Every step of a run keeps the accounts in agreement with the ledger; so at every position of every
run, the middle of a cycle included, each pod that is running or has completed is charged for the whole of its stay,
once.
-/
namespace PodBudget.Monitor

variable {σ α : Type}

def Holds (monitor : Monitor α) (name : String) (pod : Pod α) : Prop :=
  monitor.running.get? name = some pod ∨ monitor.completed.get? name = some pod

variable [Number α]

/-- No account and no limit of a held pod changes; who comes to wait owns nothing yet. -/
structure Idle (before after : Monitor α) : Prop where
  config : after.config = before.config
  waiting : ∀ name pod, after.notReady.get? name = some pod →
    before.notReady.get? name = some pod ∨ pod.queue = 0 ∧ pod.updates = 0
  held : ∀ name pod, after.Holds name pod → ∃ old, before.Holds name old ∧ old.Rests pod

theorem Idle.of_running {before after : Monitor α} (config : after.config = before.config)
    (notReady : after.notReady = before.notReady) (running : before.running.Aligned Pod.Rests after.running)
    (completed : after.completed = before.completed) : Idle before after where
  config := config
  waiting _ _ found := .inl (notReady ▸ found)
  held name pod found := by
    rcases found with found | found
    · obtain ⟨old, present, rests⟩ := running.get? found
      exact ⟨old, .inl present, rests⟩
    · exact ⟨pod, .inr (completed ▸ found), .refl pod⟩

theorem Idle.refl (monitor : Monitor α) : Idle monitor monitor :=
  .of_running rfl rfl (.refl Pod.Rests.refl monitor.running) rfl

theorem idle_taking (monitor : Monitor α) (admission : Admission α) :
    Idle monitor (monitor.taking admission) where
  config := rfl
  waiting name pod found := by
    rw [taking, Roster.get?_insert] at found
    split at found
    · cases found
      exact .inr ⟨rfl, rfl⟩
    · exact .inl found
  held name pod found := by
    refine ⟨pod, found.imp_right ?_, .refl pod⟩
    intro present
    rw [taking, Roster.get?_erase] at present
    split at present
    · cases present
    · exact present

theorem idle_foldSamples (monitor : Monitor α) (samples : List Sample) :
    Idle monitor { monitor with running := (foldSamples monitor.running samples).1 } :=
  .of_running rfl rfl
    (aligned_foldSamples Pod.Rests.refl Pod.Rests.trans Pod.rests_recordSamples monitor.running samples) rfl

theorem yields_complete (monitor : Monitor α) (name : String) :
    Dealing.Yields (σ := σ) (Idle monitor) (monitor.complete name) := by
  unfold complete
  split
  · exact Dealing.yields_pure (.refl monitor)
  · next pod found =>
    refine (pod.yields_moveTo .completed).bind ?_
    intro moved rests
    refine (Dealing.yields_true _).bind ?_
    intro _ _
    refine Dealing.yields_pure ⟨rfl, fun _ _ => .inl, ?_⟩
    rintro other value (present | present)
    · rw [Roster.get?_erase] at present
      split at present
      · cases present
      · exact ⟨value, .inl present, .refl value⟩
    · rw [Roster.get?_insert] at present
      split at present
      · next same =>
        cases present
        exact ⟨pod, .inl (same ▸ found), rests⟩
      · exact ⟨value, .inr present, .refl value⟩

theorem yields_promote (node : Node σ α) (monitor : Monitor α) (now : Nat) (name : String) (pod : Pod α)
    (paths : PerKind String) :
    Dealing.Yields
      (fun next => next.config = monitor.config ∧ next.notReady = monitor.notReady.erase name ∧
        next.completed = monitor.completed ∧
        ∃ ready, next.running = monitor.running.insert name ready ∧
          ready.account = { pod.account with lastUpdate := some now })
      (monitor.promote node now name pod paths) := by
  have seeding : Dealing.Yields (fun out => out.2.account = pod.account) (monitor.seed node (pod.attach paths)) := by
    unfold seed
    split
    · exact Dealing.yields_pure rfl
    · exact Pod.yields_seedLimits node (pod.attach paths) _
  have preparing : Dealing.Yields (fun out => out.2.account = { pod.account with lastUpdate := some now })
      (monitor.prepare node now pod paths) := by
    refine seeding.bind ?_
    rintro ⟨report, seeded⟩ same
    refine (seeded.yields_sampleAll node Kind.all).bind ?_
    intro sampled read
    apply Dealing.yields_pure
    change { sampled.account with lastUpdate := some now } = _
    rw [read, same]
  refine preparing.bind ?_
  rintro ⟨report, ready⟩ account
  refine (ready.yields_moveTo .running).bind ?_
  intro moved rests
  refine (Dealing.yields_true _).bind ?_
  intro _ _
  exact Dealing.yields_pure ⟨rfl, rfl, rfl, moved, rfl, rests.account.trans account⟩

structure Balanced (cap : QueueCap) (entries : List (Entry α)) (monitor : Monitor α) : Prop where
  waiting : ∀ name pod, monitor.notReady.get? name = some pod → pod.queue = 0 ∧ pod.updates = 0
  billed : ∀ name pod, monitor.Holds name pod → ∃ stay, stayOf name entries = some stay ∧ Billed cap stay pod

section

variable {cap : QueueCap} {entries : List (Entry α)} {before after : Monitor α}

theorem Balanced.idle (balanced : Balanced cap entries before) (idle : Idle before after) :
    Balanced cap entries after where
  waiting name pod found := (idle.waiting name pod found).elim (balanced.waiting name pod) id
  billed name pod found := by
    obtain ⟨old, present, rests⟩ := idle.held name pod found
    obtain ⟨stay, known, billed⟩ := balanced.billed name old present
    exact ⟨stay, known, billed.rests rests⟩

/-- Every running pod is charged for one more stretch; a completed one was not in the pass. -/
theorem Balanced.pass {now : Moment} {out : Allocation × Monitor α} (balanced : Balanced cap entries before)
    (settles : before.running.Aligned (Pod.Settles cap now.instant out.1) out.2.running)
    (steady : Steady before out.2) (staged : out.2.Staged) :
    Balanced cap (entries ++ [.ofPass now out]) out.2 where
  waiting := steady.notReady ▸ balanced.waiting
  billed name pod held := by
    rw [stayOf_concat]
    rcases held with running | completed
    · obtain ⟨old, present, charged⟩ := settles.get? running
      obtain ⟨stay, known, billed⟩ := balanced.billed name old (.inl present)
      refine ⟨stay.add ⟨now.instant, pod.limits, out.1.isApplied⟩, ?_, billed.settles charged⟩
      rw [Entry.extend_ofPass _ running, known, Option.map_some]
    · -- A name stands at one stage, so the pass has no stamp for this one.
      have absent : out.2.running.get? name = none := by
        rw [Roster.get?_eq_none_iff]
        intro working
        exact (staged.absent_of_running working).2 ((Roster.mem_names_iff ..).mpr ⟨pod, completed⟩)
      rw [Entry.extend_of_absent _ absent]
      exact balanced.billed name pod (.inr (steady.completed ▸ completed))

theorem Balanced.promote {now : Nat} {name : String} {pod ready : Pod α} (balanced : Balanced cap entries before)
    (waiting : before.notReady.get? name = some pod) (notReady : after.notReady = before.notReady.erase name)
    (completed : after.completed = before.completed) (running : after.running = before.running.insert name ready)
    (account : ready.account = { pod.account with lastUpdate := some now }) (staged : after.Staged) :
    Balanced cap (entries ++ [.ofStart name now after]) after where
  waiting other value found := by
    rw [notReady, Roster.get?_erase] at found
    split at found
    · cases found
    · exact balanced.waiting other value found
  billed other value held := by
    have started : after.running.get? name = some ready := by rw [running, Roster.get?_insert, if_pos rfl]
    rw [stayOf_concat]
    by_cases same : name = other
    · subst same
      -- Held under the name of the pod that starts is this pod only, no completed one.
      have unheld : after.completed.get? name ≠ some value := by
        intro done
        have working := (Roster.mem_names_iff ..).mpr ⟨ready, started⟩
        exact (staged.absent_of_running working).2 ((Roster.mem_names_iff ..).mpr ⟨value, done⟩)
      obtain rfl : ready = value := Option.some.inj (started.symm.trans (held.resolve_right unheld))
      obtain ⟨empty, new⟩ := balanced.waiting name pod waiting
      simp only [Pod.account, Account.mk.injEq] at account
      obtain ⟨_, queue, settled, updates⟩ := account
      exact ⟨_, Entry.extend_ofStart _ now started, billed_begin (queue.trans empty) (updates.trans new) settled⟩
    · rw [Entry.extend_ofStart_of_ne _ now same]
      apply balanced.billed other value
      rwa [Holds, running, completed, Roster.get?_insert, if_neg same] at held

end

theorem Step.balanced {node : Node σ α} {position next : Monitor α × Scene σ α} {entries more : List (Entry α)}
    (step : Step node position more next) (staged : position.1.Staged) (later : next.1.Staged)
    (acting : position.1.config.monitoringOnly = false)
    (balanced : Balanced position.1.config.policy.queueCap entries position.1) :
    next.1.config = position.1.config ∧
      Balanced position.1.config.policy.queueCap (entries ++ more) next.1 := by
  have idly {monitor : Monitor α} (idle : Idle position.1 monitor) :
      monitor.config = position.1.config ∧
        Balanced position.1.config.policy.queueCap (entries ++ []) monitor :=
    ⟨idle.config, (List.append_nil entries).symm ▸ balanced.idle idle⟩
  cases step with
  | @enroll monitor scene admission =>
    apply idly
    by_cases live : monitor.isLive admission.name = true
    · rw [enroll_of_live monitor admission scene live]
      exact .refl monitor
    · rw [enroll_of_free monitor admission scene live]
      exact idle_taking monitor admission
  | @expire monitor scene trigger now =>
    apply idly
    rw [expire_eq]
    exact .of_running rfl rfl (.refl Pod.Rests.refl _) rfl
  | sample _ => exact idly (.refl _)
  | report samples => exact idly (idle_foldSamples _ samples)
  | @complete monitor scene name => exact idly (yields_complete monitor name scene)
  | @allocate monitor scene remaining now =>
    obtain ⟨config, settles⟩ := yields_allocateIfActing node monitor remaining now acting staged scene
    obtain ⟨steady, _⟩ := ensures_allocateIfActing node monitor remaining now scene
    exact ⟨config, balanced.pass settles steady later⟩
  | ask _ => exact idly (.refl _)
  | @promote monitor scene now name pod paths waiting =>
    obtain ⟨config, notReady, completed, ready, running, account⟩ :=
      yields_promote node monitor now name pod paths scene
    exact ⟨config, balanced.promote waiting notReady completed running account later⟩
  | publish _ => exact idly (.of_running rfl rfl (.refl Pod.Rests.refl _) rfl)

theorem History.balanced {node : Node σ α} {start position : Monitor α × Scene σ α} {entries : List (Entry α)}
    (history : History node start entries position) (staged : start.1.Staged)
    (acting : start.1.config.monitoringOnly = false)
    (opening : Balanced start.1.config.policy.queueCap [] start.1) :
    position.1.config = start.1.config ∧ Balanced start.1.config.policy.queueCap entries position.1 := by
  induction history with
  | start => exact ⟨rfl, opening⟩
  | @step entries more before after history step ih =>
    obtain ⟨config, balanced⟩ := ih
    have sound := (history.reached.sound staged).1
    have later := ((step.reached history.reached).sound staged).1
    rw [← config] at acting balanced ⊢
    obtain ⟨same, still⟩ := step.balanced sound later acting balanced
    exact ⟨same, still⟩

theorem balanced_new (config : MonitorConfig α) (health : Option Health) (now : Nat) :
    Balanced config.policy.queueCap [] (Monitor.new config health now) where
  waiting name _ found := absurd ((Roster.get?_empty name).symm.trans found) nofun
  billed name _ held := by
    rcases held with found | found <;> exact absurd ((Roster.get?_empty name).symm.trans found) nofun

/-- Every run has a ledger, which agrees with the reports of its cycles. A pass made at any position charges every
running pod for the time since its account was last settled, and settles it up to the pass, however it ends. So the
account of a pod, until its record gives way, is what its stay costs: each stretch from its start or a pass to the
next pass, at the limits in force meanwhile; and where time never goes back, each instant of the stay up to the last
of its passes is charged exactly once. -/
theorem billed_of_history (node : Node σ α) (config : MonitorConfig α) (health : Option Health) (now : Nat)
    (state : σ) (acting : config.monitoringOnly = false) :
    let start : Monitor α × Scene σ α := (.new config health now, ⟨state, []⟩)
    (∀ calls, ∃ entries, History node start entries (run node start calls) ∧
      entries.map (·.note) = notes node start calls ∧
      ((calls.filterMap Call.instant?).Pairwise (· ≤ ·) →
        (entries.map (·.note.instant)).Pairwise (· ≤ ·))) ∧
    ∀ entries position, History node start entries position →
      (∀ remaining now,
        let out := (position.1.allocateIfActing node remaining now position.2).1
        position.1.running.Aligned (Pod.Settles config.policy.queueCap now.instant out.1) out.2.running) ∧
      ∀ name pod, position.1.Holds name pod → ∃ stay, stayOf name entries = some stay ∧
        Billed config.policy.queueCap stay pod ∧
        ((entries.map (·.note.instant)).Pairwise (· ≤ ·) → ∀ instant,
          stay.stretches.countP (·.covers instant) =
            if stay.origin.instant ≤ instant ∧ instant < stay.last.instant then 1 else 0) := by
  intro start
  constructor
  · intro calls
    obtain ⟨entries, history, same⟩ := History.run calls (.start : History node start [] start)
    refine ⟨entries, history, same, ?_⟩
    intro sorted
    have ordered := sorted_notes node start calls sorted
    rwa [← same, List.map_map] at ordered
  · intro entries position history
    obtain ⟨config_eq, balanced⟩ := history.balanced (staged_new config health now) acting (balanced_new ..)
    have staged := (history.reached.sound (staged_new config health now)).1
    constructor
    · intro remaining moment
      have acts : position.1.config.monitoringOnly = false := config_eq ▸ acting
      have cap : position.1.config.policy.queueCap = config.policy.queueCap := by rw [config_eq]; rfl
      exact cap ▸ (yields_allocateIfActing node position.1 remaining moment acts staged position.2).2
    · intro name pod held
      obtain ⟨stay, known, billed⟩ := balanced.billed name pod held
      refine ⟨stay, known, billed, ?_⟩
      intro sorted
      exact countP_covers_stretches stay.origin stay.passes (sorted.sublist (sublist_instants known))

theorem billed_of_history_mixed :
    let config : MonitorConfig Rat := ⟨"node", 1000000000, false, { Policy.default with minLimit := 60 }⟩
    let start : Monitor Rat × Scene Unit Rat := (.new config none 0, ⟨(), []⟩)
    let calls : List (Call Rat) :=
      [.enroll ⟨"trainer", 100⟩, .cycle .tick ⟨1000000000, 1⟩ id, .cycle .pulse ⟨1500000000, 1⟩ id,
        .enroll ⟨"server", 50⟩, .cycle .tick ⟨2000000000, 2⟩ id, .cycle .tick ⟨4000000000, 4⟩ id]
    notes willing start calls =
      [.passed 1000000000 .skipped, .began "trainer" 1000000000, .passed 1500000000 .perPod,
        .passed 2000000000 .perPod, .began "server" 2000000000, .passed 4000000000 .keptPrevious] ∧
    ∃ entries pod stay, History willing start entries (run willing start calls) ∧
      (run willing start calls).1.running.get? "trainer" = some pod ∧ stayOf "trainer" entries = some stay ∧
      Billed .unbounded stay pod ∧ pod.lastUpdate = some 4000000000 ∧ pod.updates = 2 := by
  intro config start calls
  have ended : ((run willing start calls).1.running.get? "trainer").map (fun pod => (pod.lastUpdate, pod.updates)) =
      some (some 4000000000, 2) := by decide +kernel
  obtain ⟨pod, running, account⟩ := Option.map_eq_some_iff.mp ended
  obtain ⟨settled, updates⟩ := Prod.mk.inj account
  obtain ⟨ledger, billed⟩ := billed_of_history willing config none 0 () rfl
  obtain ⟨entries, history, -⟩ := ledger calls
  have held : (run willing start calls).1.Holds "trainer" pod := .inl running
  obtain ⟨_, bills⟩ := billed entries _ history
  obtain ⟨stay, known, bill, -⟩ := bills "trainer" pod held
  exact ⟨by decide +kernel, entries, pod, stay, history, running, known, bill, settled, updates⟩

end PodBudget.Monitor
