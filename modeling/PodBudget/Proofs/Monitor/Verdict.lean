import PodBudget.Proofs.Monitor.Judgement

/-!
What the registry says of the controller. A pass that comes to limits makes it healthy, and one whose joint problem is not
solved degrades it. A cycle without a pass says nothing; so a failure is remembered until the next pass that does better,
and where nothing runs any more it is remembered for good.
-/
namespace PodBudget.Monitor

variable {σ α : Type}

def verdict? (monitor : Monitor α) : Option ComponentHealth :=
  monitor.health.bind fun health => health.components.get? Health.monitorPart

theorem verdict?_congr {before after : Monitor α} (same : after.health = before.health) :
    after.verdict? = before.verdict? :=
  congrArg (·.bind fun health => health.components.get? Health.monitorPart) same

theorem verdict?_report (monitor : Monitor α) (change : Health → Health)
    (spares : ∀ health, (change health).components.get? Health.monitorPart =
      health.components.get? Health.monitorPart) :
    (monitor.report change).verdict? = monitor.verdict? := by
  cases registry : monitor.health with
  | none => simp [verdict?, report, registry]
  | some health => simp [verdict?, report, registry, spares]

theorem verdict?_setPart (monitor : Monitor α) (state : ComponentHealth) :
    (monitor.report (·.update Health.monitorPart state)).verdict? = monitor.health.map fun _ => state := by
  cases registry : monitor.health <;> simp [verdict?, report, registry, Health.update, Roster.get?_insert]

variable [Number α]

inductive Rules (monitor : Monitor α) (remaining : α) (now : Moment) : Allocation → Option ComponentHealth → Prop
  | silent : Rules monitor remaining now .skipped monitor.verdict?
  | cleared {outcome} (applied : outcome.isApplied = true) :
    Rules monitor remaining now outcome (monitor.health.map fun _ => .healthy now.unix)
  | blamed {error} (unsolved : monitor.solution remaining now.instant = .error error) :
    Rules monitor remaining now .keptPrevious
      (monitor.health.map fun _ => .degraded s!"joint solve failed: {error.message}" now.unix)

section

variable {monitor : Monitor α} {remaining : α} {now : Moment} {outcome : Allocation} {said : Option ComponentHealth}
  (rules : Rules monitor remaining now outcome said)
include rules

theorem Rules.of_skipped (idle : outcome = .skipped) : said = monitor.verdict? := by
  cases rules with
  | silent => rfl
  | cleared applied =>
    subst idle
    cases applied
  | blamed _ => cases idle

theorem Rules.status_of_acted (acted : outcome ≠ .skipped) {registry : Health}
    (registered : monitor.health = some registry) :
    said.map (·.status) = some (if outcome = .keptPrevious then .degraded else .healthy) := by
  cases rules with
  | silent => exact absurd rfl acted
  | cleared applied =>
    have solved : outcome ≠ .keptPrevious := by
      rintro rfl
      cases applied
    rw [registered, if_neg solved]
    rfl
  | blamed _ =>
    rw [registered]
    rfl

end

theorem yields_verdict_enforce (node : Node σ α) (monitor : Monitor α) (now : Moment) (joint : Bool)
    (limits : List (PerKind α)) :
    Dealing.Yields (fun next => next.verdict? = monitor.health.map fun _ => .healthy now.unix)
      (monitor.enforce node now joint limits) := by
  refine (Dealing.yields_true _).bind ?_
  rintro ⟨failed, running⟩ _
  refine Dealing.yields_pure ?_
  cases registry : monitor.health with
  | none => simp [verdict?, report, count]
  | some health =>
    -- The judgement of the probe, which is written last, is another entry.
    by_cases failing : 0 < failed <;>
      simp [verdict?, report, count, failing, Health.setDegraded, Health.setHealthy, Health.update,
        Roster.get?_insert, Health.probePart, Health.monitorPart]

theorem yields_verdict_keepPrevious (monitor : Monitor α) (now : Moment) (pods : Nat) (error : Joint.JointError α) :
    Dealing.Yields (σ := σ)
      (fun next => next.verdict? =
        monitor.health.map fun _ => .degraded s!"joint solve failed: {error.message}" now.unix)
      (monitor.keepPrevious now pods error) := by
  refine (Dealing.yields_true _).bind ?_
  intro _ _
  exact Dealing.yields_pure (verdict?_setPart _ _)

theorem rules_allocate (node : Node σ α) (monitor : Monitor α) (remaining : α) (now : Moment) :
    Dealing.Yields (fun out => Rules monitor remaining now out.1 out.2.verdict?)
      (monitor.allocate node remaining now) := by
  unfold allocate
  split
  · exact Dealing.yields_pure .silent
  · dsimp only
    split
    · refine (yields_verdict_enforce node _ now false _).bind ?_
      intro next said
      exact Dealing.yields_pure (said ▸ .cleared rfl)
    · split
      · refine (Dealing.yields_true _).bind ?_
        intro _ _
        refine (yields_verdict_enforce node _ now true _).bind ?_
        intro next said
        exact Dealing.yields_pure (said ▸ .cleared rfl)
      · next error unsolved =>
        refine (yields_verdict_keepPrevious _ now _ error).bind ?_
        intro next said
        exact Dealing.yields_pure (said ▸ .blamed unsolved)

theorem rules_allocateIfActing (node : Node σ α) (monitor : Monitor α) (remaining : α) (now : Moment) :
    Dealing.Yields (fun out => Rules monitor remaining now out.1 out.2.verdict?)
      (monitor.allocateIfActing node remaining now) := by
  unfold allocateIfActing
  split
  · exact Dealing.yields_pure .silent
  · exact rules_allocate node monitor remaining now

/-- Of a whole cycle the registry hears what its pass says, and nothing else about the controller. -/
theorem rules_cycle (node : Node σ α) (position : Monitor α × Scene σ α) (trigger : Trigger) (now : Moment)
    (arrival : List Sample → List Sample) :
    let cycle := position.1.cycle node trigger now arrival position.2
    let before := onAllocation node position trigger now arrival
    before.1.health = position.1.health ∧
      Rules before.1 (position.1.remaining trigger now.instant) now cycle.1.1.allocation cycle.1.2.verdict? := by
  intro cycle before
  let pass := before.1.allocateIfActing node (position.1.remaining trigger now.instant) now before.2
  obtain ⟨_, unheard⟩ := unheard_onAllocation node position trigger now arrival
  obtain ⟨_, _, later⟩ := fails_promoteEach node now.instant pass.1.2.notReady.names pass.1.2 pass.2
  have same : cycle.1.2.verdict? = pass.1.2.verdict? := verdict?_congr later.health
  rw [same]
  exact ⟨unheard.health, rules_allocateIfActing node before.1 (position.1.remaining trigger now.instant) now before.2⟩

/-- What happens to a controller and its registry: a call, or a report of another part. -/
inductive Occasion (α : Type) where
  | call (call : Call α)
  | elsewhere (change : Health → Health)

def Occasion.Spares : Occasion α → Prop
  | .call _ => True
  | .elsewhere change => ∀ health, (change health).components.get? Health.monitorPart =
      health.components.get? Health.monitorPart

omit [Number α] in
theorem spares_update {part : String} (other : part ≠ Health.monitorPart) (state : ComponentHealth) :
    (Occasion.elsewhere (α := α) (·.update part state)).Spares := by
  intro health
  simp only [Health.update, Roster.get?_insert, other, ↓reduceIte]

def attend (node : Node σ α) (position : Monitor α × Scene σ α) : Occasion α → Monitor α × Scene σ α
  | .call call => perform node position call
  | .elsewhere change => (position.1.report change, position.2)

def attendAll (node : Node σ α) (start : Monitor α × Scene σ α) (occasions : List (Occasion α)) :
    Monitor α × Scene σ α :=
  occasions.foldl (attend node) start

def outcome? (node : Node σ α) (position : Monitor α × Scene σ α) : Occasion α → Option Allocation
  | .call (.cycle trigger now arrival) =>
    let outcome := (position.1.cycle node trigger now arrival position.2).1.1.allocation
    if outcome = .skipped then none else some outcome
  | .call (.enroll _) => none
  | .elsewhere _ => none

/-- How the last pass of a run ended; `before` is how the last one before the run did. -/
def lastOutcome? (node : Node σ α) (before : Option Allocation) :
    Monitor α × Scene σ α → List (Occasion α) → Option Allocation
  | _, [] => before
  | position, occasion :: rest =>
    lastOutcome? node ((outcome? node position occasion).or before) (attend node position occasion) rest

/-- The registry has the controller degraded if its last pass was not solved, and healthy otherwise. -/
def Reflects (monitor : Monitor α) (last : Option Allocation) : Prop :=
  monitor.verdict?.map (·.status) = some (if last = some .keptPrevious then .degraded else .healthy)

omit [Number α] in
theorem Reflects.registered {monitor : Monitor α} {last : Option Allocation} (reflects : Reflects monitor last) :
    ∃ registry, monitor.health = some registry := by
  cases registry : monitor.health with
  | none => simp [Reflects, verdict?, registry] at reflects
  | some health => exact ⟨health, rfl⟩

omit [Number α] in
theorem Reflects.of_same {before after : Monitor α} {last : Option Allocation} (reflects : Reflects before last)
    (same : after.verdict? = before.verdict?) : Reflects after last := by
  unfold Reflects
  rwa [same]

theorem reflects_cycle (node : Node σ α) {position : Monitor α × Scene σ α} {last : Option Allocation}
    (reflects : Reflects position.1 last) (trigger : Trigger) (now : Moment) (arrival : List Sample → List Sample) :
    Reflects (position.1.cycle node trigger now arrival position.2).1.2
      ((outcome? node position (.call (.cycle trigger now arrival))).or last) := by
  obtain ⟨registry, registered⟩ := reflects.registered
  obtain ⟨same, rules⟩ := rules_cycle node position trigger now arrival
  by_cases idle : (position.1.cycle node trigger now arrival position.2).1.1.allocation = .skipped
  · have silent : outcome? node position (.call (.cycle trigger now arrival)) = none := if_pos idle
    rw [silent, Option.none_or]
    exact reflects.of_same ((rules.of_skipped idle).trans (verdict?_congr same))
  · have decided : outcome? node position (.call (.cycle trigger now arrival)) = some _ := if_neg idle
    rw [decided, Option.some_or]
    unfold Reflects
    rw [rules.status_of_acted idle (same.trans registered)]
    simp only [Option.some.injEq]

theorem verdict?_enroll (monitor : Monitor α) (admission : Admission α) (scene : Scene σ α) :
    (monitor.enroll admission scene).1.2.verdict? = monitor.verdict? := by
  by_cases live : monitor.isLive admission.name = true
  · rw [enroll_of_live monitor admission scene live]
  · rw [enroll_of_free monitor admission scene live]
    rfl

theorem reflects_attend (node : Node σ α) {position : Monitor α × Scene σ α} {last : Option Allocation}
    (reflects : Reflects position.1 last) {occasion : Occasion α} (spares : occasion.Spares) :
    Reflects (attend node position occasion).1 ((outcome? node position occasion).or last) := by
  cases occasion with
  | elsewhere change => exact reflects.of_same (verdict?_report position.1 change spares)
  | call call =>
    cases call with
    | enroll admission => exact reflects.of_same (verdict?_enroll position.1 admission position.2)
    | cycle trigger now arrival => exact reflects_cycle node reflects trigger now arrival

theorem reflects_attendAll (node : Node σ α) {occasions : List (Occasion α)}
    (spares : ∀ occasion ∈ occasions, occasion.Spares) {position : Monitor α × Scene σ α} {last : Option Allocation}
    (reflects : Reflects position.1 last) :
    Reflects (attendAll node position occasions).1 (lastOutcome? node last position occasions) := by
  induction occasions generalizing position last with
  | nil => exact reflects
  | cons occasion rest ih =>
    refine ih ?_ (reflects_attend node reflects (spares occasion List.mem_cons_self))
    intro other member
    exact spares other (List.mem_cons_of_mem _ member)

/-- A controller that was registered healthy, and that nobody else reports on, is degraded after a run if and only if the
last pass of the run was not solved. After one more cycle it is so if that cycle had a pass that was not solved, and a
cycle with any other pass clears it; one without a pass leaves everything that was said, the failure included. -/
theorem ruled_of_run (node : Node σ α) (config : MonitorConfig α) (registry : Health) (time : Int)
    (registered : registry.components.get? Health.monitorPart = some (.healthy time)) (now : Nat) (state : σ)
    (occasions : List (Occasion α)) (spares : ∀ occasion ∈ occasions, occasion.Spares) :
    let start : Monitor α × Scene σ α := (.new config (some registry) now, ⟨state, []⟩)
    let position := attendAll node start occasions
    (position.1.verdict?.map (·.status) =
      some (if lastOutcome? node none start occasions = some .keptPrevious then .degraded else .healthy)) ∧
    ∀ trigger moment arrival,
      let cycle := position.1.cycle node trigger moment arrival position.2
      let before := onAllocation node position trigger moment arrival
      Rules before.1 (position.1.remaining trigger moment.instant) moment cycle.1.1.allocation cycle.1.2.verdict? ∧
      (cycle.1.1.allocation ≠ .skipped →
        (cycle.1.2.verdict?.map (·.status) = some .degraded ↔ cycle.1.1.allocation = .keptPrevious)) ∧
      (cycle.1.1.allocation = .skipped → cycle.1.2.verdict? = position.1.verdict?) := by
  intro start position
  have begins : Reflects start.1 none := by
    simp only [Reflects, verdict?, start, Monitor.new, Option.bind_some, registered]
    rfl
  have reflects : Reflects position.1 (lastOutcome? node none start occasions) :=
    reflects_attendAll node spares begins
  obtain ⟨still, present⟩ := reflects.registered
  refine ⟨reflects, ?_⟩
  intro trigger moment arrival cycle before
  obtain ⟨same, rules⟩ := rules_cycle node position trigger moment arrival
  refine ⟨rules, ?_, ?_⟩
  · intro acted
    rw [rules.status_of_acted acted (same.trans present)]
    by_cases kept : cycle.1.1.allocation = .keptPrevious
    · simp [kept, cycle]
    · simp [kept, cycle]
  · intro idle
    exact (rules.of_skipped idle).trans (verdict?_congr same)

def fading : Node Nat Rat where
  resolve left pod := (some ⟨pod, pod⟩, left)
  read left handle := (if left = 0 then .error (.missing handle.path) else .ok ⟨0, 0⟩, left - 1)
  write left _ _ := (.ok (), left)
  rebalance left := (.ok (), left)

def cramped : MonitorConfig Rat := ⟨"node", 1000000000, false, { Policy.default with minLimit := 101 }⟩

def crowded (readings : Nat) : Monitor Rat × Scene Nat Rat :=
  (.new cramped (some (Health.new.register Health.monitorPart 0)) 0, ⟨readings, []⟩)

/-- A pod starts and cannot be given limits; meanwhile the discovery reports for itself. -/
def overfull : List (Occasion Rat) :=
  [.call (.enroll ⟨"trainer", 100⟩), .call (.cycle .tick ⟨1000000000, 1⟩ id),
    .call (.cycle .tick ⟨2000000000, 2⟩ id), .elsewhere (·.update Health.discoveryPart (.degraded "no list" 2))]

theorem ruled_of_run_overfull :
    let position := attendAll fading (crowded 100) overfull
    let cycle := position.1.cycle fading .tick ⟨3000000000, 3⟩ id position.2
    (∀ occasion ∈ overfull, occasion.Spares) ∧
      lastOutcome? fading none (crowded 100) overfull = some .keptPrevious ∧
      position.1.verdict?.map (·.status) = some .degraded ∧ cycle.1.1.allocation = .keptPrevious ∧
      cycle.1.2.verdict?.map (·.status) = some .degraded := by
  have spares : ∀ occasion ∈ overfull, occasion.Spares := by
    simp only [overfull, List.forall_mem_cons, Occasion.Spares, true_and, List.not_mem_nil, false_implies,
      implies_true, and_true]
    exact spares_update (α := Rat) (by decide) _
  have last : lastOutcome? fading none (crowded 100) overfull = some .keptPrevious := by decide +kernel
  obtain ⟨standing, cycles⟩ := ruled_of_run fading cramped (Health.new.register Health.monitorPart 0) 0
    (by decide +kernel) 0 100 overfull spares
  obtain ⟨_, acted, _⟩ := cycles .tick ⟨3000000000, 3⟩ id
  rw [← crowded, if_pos last] at standing
  rw [← crowded] at acted
  have kept : ((attendAll fading (crowded 100) overfull).1.cycle fading .tick ⟨3000000000, 3⟩ id
      (attendAll fading (crowded 100) overfull).2).1.1.allocation = .keptPrevious := by decide +kernel
  refine ⟨spares, last, standing, kept, (acted ?_).mpr kept⟩
  rw [kept]
  decide

/-- A pod starts, cannot be given limits, and is gone before the next cycle. -/
def deserting : List (Call Rat) :=
  [.enroll ⟨"trainer", 100⟩, .cycle .tick ⟨1000000000, 1⟩ id, .cycle .tick ⟨2000000000, 2⟩ id]

/-- Nothing runs any more, and the controller stays degraded. -/
theorem degraded_of_skipped :
    ¬ ∀ calls trigger moment arrival,
      let position := run fading (crowded 4) calls
      let cycle := position.1.cycle fading trigger moment arrival position.2
      cycle.1.2.verdict?.map (·.status) = some .degraded ↔ cycle.1.1.allocation = .keptPrevious := by
  intro always
  have same := always deserting .tick ⟨3000000000, 3⟩ id
  have skipped : ((run fading (crowded 4) deserting).1.cycle fading .tick ⟨3000000000, 3⟩ id
      (run fading (crowded 4) deserting).2).1.1.allocation = .skipped := by decide +kernel
  have degraded : ((run fading (crowded 4) deserting).1.cycle fading .tick ⟨3000000000, 3⟩ id
      (run fading (crowded 4) deserting).2).1.2.verdict?.map (·.status) = some .degraded := by decide +kernel
  have kept := same.mp degraded
  rw [skipped] at kept
  cases kept

end PodBudget.Monitor
