import PodBudget.Proofs.Monitor.Acts
import PodBudget.Proofs.Written

/-!
What promotion does to the node. A waiting pod is asked for; where its directories exist its first limits are written,
unless the controller only watches, its counters are read for a base, and the start is reported.
-/
namespace PodBudget

variable {σ α : Type}

def Node.handlesAt (paths : PerKind String) : List Handle := Kind.all.map fun kind => ⟨kind, paths.get kind⟩

theorem Pod.HasPaths.handles {pod : Pod α} {paths : PerKind String} (known : pod.HasPaths paths) :
    pod.handles = Node.handlesAt paths := by
  have all : (fun kind => (pod.resource kind).handle?) = fun kind => some ⟨kind, paths.get kind⟩ := funext known
  rw [Pod.handles, all]
  exact congrFun List.filterMap_eq_map' _

namespace Monitor

variable [Number α]

def readsAt (paths : PerKind String) (cpu gpu : Except Node.ProbeFault Node.Reading) : List (Act α) :=
  [.read ⟨.cpu, paths.cpu⟩ cpu, .read ⟨.gpu, paths.gpu⟩ gpu]

def Seeds (config : MonitorConfig α) (paths : PerKind String) (acts : List (Act α)) : Prop :=
  if config.monitoringOnly then acts = []
  else ∃ cpu gpu, acts = cpu ++ gpu ∧ Attempt ⟨.cpu, paths.cpu⟩ config.policy.initialLimits.cpu cpu ∧
    Attempt ⟨.gpu, paths.gpu⟩ config.policy.initialLimits.gpu gpu

def Begins (config : MonitorConfig α) (name : String) (paths : PerKind String) (acts : List (Act α)) : Prop :=
  ∃ seeds cpu gpu limits, Seeds config paths seeds ∧
    acts = seeds ++ readsAt paths cpu gpu ++ [.logged (.podPromoted name limits)]

def Seeded (config : MonitorConfig α) (pod next : Pod α) (acts : List (Act α)) : Prop :=
  if config.monitoringOnly then next = pod ∧ acts = [] else pod.Sets config.policy.initialLimits next acts

theorem Seeded.sameHandles {config : MonitorConfig α} {pod next : Pod α} {acts : List (Act α)}
    (seeded : Seeded config pod next acts) : pod.SameHandles next := by
  unfold Seeded at seeded
  split at seeded
  · rw [seeded.1]
    exact .refl pod
  · exact seeded.sameHandles

theorem Seeded.seeds {config : MonitorConfig α} {pod next : Pod α} {paths : PerKind String} {acts : List (Act α)}
    (seeded : Seeded config pod next acts) (known : pod.HasPaths paths)
    (unwritten : ∀ kind, (pod.resource kind).written = false) : Seeds config paths acts := by
  unfold Seeded at seeded
  unfold Seeds
  split at seeded
  · next watching =>
    rw [if_pos watching]
    exact seeded.2
  · next acting =>
    rw [if_neg acting]
    obtain ⟨cpu, gpu, rfl, first, second⟩ := seeded
    refine ⟨cpu, gpu, rfl, ?_, ?_⟩
    · refine ((first.attempt_of_known (known .cpu)).resolve_left ?_).2
      rintro ⟨_, _, written⟩
      cases written.symm.trans (unwritten .cpu)
    · refine ((second.attempt_of_known (known .gpu)).resolve_left ?_).2
      rintro ⟨_, _, written⟩
      cases written.symm.trans (unwritten .gpu)

theorem performs_seed (node : Node σ α) (monitor : Monitor α) (pod : Pod α) :
    Dealing.Performs (fun out acts => Seeded monitor.config pod out.2 acts) (monitor.seed node pod) := by
  unfold seed Seeded
  split
  · exact Dealing.performs_pure ⟨rfl, rfl⟩
  · refine (pod.performs_seedLimits node monitor.config.policy.initialLimits).weaken ?_
    rintro ⟨_, _⟩ acts ⟨rfl, asks⟩
    exact asks.sets

/-- What becomes of an admitted pod and is done to the node when it is made ready to run. -/
def Prepared (config : MonitorConfig α) (admission : Admission α) (paths : PerKind String) (ready : Pod α)
    (acts : List (Act α)) : Prop :=
  ∃ seeded seeds cpu gpu, Seeded config ((admitted admission).attach paths) seeded seeds ∧
    seeded.SameGrants ready ∧ acts = seeds ++ readsAt paths cpu gpu

theorem hasPaths_attach (admission : Admission α) (paths : PerKind String) :
    ((admitted admission).attach paths).HasPaths paths := fun kind => by cases kind <;> rfl

theorem Prepared.hasPaths {config : MonitorConfig α} {admission : Admission α} {paths : PerKind String} {ready : Pod α}
    {acts : List (Act α)} (prepared : Prepared config admission paths ready acts) : ready.HasPaths paths := by
  obtain ⟨_, _, _, _, seeded, same, _⟩ := prepared
  exact ((hasPaths_attach admission paths).kept seeded.sameHandles).kept same.sameHandles

theorem performs_prepare (node : Node σ α) (monitor : Monitor α) (now : Nat) (admission : Admission α)
    (paths : PerKind String) :
    Dealing.Performs (fun out acts => Prepared monitor.config admission paths out.2 acts)
      (monitor.prepare node now (admitted admission) paths) := by
  refine (performs_seed node monitor _).bind ?_
  rintro ⟨report, next⟩ seeds seeded
  have still := (hasPaths_attach admission paths).kept seeded.sameHandles
  refine (next.performs_sampleAll node).bind ?_
  rintro sampled _ ⟨kept, outcomes, rfl⟩
  refine Dealing.performs_pure ⟨next, seeds, outcomes .cpu, outcomes .gpu, seeded, ?_, ?_⟩
  · exact kept.trans fun kind => by cases kind <;> rfl
  · rw [List.append_nil]
    simp only [Kind.all, List.filterMap_cons, List.filterMap_nil, still .cpu, still .gpu, Option.map_some]
    rfl

structure Promoted (admission : Admission α) (paths : PerKind String) (before after : Monitor α) (ready : Pod α)
    (acts : List (Act α)) : Prop where
  acts : ∃ early limits, Prepared before.config admission paths ready early ∧
    acts = early ++ [.logged (.podPromoted admission.name limits)]
  config : after.config = before.config
  completed : after.completed = before.completed
  notReady : after.notReady = before.notReady.erase admission.name
  running : after.running = before.running.insert admission.name ready

theorem Promoted.hasPaths {admission : Admission α} {paths : PerKind String} {before after : Monitor α} {ready : Pod α}
    {acts : List (Act α)} (promoted : Promoted admission paths before after ready acts) : ready.HasPaths paths := by
  obtain ⟨_, _, prepared, _⟩ := promoted.acts
  exact prepared.hasPaths

theorem Promoted.begins {admission : Admission α} {paths : PerKind String} {before after : Monitor α} {ready : Pod α}
    {acts : List (Act α)} (promoted : Promoted admission paths before after ready acts) :
    Begins before.config admission.name paths acts := by
  obtain ⟨_, limits, ⟨_, seeds, cpu, gpu, seeded, _, rfl⟩, rfl⟩ := promoted.acts
  have unwritten (kind : Kind) : (((admitted admission).attach paths).resource kind).written = false := by
    cases kind <;> rfl
  exact ⟨seeds, cpu, gpu, limits, seeded.seeds (hasPaths_attach admission paths) unwritten, rfl⟩

theorem performs_promote (node : Node σ α) (monitor : Monitor α) (now : Nat) (admission : Admission α)
    (paths : PerKind String) :
    Dealing.Performs (fun next acts => ∃ ready, Promoted admission paths monitor next ready acts)
      (monitor.promote node now admission.name (admitted admission) paths) := by
  have waiting := (ensures_prepare node monitor now (admitted admission) paths).yields
  refine ((performs_prepare node monitor now admission paths).yields waiting).bind ?_
  rintro ⟨report, made⟩ early ⟨⟨_, status, _⟩, ⟨seeded, seeds, cpu, gpu, seeding, same, rfl⟩⟩
  have stage : made.status = .notReady := status
  have forward : made.status.rank < PodStatus.running.rank := by
    rw [stage]
    decide
  refine (made.performs_moveTo .running).bind ?_
  rintro _ _ ⟨rfl, rfl⟩
  refine (Dealing.performs_log _).bind ?_
  rintro _ _ rfl
  refine Dealing.performs_pure
    ⟨made.movedTo .running, ⟨seeds ++ readsAt paths cpu gpu, (made.movedTo .running).limits, ?_, ?_⟩, rfl, rfl, rfl, rfl⟩
  · refine ⟨seeded, seeds, cpu, gpu, seeding, ?_, rfl⟩
    rw [Pod.movedTo, if_pos forward]
    exact same.trans fun kind => by cases kind <;> rfl
  · rw [Pod.refusals, if_pos forward, List.append_nil, List.nil_append]

theorem carries_promote (node : Node σ α) (monitor : Monitor α) (now : Nat) (admission : Admission α)
    (paths : PerKind String) :
    Carries
      (fun next deeds => ∃ ready acts, deeds = work admission.name acts ∧
        Promoted admission paths monitor next ready acts)
      (monitor.promote node now admission.name (admitted admission) paths) := by
  refine (carries_work admission.name (performs_promote node monitor now admission paths)).weaken ?_
  rintro next deeds ⟨acts, rfl, ready, promoted⟩
  exact ⟨ready, acts, rfl, promoted⟩

/-- A waiting pod is asked for, and started where its directories exist. -/
inductive Asked (config : MonitorConfig α) (before after : Monitor α) (name : String) : List (Act α) → Prop
  | waits (notReady : after.notReady.get? name = before.notReady.get? name)
      (running : after.running.get? name = before.running.get? name) :
    Asked config before after name [.resolved name none]
  | starts {paths : PerKind String} {ready : Pod α} {acts : List (Act α)} (begins : Begins config name paths acts)
      (known : ready.HasPaths paths) (notReady : after.notReady.get? name = none)
      (running : after.running.get? name = some ready) :
    Asked config before after name (.resolved name (some paths) :: acts)

/-- What becomes of some waiting pods; all others stay as they are. -/
structure Raised (names : List String) (before after : Monitor α) (deeds : List (Deed α)) : Prop where
  config : after.config = before.config
  completed : after.completed = before.completed
  apart : ∀ name ∉ names, after.notReady.get? name = before.notReady.get? name ∧
    after.running.get? name = before.running.get? name
  turns : Turns names (Asked before.config before after) deeds

omit [Number α] in
theorem Raised.cons {name : String} {names : List String} {before middle after : Monitor α} {acts : List (Act α)}
    {deeds : List (Deed α)} (fresh : name ∉ names) (config : middle.config = before.config)
    (completed : middle.completed = before.completed)
    (apart : ∀ other, other ≠ name → middle.notReady.get? other = before.notReady.get? other ∧
      middle.running.get? other = before.running.get? other)
    (asked : Asked before.config before middle name acts) (rest : Raised names middle after deeds) :
    Raised (name :: names) before after (work name acts ++ deeds) := by
  obtain ⟨waiting, working⟩ := rest.apart name fresh
  have turns : Turns names (Asked before.config before after) deeds := by
    refine ⟨rest.turns.owned, ?_, rest.turns.idle⟩
    intro other member
    have differs : other ≠ name := by
      rintro rfl
      exact fresh member
    obtain ⟨early, first⟩ := apart other differs
    have later := config ▸ rest.turns.taken other member
    generalize own other deeds = acts at later ⊢
    cases later with
    | waits notReady running => exact .waits (notReady.trans early) (running.trans first)
    | starts begins known notReady running => exact .starts begins known notReady running
  refine ⟨rest.config.trans config, rest.completed.trans completed, ?_, .cons fresh ?_ turns⟩
  · intro other absent
    obtain ⟨differs, absent⟩ := not_or.mp (mt List.mem_cons.mpr absent)
    obtain ⟨early, first⟩ := apart other differs
    obtain ⟨late, last⟩ := rest.apart other absent
    exact ⟨late.trans early, last.trans first⟩
  · cases asked with
    | waits notReady running => exact .waits (waiting.trans notReady) (working.trans running)
    | starts begins known notReady running =>
      exact .starts begins known (waiting.trans notReady) (working.trans running)

theorem carries_promoteEach (node : Node σ α) (now : Nat) (names : List String) (distinct : names.Nodup)
    (monitor : Monitor α)
    (waiting : ∀ name ∈ names, ∃ reservation, monitor.notReady.get? name = some (admitted ⟨name, reservation⟩)) :
    Carries (fun out deeds => Raised names monitor out.2 deeds) (monitor.promoteEach node now names) := by
  induction names generalizing monitor with
  | nil => exact carries_pure ⟨rfl, rfl, fun _ _ => ⟨rfl, rfl⟩, turns_nil⟩
  | cons name rest ih =>
    obtain ⟨fresh, distinct⟩ := List.nodup_cons.mp distinct
    obtain ⟨reservation, found⟩ := waiting name List.mem_cons_self
    have others := fun other member => waiting other (List.mem_cons_of_mem _ member)
    rw [promoteEach, found]
    refine (carries_work name (Dealing.performs_askPaths node name)).bind ?_
    rintro answer _ ⟨_, rfl, rfl⟩
    cases answer with
    | none =>
      refine (ih distinct monitor others).weaken ?_
      intro out deeds raised
      exact .cons fresh rfl rfl (fun _ _ => ⟨rfl, rfl⟩) (.waits rfl rfl) raised
    | some paths =>
      refine (carries_promote node monitor now ⟨name, reservation⟩ paths).bind ?_
      rintro next _ ⟨ready, acts, rfl, promoted⟩
      have notReady := promoted.notReady
      have running := promoted.running
      have apart (other : String) (differs : other ≠ name) :
          next.notReady.get? other = monitor.notReady.get? other ∧
            next.running.get? other = monitor.running.get? other := by
        rw [notReady, running, Roster.get?_erase, Roster.get?_insert, if_neg (Ne.symm differs),
          if_neg (Ne.symm differs)]
        exact ⟨rfl, rfl⟩
      -- Those still to be asked for are untouched by the start of this one.
      have still : ∀ other ∈ rest, ∃ reservation, next.notReady.get? other = some (admitted ⟨other, reservation⟩) := by
        intro other member
        have differs : other ≠ name := by
          rintro rfl
          exact fresh member
        rw [(apart other differs).1]
        exact others other member
      refine (ih distinct next still).bind ?_
      intro out deeds raised
      have asked : Asked monitor.config monitor next name (.resolved name (some paths) :: acts) := by
        refine .starts promoted.begins promoted.hasPaths ?_ ?_
        · rw [notReady, Roster.get?_erase, if_pos rfl]
        · rw [running, Roster.get?_insert, if_pos rfl]
      have whole := Raised.cons fresh promoted.config promoted.completed apart asked raised
      refine carries_pure ?_
      rw [List.append_nil, ← List.append_assoc]
      exact whole

end Monitor
end PodBudget
