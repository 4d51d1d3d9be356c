import PodBudget.Node.Scripted
import PodBudget.Proofs.Monitor.Shadow
import PodBudget.Proofs.Rational

/-!
The same script played twice, once by a monitor that acts and once by one that only watches. Both see the same, and the
second leaves the node alone.
-/
namespace PodBudget.Monitor

variable {σ α : Type} [Number α]

open scoped List

/-- A call, or something that happens to the node. -/
inductive Cue (σ α : Type) where
  | call (call : Call α)
  | change (change : σ → σ)

def onCue (node : Node σ α) (position : Monitor α × Scene σ α) : Cue σ α → Monitor α × Scene σ α
  | .call call => perform node position call
  | .change change => (position.1, { position.2 with node := change position.2.node })

def play (node : Node σ α) (start : Monitor α × Scene σ α) (script : List (Cue σ α)) : Monitor α × Scene σ α :=
  script.foldl (onCue node) start

/-- The same cue, but that reports may come in in another order, and that a change need only be the same for who reads. -/
inductive Parallel (alike : σ → σ → Prop) : Cue σ α → Cue σ α → Prop
  | enroll (admission : Admission α) : Parallel alike (.call (.enroll admission)) (.call (.enroll admission))
  | cycle {trigger now arrival other} (gathered : ∀ samples, arrival samples <+~ samples)
      (perm : ∀ samples, other samples ~ arrival samples) :
    Parallel alike (.call (.cycle trigger now arrival)) (.call (.cycle trigger now other))
  | change {change other : σ → σ} (keeps : ∀ one two, alike one two → alike (change one) (other two)) :
    Parallel alike (.change change) (.change other)

structure Abreast (alike : σ → σ → Prop) (acting watch : Monitor α × Scene σ α) : Prop where
  shadows : Shadows acting.1 watch.1
  alike : alike acting.2.node watch.2.node
  passive : ∀ act ∈ watch.2.acts, act.IsPassive

section

variable {node : Node σ α} {alike : σ → σ → Prop} {acting watch : Monitor α × Scene σ α}

theorem Abreast.of_lockstep {β γ : Type} {relation : β × Monitor α → γ × Monitor α → Prop}
    {first : Dealing σ α (β × Monitor α)} {second : Dealing σ α (γ × Monitor α)} (abreast : Abreast alike acting watch)
    (lockstep : Dealing.Lockstep alike Act.IsPassive (fun out other => relation out other ∧ Shadows out.2 other.2)
      first second) : Abreast alike (standing (first acting.2)) (standing (second watch.2)) := by
  obtain ⟨⟨_, shadows⟩, still, acts, more, passive⟩ := lockstep acting.2 watch.2 abreast.alike
  refine ⟨shadows, still, ?_⟩
  intro act member
  change act ∈ (second watch.2).2.acts at member
  rw [more] at member
  exact (List.mem_append.mp member).elim (abreast.passive act) (passive act)

theorem Abreast.onCue (oblivious : node.Oblivious alike) (abreast : Abreast alike acting watch) {cue other : Cue σ α}
    (parallel : Parallel alike cue other) : Abreast alike (onCue node acting cue) (onCue node watch other) := by
  cases parallel with
  | enroll admission => exact abreast.of_lockstep (lockstep_enroll abreast.shadows admission)
  | cycle gathered perm => exact abreast.of_lockstep (lockstep_cycle oblivious abreast.shadows _ _ gathered perm)
  | change keeps => exact ⟨abreast.shadows, keeps _ _ abreast.alike, abreast.passive⟩

theorem Abreast.play (oblivious : node.Oblivious alike) (abreast : Abreast alike acting watch)
    {script others : List (Cue σ α)} (parallel : List.Forall₂ (Parallel alike) script others) :
    Abreast alike (play node acting script) (play node watch others) := by
  induction parallel generalizing acting watch with
  | nil => exact abreast
  | cons cue _ ih => exact ih (abreast.onCue oblivious cue)

end

structure Sight (α : Type) where
  status : PodStatus
  reservation : α
  usage : PerKind α
  average : PerKind α
  deriving DecidableEq

def sight (pod : Pod α) : Sight α := ⟨pod.status, pod.reservation, pod.usage, pod.average⟩

structure IsUntouched (pod : Pod α) : Prop where
  limits : pod.limits = .zero
  weights : pod.weights = .zero
  queue : pod.queue = 0
  updates : pod.updates = 0

structure Watches (acting watch : Monitor α × Scene σ α) : Prop where
  notReady : watch.1.notReady.map (fun _ pod => sight pod) = acting.1.notReady.map fun _ pod => sight pod
  running : watch.1.running.map (fun _ pod => sight pod) = acting.1.running.map fun _ pod => sight pod
  completed : watch.1.completed.map (fun _ pod => sight pod) = acting.1.completed.map fun _ pod => sight pod
  untouched : ∀ pod ∈ watch.1.notReady.values ++ watch.1.running.values ++ watch.1.completed.values, IsUntouched pod
  passive : ∀ act ∈ watch.2.acts, act.isWrite = false ∧ act.isRebalance = false

theorem sights_of_aligned {roster shadows : Roster (Pod α)} (aligned : roster.Aligned Pod.IsShadow shadows) :
    shadows.map (fun _ pod => sight pod) = roster.map fun _ pod => sight pod := by
  apply Roster.ext_get?
  intro name
  rw [Roster.get?_map, Roster.get?_map]
  have pair := aligned.rel_get? name
  generalize roster.get? name = pod at pair ⊢
  generalize shadows.get? name = shadow at pair ⊢
  cases pair with
  | none => rfl
  | some covers =>
    obtain ⟨last, rfl⟩ := covers
    rfl

theorem untouched_of_aligned {roster shadows : Roster (Pod α)} (aligned : roster.Aligned Pod.IsShadow shadows)
    {shadow : Pod α} (member : shadow ∈ shadows.values) : IsUntouched shadow := by
  obtain ⟨name, found⟩ := (Roster.mem_values_iff ..).mp member
  obtain ⟨pod, _, last, rfl⟩ := aligned.get? found
  exact ⟨rfl, rfl, rfl, rfl⟩

theorem Abreast.watches {alike : σ → σ → Prop} {acting watch : Monitor α × Scene σ α}
    (abreast : Abreast alike acting watch) : Watches acting watch := by
  obtain ⟨⟨_, notReady, running, completed⟩, _, passive⟩ := abreast
  refine ⟨sights_of_aligned notReady, sights_of_aligned running, sights_of_aligned completed, ?_, passive⟩
  intro pod member
  rcases List.mem_append.mp member with early | ended
  · rcases List.mem_append.mp early with waiting | working
    · exact untouched_of_aligned notReady waiting
    · exact untouched_of_aligned running working
  · exact untouched_of_aligned completed ended

/-- What is written to a node does not show in what it resolves and reads. Then a monitor that only watches has the same
records of the same pods, and completes and promotes the same pods, as one that acts, wherever a script has come; it has
written nothing, and made nothing of its records. -/
theorem watches_of_play (node : Node σ α) {alike : σ → σ → Prop} (oblivious : node.Oblivious alike)
    (config : MonitorConfig α) (health : Option Health) (now : Nat) {one other : σ} (same : alike one other)
    {script others : List (Cue σ α)} (parallel : List.Forall₂ (Parallel alike) script others) :
    let acting := play node (.new { config with monitoringOnly := false } health now, ⟨one, []⟩) script
    let watch := play node (.new { config with monitoringOnly := true } health now, ⟨other, []⟩) others
    Watches acting watch ∧
    (∀ admission, (watch.1.enroll admission watch.2).1.1 = (acting.1.enroll admission acting.2).1.1) ∧
    ∀ trigger moment arrival reordered, (∀ samples, arrival samples <+~ samples) →
      (∀ samples, reordered samples ~ arrival samples) →
      SameSight (acting.1.cycle node trigger moment arrival acting.2).1.1
        (watch.1.cycle node trigger moment reordered watch.2).1.1 := by
  intro acting watch
  have begins : Abreast alike (.new { config with monitoringOnly := false } health now, ⟨one, []⟩)
      (.new { config with monitoringOnly := true } health now, ⟨other, []⟩) :=
    ⟨⟨rfl, .nil, .nil, .nil⟩, same, nofun⟩
  have abreast : Abreast alike acting watch := begins.play oblivious parallel
  refine ⟨abreast.watches, ?_, ?_⟩
  · intro admission
    exact (lockstep_enroll abreast.shadows admission acting.2 watch.2 abreast.alike).1.1
  · intro trigger moment arrival reordered gathered perm
    exact (lockstep_cycle oblivious abreast.shadows trigger moment gathered perm acting.2 watch.2 abreast.alike).1.1

abbrev Remembering := Node.Scripted × List (Node.Handle × Rat)

def remembering : Node Remembering Rat where
  resolve state pod := ((Node.Scripted.node (α := Rat).resolve state.1 pod).1, state)
  read state handle := ((Node.Scripted.node (α := Rat).read state.1 handle).1, state)
  write state handle value := ((Node.Scripted.node.write state.1 handle value).1, state.1, state.2 ++ [(handle, value)])
  rebalance state := ((Node.Scripted.node (α := Rat).rebalance state.1).1, state)

theorem oblivious_remembering : remembering.Oblivious fun one other => other.1 = one.1 where
  resolve := by
    rintro ⟨one, _⟩ ⟨_, _⟩ rfl pod
    exact ⟨rfl, rfl⟩
  read := by
    rintro ⟨one, _⟩ ⟨_, _⟩ rfl handle
    exact ⟨rfl, rfl⟩
  write same _ _ := same
  rebalance same := same

def onScripted (change : Node.Scripted → Node.Scripted) : Cue Remembering Rat :=
  .change fun state => (change state.1, state.2)

/-- Two pods come up, one of them works for a second, and then each loses a counter. -/
def shortLife (arrival : List Sample → List Sample) : List (Cue Remembering Rat) :=
  [.call (.enroll ⟨"trainer", 400⟩), .call (.enroll ⟨"server", 50⟩), onScripted (·.markReady "trainer"),
    onScripted (·.markReady "server"), .call (.cycle .tick ⟨0, 0⟩ arrival), onScripted (·.advance 1000000000),
    onScripted (·.setCounter "/fake/cpu/trainer" 500000000), .call (.cycle .tick ⟨1000000000, 1⟩ arrival),
    onScripted (·.setReadFault "/fake/cpu/trainer" (some (.missing ""))),
    onScripted (·.setReadFault "/fake/gpu/server" (some (.missing "")))]

theorem parallel_shortLife {arrival : List Sample → List Sample} (perm : ∀ samples, arrival samples ~ samples) :
    List.Forall₂ (Parallel fun one other => other.1 = one.1) (shortLife id) (shortLife arrival) := by
  have cycle (trigger : Trigger) (now : Moment) : Parallel (σ := Remembering) (fun one other => other.1 = one.1)
      (.call (.cycle trigger now id : Call Rat)) (.call (.cycle trigger now arrival)) :=
    .cycle (fun _ => .refl _) perm
  have change (f : Node.Scripted → Node.Scripted) :
      Parallel (fun one other => other.1 = one.1) (onScripted f) (onScripted f) :=
    .change fun _ _ same => congrArg f same
  simp only [shortLife, List.forall₂_cons, Parallel.enroll, change, cycle, List.Forall₂.nil, and_self]

theorem watches_of_play_shortLife :
    let config : MonitorConfig Rat := ⟨"node", 1000000000, false, .default⟩
    let acting := play remembering (.new { config with monitoringOnly := false } none 0, ⟨(.new, []), []⟩) (shortLife id)
    let watch := play remembering (.new { config with monitoringOnly := true } none 0, ⟨(.new, []), []⟩)
      (shortLife List.reverse)
    let moment : Moment := ⟨1500000000, 1⟩
    let report := (acting.1.cycle remembering .pulse moment id acting.2).1.1
    let watched := (watch.1.cycle remembering .pulse moment List.reverse watch.2).1.1
    Watches acting watch ∧ SameSight report watched ∧
    report.completed = ["server", "trainer"] ∧ watched.completed = ["trainer", "server"] ∧
    (watch.1.running.get? "trainer").map (·.usage) = some ⟨50, 0⟩ ∧
    (acting.1.running.get? "trainer").map (·.limits) = some ⟨463330 / 7689, 10⟩ ∧
    acting.2.node.2.length = 8 ∧ watch.2.node.2 = [] := by
  obtain ⟨watches, _, cycles⟩ := watches_of_play remembering oblivious_remembering
    ⟨"node", 1000000000, false, .default⟩ none 0 rfl (parallel_shortLife List.reverse_perm)
  have sight := cycles .pulse ⟨1500000000, 1⟩ id List.reverse (fun _ => .refl _) List.reverse_perm
  exact ⟨watches, sight, by decide +kernel, by decide +kernel, by decide +kernel, by decide +kernel, by decide +kernel,
    by decide +kernel⟩

end PodBudget.Monitor
