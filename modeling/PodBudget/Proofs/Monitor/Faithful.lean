import PodBudget.Proofs.Monitor.Quiet
import PodBudget.Proofs.Monitor.Starts
import PodBudget.Proofs.Rational

/-!
What a monitor asked for and what the node enforces. A monitor writes for its running pods only, and to paths that the
node has named for them; so where no path belongs to two resources and no write has failed, every limit that was asked
for is in force.
-/
namespace PodBudget

variable {σ α : Type}

def Act.placed? : Act α → Option (String × PerKind String)
  | .resolved pod (some paths) => some (pod, paths)
  | _ => none

/-- As far as the node has been asked, no path belongs to two resources. -/
def Apart (acts : List (Act α)) : Prop :=
  ∀ one ∈ acts.filterMap Act.placed?, ∀ other ∈ acts.filterMap Act.placed?, ∀ kind second,
    one.2.get kind = other.2.get second → one.1 = other.1 ∧ kind = second

instance (acts : List (Act α)) : Decidable (Apart acts) :=
  inferInstanceAs (Decidable (∀ one ∈ acts.filterMap Act.placed?, ∀ other ∈ acts.filterMap Act.placed?, ∀ kind second,
    one.2.get kind = other.2.get second → one.1 = other.1 ∧ kind = second))

theorem mem_placed_append {acts : List (Act α)} (more : List (Act α)) {place : String × PerKind String}
    (member : place ∈ acts.filterMap Act.placed?) : place ∈ (acts ++ more).filterMap Act.placed? := by
  rw [List.filterMap_append]
  exact List.mem_append_left _ member

theorem Apart.left {acts more : List (Act α)} (apart : Apart (acts ++ more)) : Apart acts :=
  fun one first other second => apart one (mem_placed_append more first) other (mem_placed_append more second)

theorem Apart.kinds {acts : List (Act α)} (apart : Apart acts) {name : String} {paths : PerKind String}
    (placed : (name, paths) ∈ acts.filterMap Act.placed?) : paths.cpu ≠ paths.gpu := by
  intro same
  cases (apart _ placed _ placed .cpu .gpu same).2

theorem Apart.pods {acts : List (Act α)} (apart : Apart acts) {name other : String} {paths others : PerKind String}
    (placed : (name, paths) ∈ acts.filterMap Act.placed?) (elsewhere : (other, others) ∈ acts.filterMap Act.placed?)
    (differs : other ≠ name) (kind second : Kind) : others.get second ≠ paths.get kind := by
  intro same
  exact differs (apart _ elsewhere _ placed second kind same).1

namespace Monitor

/-- What others do is nothing to a path that they do not write to. -/
theorem lastWritten_own {name path : String} {deeds : List (Deed α)}
    (others : ∀ deed ∈ deeds, deed.pod ≠ some name → deed.act.leaves? path = none) :
    lastWritten path (own name deeds) = lastWritten path (deeds.map (·.act)) := by
  have same : (own name deeds).filterMap (Act.leaves? path) = (deeds.map (·.act)).filterMap (Act.leaves? path) := by
    rw [own, List.filterMap_map, List.filterMap_map, List.filterMap_filter]
    refine List.filterMap_congr ?_
    intro deed member
    split
    · rfl
    · next foreign => exact (others deed member (by simpa using foreign)).symm
  rw [lastWritten, same]
  rfl

variable [Number α]

section

variable {pod next : Pod α} {limits : PerKind α} {acts : List (Act α)} {paths : PerKind String}
  (takes : Takes pod limits next acts) (known : pod.HasPaths paths)
include takes known

theorem Takes.spares {path : String} (elsewhere : ∀ kind, paths.get kind ≠ path) : Spares path acts := by
  obtain ⟨writes, _, rfl, sets⟩ := takes
  exact (sets.spares known elsewhere).append (spares_of_unwritten (by simp [Act.written?]) path)

theorem Takes.enforced {before : List (Act α)} (apart : paths.cpu ≠ paths.gpu) (fine : Unfailing acts)
    (enforced : pod.Enforced before) :
    next.Enforced (before ++ acts) ∧ ∀ kind, (next.resource kind).written = true := by
  have keeps := takes.sameHandles
  obtain ⟨writes, _, rfl, sets⟩ := takes
  obtain ⟨held, written⟩ := sets.enforced known apart (unfailing_append.mp fine).1 enforced
  refine ⟨?_, written⟩
  rw [← List.append_assoc]
  refine held.spared (known.kept keeps) ?_
  exact fun kind => spares_of_unwritten (by simp [Act.written?]) _

end

/-- The waiting pods own nothing, the running ones stand where the node has placed them, and what was asked for is in
force, provided that nothing else stood in the way. -/
structure Faithful (config : MonitorConfig α) (position : Monitor α × Scene σ α) : Prop where
  config : position.1.config = config
  waiting : ∀ name pod, position.1.notReady.get? name = some pod → ∃ reservation, pod = admitted ⟨name, reservation⟩
  placed : ∀ name pod, position.1.running.get? name = some pod →
    ∃ paths, (name, paths) ∈ position.2.acts.filterMap Act.placed? ∧ pod.HasPaths paths
  enforced : Unfailing position.2.acts → Apart position.2.acts → ∀ name pod,
    position.1.running.get? name = some pod → pod.Enforced position.2.acts

theorem faithful_new (config : MonitorConfig α) (health : Option Health) (now : Nat) (state : σ) :
    Faithful config (.new config health now, ⟨state, []⟩) where
  config := rfl
  waiting name _ found := absurd ((Roster.get?_empty name).symm.trans found) nofun
  placed name _ found := absurd ((Roster.get?_empty name).symm.trans found) nofun
  enforced _ _ name _ found := absurd ((Roster.get?_empty name).symm.trans found) nofun

theorem Faithful.quiet {config : MonitorConfig α} {before after : Monitor α × Scene σ α}
    (faithful : Faithful config before) (quiet : Quiet before after) : Faithful config after := by
  obtain ⟨more, acts, unwritten⟩ := quiet.acts
  refine ⟨quiet.config.trans faithful.config, ?_, ?_, ?_⟩
  · intro name pod found
    exact (quiet.waiting name pod found).elim (faithful.waiting name pod) id
  · intro name pod found
    obtain ⟨old, present, same⟩ := quiet.running name pod found
    obtain ⟨paths, placed, known⟩ := faithful.placed name old present
    rw [acts]
    exact ⟨paths, mem_placed_append more placed, known.kept same.sameHandles⟩
  · intro fine apart name pod found
    obtain ⟨old, present, same⟩ := quiet.running name pod found
    rw [acts] at fine apart ⊢
    intro kind
    rw [same kind]
    have enforced := faithful.enforced (unfailing_append.mp fine).1 apart.left name old present
    exact (enforced kind).spared fun handle _ => spares_of_unwritten unwritten handle.path

section

variable {config : MonitorConfig α} {before after : Monitor α} {scene : Scene σ α} {limits : List (PerKind α)}
  {deeds : List (Deed α)} {now : Nat} (faithful : Faithful config (before, scene))
  (visited : Visited (before.charged now).entries limits after.running.entries deeds)
include faithful visited

theorem taken_of_visited {name : String} {next : Pod α} (found : after.running.get? name = some next) :
    ∃ pod paths given, (name, paths) ∈ scene.acts.filterMap Act.placed? ∧ pod.HasPaths paths ∧
      (Unfailing scene.acts → Apart scene.acts → pod.Enforced scene.acts) ∧ Takes pod given next (own name deeds) := by
  have listed : name ∈ (before.charged now).entries.map (·.1) := by
    rw [← visited.names]
    exact (Roster.mem_names_iff ..).mpr ⟨next, found⟩
  obtain ⟨pod, given, other, inside, outside, takes⟩ := visited.turns.taken name listed
  obtain rfl := Option.some.inj (found.symm.trans ((Roster.get?_eq_some_iff ..).mpr outside))
  have charged := (Roster.get?_eq_some_iff ..).mpr inside
  rw [Monitor.charged, Roster.get?_map] at charged
  obtain ⟨old, present, rfl⟩ := Option.map_eq_some_iff.mp charged
  have same := sameGrants_charge before.config.policy before.lastUpdate now old
  obtain ⟨paths, placed, known⟩ := faithful.placed name old present
  refine ⟨_, paths, given, placed, known.kept same.sameHandles, ?_, takes⟩
  intro fine apart kind
  rw [same kind]
  exact faithful.enforced fine apart name old present kind

theorem spares_of_visited (apart : Apart scene.acts) {name : String} {paths : PerKind String}
    (placed : (name, paths) ∈ scene.acts.filterMap Act.placed?) (kind : Kind) :
    ∀ deed ∈ deeds, deed.pod ≠ some name → deed.act.leaves? (paths.get kind) = none := by
  intro deed member foreign
  obtain ⟨other, owner⟩ := Option.ne_none_iff_exists'.mp (visited.turns.owned deed member)
  have inside := mem_own member owner
  have listed : other ∈ (before.charged now).entries.map (·.1) := by
    by_contra absent
    rw [visited.turns.idle other absent] at inside
    cases inside
  rw [← visited.names] at listed
  obtain ⟨next, found⟩ := (Roster.mem_names_iff ..).mp listed
  obtain ⟨pod, others, _, elsewhere, known, _, takes⟩ := taken_of_visited faithful visited found
  have differs : other ≠ name := fun same => foreign (same ▸ owner)
  exact takes.spares known (apart.pods placed elsewhere differs kind) deed.act inside

theorem faithful_of_visited {next : Scene σ α} {remarks : List (Deed α)} (remark : ∀ deed ∈ remarks, IsRemark deed)
    (settings : after.config = before.config) (notReady : after.notReady = before.notReady)
    (acts : next.acts = scene.acts ++ (remarks ++ deeds).map (·.act)) :
    Faithful config (after, next) ∧ (Unfailing next.acts → Apart next.acts → ∀ name pod,
      after.running.get? name = some pod → ∀ kind, (pod.resource kind).written = true) := by
  have each (fine : Unfailing next.acts) (apart : Apart next.acts) (name : String) (pod : Pod α)
      (found : after.running.get? name = some pod) :
      pod.Enforced next.acts ∧ ∀ kind, (pod.resource kind).written = true := by
    obtain ⟨_, paths, _, placed, known, held, takes⟩ := taken_of_visited faithful visited found
    rw [acts] at fine apart ⊢
    obtain ⟨early, late⟩ := unfailing_append.mp fine
    have mine : Unfailing (own name deeds) := by
      intro act member
      obtain ⟨deed, inside, rfl⟩ := List.mem_map.mp member
      exact late _ (List.mem_map_of_mem (List.mem_append_right _ (List.mem_filter.mp inside).1))
    obtain ⟨enforced, written⟩ := takes.enforced known (apart.left.kinds placed) mine (held early apart.left)
    refine ⟨?_, written⟩
    intro kind asked
    obtain ⟨handle, there, last⟩ := enforced kind asked
    refine ⟨handle, there, ?_⟩
    cases (known.kept takes.sameHandles kind).symm.trans there
    have foreign : ∀ deed ∈ remarks ++ deeds, deed.pod ≠ some name → deed.act.leaves? (paths.get kind) = none := by
      intro deed member other
      rcases List.mem_append.mp member with early | late
      · exact spares_of_unwritten (unwritten_of_remarks remark) _ _ (List.mem_map_of_mem early)
      · exact spares_of_visited faithful visited apart.left placed kind deed late other
    have silent : own name remarks = [] := own_of_unowned fun deed member => (remark deed member).1
    rw [lastWritten_append, ← lastWritten_own foreign, own_append, silent, List.nil_append, ← lastWritten_append]
    exact last
  refine ⟨⟨settings.trans faithful.config, ?_, ?_, fun fine apart name pod found => (each fine apart name pod found).1⟩,
    fun fine apart name pod found => (each fine apart name pod found).2⟩
  · intro name pod found
    exact faithful.waiting name pod (notReady ▸ found)
  · intro name pod found
    obtain ⟨_, paths, _, placed, known, _, takes⟩ := taken_of_visited faithful visited found
    rw [acts]
    exact ⟨paths, mem_placed_append _ placed, known.kept takes.sameHandles⟩

end

theorem Faithful.allocateIfActing {config : MonitorConfig α} {position : Monitor α × Scene σ α} (node : Node σ α)
    (remaining : α) (now : Moment) (faithful : Faithful config position) :
    let pass := position.1.allocateIfActing node remaining now position.2
    Faithful config (standing pass) ∧ (pass.1.1.isApplied = true → Unfailing pass.2.acts → Apart pass.2.acts →
      ∀ name pod, pass.1.2.running.get? name = some pod → ∀ kind, (pod.resource kind).written = true) := by
  intro pass
  obtain ⟨_, ⟨deeds, rfl, ends⟩, acts⟩ := (carries_allocateIfActing node position.1 remaining now).on position.2
  change Ends position.1 remaining now.instant pass.1.1 pass.1.2 deeds at ends
  change pass.2.acts = _ at acts
  unfold standing
  generalize pass.1.1 = outcome at ends ⊢
  generalize pass.1.2 = after at ends ⊢
  cases ends with
  | skipped =>
    refine ⟨faithful.quiet (.of_running rfl rfl rfl ⟨[], acts, nofun⟩), ?_⟩
    intro applied
    cases applied
  | applied decides remark visited settings notReady completed =>
    obtain ⟨still, written⟩ := faithful_of_visited faithful visited remark settings notReady acts
    exact ⟨still, fun _ => written⟩
  | kept remark stamped settings notReady completed =>
    refine ⟨faithful.quiet (.of_aligned settings notReady ?_ ⟨_, acts, unwritten_of_remarks remark⟩), ?_⟩
    · rw [stamped, charged, Roster.map_map]
      refine Roster.aligned_map _ position.1.running ?_
      intro name pod _
      exact (sameGrants_charge _ _ _ pod).trans fun kind => by cases kind <;> rfl
    · intro applied
      cases applied

section

variable {admission : Admission α} {paths : PerKind String} {before after : Monitor α} {ready : Pod α}
  {acts : List (Act α)} (promoted : Promoted admission paths before after ready acts)
include promoted

theorem Promoted.spares {path : String} (elsewhere : ∀ kind, paths.get kind ≠ path) : Spares path acts := by
  obtain ⟨_, limits, ⟨_, seeds, cpu, gpu, seeded, _, rfl⟩, rfl⟩ := promoted.acts
  have quiet : Spares path (readsAt paths cpu gpu ++ [.logged (.podPromoted admission.name limits)]) :=
    spares_of_unwritten (by simp [readsAt, Act.written?]) path
  rw [List.append_assoc]
  refine Spares.append ?_ quiet
  unfold Seeded at seeded
  split at seeded
  · rw [seeded.2]
    exact spares_of_unwritten (by simp) path
  · exact seeded.spares (hasPaths_attach admission paths) elsewhere

theorem Promoted.enforced (early : List (Act α)) (apart : paths.cpu ≠ paths.gpu) (fine : Unfailing acts) :
    ready.Enforced (early ++ acts) := by
  obtain ⟨_, limits, ⟨begun, seeds, cpu, gpu, seeded, same, rfl⟩, rfl⟩ := promoted.acts
  have unasked : ((admitted admission).attach paths).Enforced early := fun kind asked => by cases kind <;> cases asked
  have known := hasPaths_attach admission paths
  have seeding : begun.Enforced (early ++ seeds) := by
    unfold Seeded at seeded
    split at seeded
    · rw [seeded.1, seeded.2, List.append_nil]
      exact unasked
    · rw [List.append_assoc] at fine
      exact (seeded.enforced known apart (unfailing_append.mp fine).1 unasked).1
  rw [List.append_assoc, ← List.append_assoc]
  intro kind
  rw [same kind]
  exact (seeding kind).spared fun handle _ => spares_of_unwritten (by simp [readsAt, Act.written?]) handle.path

end

theorem Faithful.promote {config : MonitorConfig α} {monitor : Monitor α} {scene : Scene σ α} (node : Node σ α)
    (now : Nat) {name : String} {pod : Pod α} {paths : PerKind String} (faithful : Faithful config (monitor, scene))
    (waiting : monitor.notReady.get? name = some pod) (placed : (name, paths) ∈ scene.acts.filterMap Act.placed?) :
    Faithful config (monitor.promote node now name pod paths scene) := by
  obtain ⟨reservation, rfl⟩ := faithful.waiting name pod waiting
  obtain ⟨acts, ⟨ready, promoted⟩, does⟩ := (performs_promote node monitor now ⟨name, reservation⟩ paths).on scene
  -- Every running pod is either the one that starts, or one that has been running before.
  have each (other : String) (next : Pod α)
      (found : (monitor.promote node now name (admitted ⟨name, reservation⟩) paths scene).1.running.get? other =
        some next) : other = name ∧ next = ready ∨ other ≠ name ∧ monitor.running.get? other = some next := by
    rw [promoted.running, Roster.get?_insert] at found
    split at found
    · next same => exact .inl ⟨same.symm, (Option.some.inj found).symm⟩
    · next differs => exact .inr ⟨Ne.symm differs, found⟩
  refine ⟨promoted.config.trans faithful.config, ?_, ?_, ?_⟩
  · intro other next found
    rw [promoted.notReady, Roster.get?_erase] at found
    split at found
    · cases found
    · exact faithful.waiting other next found
  · intro other next found
    rw [does]
    rcases each other next found with ⟨rfl, rfl⟩ | ⟨_, found⟩
    · exact ⟨paths, mem_placed_append acts placed, promoted.hasPaths⟩
    · obtain ⟨others, elsewhere, known⟩ := faithful.placed other next found
      exact ⟨others, mem_placed_append acts elsewhere, known⟩
  · intro fine apart other next found
    rw [does] at fine apart ⊢
    obtain ⟨early, late⟩ := unfailing_append.mp fine
    rcases each other next found with ⟨rfl, rfl⟩ | ⟨differs, found⟩
    · exact promoted.enforced scene.acts (apart.left.kinds placed) late
    · obtain ⟨others, elsewhere, known⟩ := faithful.placed other next found
      have enforced := faithful.enforced early apart.left other next found
      refine enforced.spared known ?_
      exact fun kind => promoted.spares fun second => apart.left.pods elsewhere placed (Ne.symm differs) kind second

theorem Faithful.promoteEach {config : MonitorConfig α} {monitor : Monitor α} {scene : Scene σ α} (node : Node σ α)
    (now : Nat) (names : List String) (faithful : Faithful config (monitor, scene)) :
    Faithful config (standing (monitor.promoteEach node now names scene)) := by
  induction names generalizing monitor scene with
  | nil => exact faithful
  | cons name rest ih =>
    have asked : Faithful config (monitor, (node.askPaths name scene).2) :=
      faithful.quiet (.of_running rfl rfl rfl (Dealing.ensures_askPaths node name (fun _ => rfl) scene).2)
    rw [promoteEach_cons]
    split
    · next paths pod answer waiting =>
      have placed : (name, paths) ∈ (node.askPaths name scene).2.acts.filterMap Act.placed? := by
        have acts : (node.askPaths name scene).2.acts = scene.acts ++ [.resolved name (some paths)] := by
          rw [← answer]
          rfl
        simp [acts, Act.placed?]
      exact ih (asked.promote node now waiting placed)
    · exact ih asked

theorem Faithful.perform {config : MonitorConfig α} {position : Monitor α × Scene σ α} (node : Node σ α)
    (faithful : Faithful config position) (call : Call α) : Faithful config (perform node position call) := by
  cases call with
  | enroll admission => exact faithful.quiet (quiet_enroll position.1 position.2 admission)
  | cycle trigger now arrival =>
    let before := onAllocation node position trigger now arrival
    let remaining := position.1.remaining trigger now.instant
    let pass := before.1.allocateIfActing node remaining now before.2
    have begun : Faithful config before := faithful.quiet (quiet_onAllocation node position trigger now arrival)
    have allocated := (begun.allocateIfActing node remaining now).1
    have promoted := allocated.promoteEach node now.instant pass.1.2.notReady.names
    exact promoted.quiet (.of_running rfl rfl rfl (.refl _))

theorem Faithful.run {config : MonitorConfig α} {position : Monitor α × Scene σ α} (node : Node σ α)
    (faithful : Faithful config position) (calls : List (Call α)) : Faithful config (run node position calls) := by
  induction calls generalizing position with
  | nil => exact faithful
  | cons call rest ih => exact ih (faithful.perform node call)

end Monitor
end PodBudget
