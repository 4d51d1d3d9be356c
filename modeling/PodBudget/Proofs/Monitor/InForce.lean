import PodBudget.Proofs.Monitor.Ceilings
import PodBudget.Proofs.Monitor.Faithful

/-!
The limits that the node enforces after a pass. A cached limit is one that was asked for, and a failed write is not
repeated; so the floors and the ceilings hold of what is cached whatever fails, and of the node itself where nothing has.
-/
namespace PodBudget.Monitor

variable {σ : Type}

/-- A pass has come to limits of its own: the floors and the capacities are kept, whatever has failed; and where nothing
has, and no path belongs to two resources, these are the limits that were last written. -/
structure Enforces (policy : Policy ℚ) (slack : ℚ) (before after : Monitor ℚ) (acts : List (Act ℚ)) : Prop where
  names : after.running.names = before.running.names
  floor : ∀ name pod, after.running.get? name = some pod → ∀ kind, policy.minLimit ≤ pod.limits.get kind
  ceiling : ∀ kind, (after.running.values.map (·.limits.get kind)).sum ≤ policy.capacity.get kind + slack
  inForce : Unfailing acts → Apart acts → ∀ name pod, after.running.get? name = some pod →
    ∃ paths, (name, paths) ∈ acts.filterMap Act.placed? ∧ pod.HasPaths paths ∧
      ∀ kind, lastWritten (paths.get kind) acts = some (pod.limits.get kind)

theorem enforces_of_faithful {config : MonitorConfig ℚ} {position : Monitor ℚ × Scene σ ℚ}
    (faithful : Faithful config position) (node : Node σ ℚ) (remaining : ℚ) (now : Moment) :
    let pass := position.1.allocateIfActing node remaining now position.2
    pass.1.1.isApplied = true → Enforces config.policy pass.1.1.slack position.1 pass.1.2 pass.2.acts := by
  intro pass applied
  obtain ⟨still, written⟩ := faithful.allocateIfActing node remaining now
  obtain ⟨_, ⟨deeds, rfl, ends⟩, acts⟩ := (carries_allocateIfActing node position.1 remaining now).on position.2
  have names := ends.allocated.names
  -- The limits of the records are the limits that the pass came to, in the order of the names.
  obtain ⟨limits, fits, same⟩ : ∃ limits, Fits position.1.config.policy pass.1.1.slack limits ∧
      pass.1.2.running.values.map (·.limits) = limits := by
    change Ends position.1 remaining now.instant pass.1.1 pass.1.2 deeds at ends
    generalize pass.1.1 = outcome at ends applied ⊢
    generalize pass.1.2 = after at ends ⊢
    cases ends with
    | skipped => cases applied
    | kept _ _ _ _ _ => cases applied
    | applied decides _ visited _ _ _ =>
      refine ⟨_, fits_of_decides decides, ?_⟩
      rw [Roster.values, List.map_map]
      exact visited.limits decides.length
  rw [faithful.config] at fits
  refine ⟨names, ?_, ?_, ?_⟩
  · intro name pod found kind
    refine fits.floor pod.limits ?_ kind
    rw [← same]
    exact List.mem_map_of_mem ((Roster.mem_values_iff ..).mpr ⟨name, found⟩)
  · intro kind
    have sums := fits.ceiling kind
    rw [← same, List.map_map] at sums
    exact sums
  · intro fine apart name pod found
    obtain ⟨paths, placed, known⟩ := still.placed name pod found
    refine ⟨paths, placed, known, ?_⟩
    intro kind
    have enforced := still.enforced fine apart name pod found kind
    obtain ⟨handle, there, last⟩ := enforced (written applied fine apart name pod found kind)
    cases (known kind).symm.trans there
    refine last.trans ?_
    cases kind <;> rfl

/-- Wherever a run stands, a cycle that ends with limits of its own leaves every pod that was running at its pass on or
above the floors and the node within its capacities, whatever writes have failed. Where none has failed in the whole run
and no path belongs to two resources, the node enforces these limits. -/
theorem enforces_of_run (node : Node σ ℚ) (config : MonitorConfig ℚ) (health : Option Health) (now : Nat) (state : σ)
    (calls : List (Call ℚ)) (trigger : Trigger) (moment : Moment) (arrival : List Sample → List Sample) :
    let start : Monitor ℚ × Scene σ ℚ := (.new config health now, ⟨state, []⟩)
    let position := run node start calls
    let cycle := position.1.cycle node trigger moment arrival position.2
    let before := onAllocation node position trigger moment arrival
    let pass := before.1.allocateIfActing node (position.1.remaining trigger moment.instant) moment before.2
    let promotion := pass.1.2.promoteReady node moment.instant pass.2
    cycle.1.1.allocation = pass.1.1 ∧ cycle.1.2 = promotion.1.2.publish moment.unix ∧ cycle.2 = promotion.2 ∧
    (cycle.1.1.allocation = .perPod → Enforces config.policy 0 before.1 pass.1.2 pass.2.acts) ∧
    ∀ passes, cycle.1.1.allocation = .joint passes →
      Enforces config.policy Joint.capacityTolerance before.1 pass.1.2 pass.2.acts := by
  intro start position cycle before pass promotion
  have faithful : Faithful config position := (faithful_new config health now state).run node calls
  have begun : Faithful config before := faithful.quiet (quiet_onAllocation node position trigger moment arrival)
  have enforces : pass.1.1.isApplied = true →
      Enforces config.policy pass.1.1.slack before.1 pass.1.2 pass.2.acts :=
    enforces_of_faithful begun node (position.1.remaining trigger moment.instant) moment
  refine ⟨rfl, rfl, rfl, ?_, ?_⟩
  · intro outcome
    have applied : pass.1.1 = .perPod := outcome
    rw [applied] at enforces
    exact enforces rfl
  · intro passes outcome
    have applied : pass.1.1 = .joint passes := outcome
    rw [applied] at enforces
    exact enforces rfl

def tidy : Node Unit Rat := { willing with resolve := fun _ pod => (some ⟨"cpu/" ++ pod, "gpu/" ++ pod⟩, ()) }

theorem enforces_of_run_joint :
    let config : MonitorConfig Rat := ⟨"node", 1000000000, false, .default⟩
    let start : Monitor Rat × Scene Unit Rat := (.new config none 0, ⟨(), []⟩)
    let position := run tidy start
      [.enroll ⟨"trainer", 10000⟩, .enroll ⟨"server", 9000⟩, .cycle .tick ⟨1000000000, 1⟩ id]
    let moment : Moment := ⟨2000000000, 2⟩
    let before := onAllocation tidy position .tick moment id
    let pass := before.1.allocateIfActing tidy (position.1.remaining .tick moment.instant) moment before.2
    (position.1.cycle tidy .tick moment id position.2).1.1.allocation = .joint 3 ∧
    Enforces config.policy Joint.capacityTolerance before.1 pass.1.2 pass.2.acts ∧
    Unfailing pass.2.acts ∧ Apart pass.2.acts ∧ pass.1.2.running.names = ["server", "trainer"] ∧
    lastWritten "gpu/server" pass.2.acts = some (275 / 6) ∧ lastWritten "gpu/trainer" pass.2.acts = some (325 / 6) := by
  obtain ⟨_, _, _, _, joint⟩ := enforces_of_run tidy ⟨"node", 1000000000, false, .default⟩ none 0 ()
    [.enroll ⟨"trainer", 10000⟩, .enroll ⟨"server", 9000⟩, .cycle .tick ⟨1000000000, 1⟩ id] .tick ⟨2000000000, 2⟩ id
  have enforces := joint 3 (by decide +kernel)
  exact ⟨by decide +kernel, enforces, by decide +kernel, by decide +kernel, by decide +kernel, by decide +kernel,
    by decide +kernel⟩

end PodBudget.Monitor
