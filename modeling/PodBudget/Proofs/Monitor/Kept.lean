import PodBudget.Proofs.Monitor.Charge

/-!
Passes whose joint problem is not solved. By then every pod has been charged and its weights renewed; what a pod may
spend goes on from there, and what was last asked for stays in force.
-/
namespace PodBudget

variable {σ α : Type} [Number α]

structure Pod.GoesOn (cap : QueueCap) (now : Nat) (before after : Pod α) : Prop where
  keeps : before.Keeps after
  reservation : after.reservation = before.reservation
  limits : after.limits = before.limits
  written : ∀ kind, (after.resource kind).written = (before.resource kind).written
  updates : after.updates = before.updates
  charged : ∃ since, before.lastUpdate = some since ∧
    after.queue = Tokens.settle before.queue before.reservation before.limits (Number.seconds (now - since)) cap
  settled : after.lastUpdate = some now

theorem Pod.goesOn_charge (policy : Policy α) (fallback now : Nat) (pod : Pod α) (settled : pod.lastUpdate.isSome) :
    pod.GoesOn policy.queueCap now ((Monitor.charge policy fallback now pod).stamp now) := by
  have charge := Monitor.isCharged_charge policy fallback now pod settled
  have keeps := (Monitor.keeps_charge policy fallback now pod).trans (Pod.keeps_stamp _ now)
  refine ⟨keeps, charge.reservation, charge.limits, ?_, charge.updates, charge.charged, rfl⟩
  intro kind
  cases kind <;> rfl

namespace Monitor

theorem goesOn_charged (monitor : Monitor α) (now : Nat)
    (settled : ∀ name pod, monitor.running.get? name = some pod → pod.lastUpdate.isSome) :
    monitor.running.Aligned (Pod.GoesOn monitor.config.policy.queueCap now)
      ((monitor.charged now).map fun _ pod => pod.stamp now) := by
  rw [charged, Roster.map_map]
  refine Roster.aligned_map _ monitor.running ?_
  intro name pod found
  exact Pod.goesOn_charge _ _ _ pod (settled name pod found)

/-- A pass that solved nothing. The node is not dealt with, all records are kept, and the running ones are charged. -/
structure GoesOn (remaining : α) (now : Moment) (before after : Monitor α × Scene σ α) : Prop where
  unsolved : ∃ error, before.1.solution remaining now.instant = .error error ∧
    after.2 = { before.2 with
      acts := before.2.acts ++ [.logged (.jointFailed before.1.running.size error.message)] }
  config : after.1.config = before.1.config
  running : before.1.running.Aligned (Pod.GoesOn before.1.config.policy.queueCap now.instant) after.1.running
  notReady : after.1.notReady = before.1.notReady
  completed : after.1.completed = before.1.completed
  lastUpdate : after.1.lastUpdate = now.instant
  tally : after.1.tally = { before.1.tally with
    jointSolves := before.1.tally.jointSolves + 1
    jointFailures := before.1.tally.jointFailures + 1 }

theorem goesOn_of_allocate (node : Node σ α) (monitor : Monitor α) (remaining : α) (now : Moment) (scene : Scene σ α)
    (settled : ∀ name pod, monitor.running.get? name = some pod → pod.lastUpdate.isSome)
    (kept : (monitor.allocate node remaining now scene).1.1 = .keptPrevious) :
    GoesOn remaining now (monitor, scene) (standing (monitor.allocate node remaining now scene)) := by
  unfold allocate at kept ⊢
  split at kept
  · cases kept
  · next busy =>
    rw [if_neg busy]
    dsimp only at kept ⊢
    split at kept
    · cases kept
    · next exceeded =>
      rw [if_neg exceeded]
      cases solved : monitor.solution remaining now.instant with
      | ok answer =>
        unfold solution plans charged at solved
        rw [solved] at kept
        cases kept
      | error error =>
        have failed := solved
        unfold solution plans charged at failed
        rw [failed]
        have size : (monitor.charged now.instant).size = monitor.running.size := List.length_map _
        refine ⟨⟨error, solved, ?_⟩, rfl, ?_, rfl, rfl, rfl, rfl⟩
        · rw [← size]
          rfl
        · exact goesOn_charged monitor now.instant settled

/-- Where the allocation pass of a cycle begins. -/
def onAllocation (node : Node σ α) (position : Monitor α × Scene σ α) (trigger : Trigger) (now : Moment)
    (arrival : List Sample → List Sample) : Monitor α × Scene σ α :=
  let sampled := takeSamples node position.1.running.entries position.2
  standing ((position.1.expire trigger now.instant).takeIn (arrival sampled.1) sampled.2)

theorem moves_onAllocation (node : Node σ α) (position : Monitor α × Scene σ α) (trigger : Trigger) (now : Moment)
    (arrival : List Sample → List Sample) : Moves node position (onAllocation node position trigger now arrival) :=
  .head (.sample position.1.running.entries) (.head (.expire trigger now.instant) (moves_takeIn node _ _ _))

/-- Wherever a run stands, a cycle that ends without a solution has failed softly: its allocation pass, which the
promotions and the snapshot follow, neither writes nor notifies, and leaves every limit and record in place; every
running pod is charged at the limits it keeps, once, and both totals count the failure. -/
theorem goesOn_of_reached (node : Node σ α) (config : MonitorConfig α) (health : Option Health) (now : Nat)
    (state : σ) :
    let start : Monitor α × Scene σ α := (.new config health now, ⟨state, []⟩)
    ∀ position, Reached node start position → ∀ trigger moment arrival,
      let cycle := position.1.cycle node trigger moment arrival position.2
      let before := onAllocation node position trigger moment arrival
      let remaining := position.1.remaining trigger moment.instant
      let pass := before.1.allocateIfActing node remaining moment before.2
      let promotion := pass.1.2.promoteReady node moment.instant pass.2
      cycle.1.1.allocation = pass.1.1 ∧ cycle.1.2 = promotion.1.2.publish moment.unix ∧ cycle.2 = promotion.2 ∧
      (cycle.1.1.allocation = .keptPrevious → GoesOn remaining moment before (standing pass)) := by
  intro start position reached trigger moment arrival cycle before remaining pass promotion
  refine ⟨rfl, rfl, rfl, ?_⟩
  intro kept
  have moves : Moves node position before := moves_onAllocation node position trigger moment arrival
  have staged := ((reached.moves moves).sound (staged_new config health now)).1
  -- The pass begins at a position of the run, so every running pod has been settled before.
  change pass.1.1 = .keptPrevious at kept
  unfold pass allocateIfActing at kept ⊢
  split at kept
  · cases kept
  · next acting =>
    rw [if_neg acting]
    refine goesOn_of_allocate node before.1 remaining moment before.2 ?_ kept
    intro name pod found
    exact (staged.running name pod found).2.2.2

theorem goesOn_of_reached_floored :
    let config : MonitorConfig Rat := ⟨"node", 1000000000, false, { Policy.default with minLimit := 60 }⟩
    let start : Monitor Rat × Scene Unit Rat := (.new config none 0, ⟨(), []⟩)
    let position := run willing start
      [.enroll ⟨"trainer", 100⟩, .enroll ⟨"server", 50⟩, .cycle .tick ⟨1000000000, 1⟩ id]
    let before := onAllocation willing position .tick ⟨3000000000, 3⟩ id
    let remaining := position.1.remaining .tick 3000000000
    let pass := before.1.allocateIfActing willing remaining ⟨3000000000, 3⟩ before.2
    (position.1.cycle willing .tick ⟨3000000000, 3⟩ id position.2).1.1.allocation = .keptPrevious ∧
    GoesOn remaining ⟨3000000000, 3⟩ before (standing pass) ∧ pass.1.2.running.names = ["server", "trainer"] := by
  intro config start position before remaining pass
  have reached : Reached willing start position := .run _ .start
  have soft := goesOn_of_reached willing config none 0 () position reached .tick ⟨3000000000, 3⟩ id
  have kept : (position.1.cycle willing .tick ⟨3000000000, 3⟩ id position.2).1.1.allocation = .keptPrevious := by
    decide +kernel
  exact ⟨kept, soft.2.2.2 kept, by decide +kernel⟩

end Monitor
end PodBudget
