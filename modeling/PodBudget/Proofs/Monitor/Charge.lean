import PodBudget.Proofs.Monitor.Run
import PodBudget.Proofs.PodAccount

/-!
What an allocation pass does to the accounts. It charges every running pod for the time since its account was last
settled, at the limits that were in force, and settles the account up to the instant of the pass, whatever becomes
of the limits.
-/
namespace PodBudget

variable {σ α : Type} [Number α]

def Allocation.isApplied : Allocation → Bool
  | .perPod => true
  | .joint _ => true
  | .skipped => false
  | .keptPrevious => false

/-- What a pass at `now` does to one pod. -/
structure Pod.Settles (cap : QueueCap) (now : Nat) (outcome : Allocation) (before after : Pod α) : Prop where
  reservation : after.reservation = before.reservation
  charged : ∃ since, before.lastUpdate = some since ∧
    after.queue =
      Tokens.settle before.queue before.reservation before.limits (Number.seconds (now - since)) cap
  settled : after.lastUpdate = some now
  updates : after.updates = before.updates + if outcome.isApplied then 1 else 0
  kept : outcome.isApplied = false → after.limits = before.limits
  acted : outcome ≠ .skipped

namespace Monitor

def charged (monitor : Monitor α) (now : Nat) : Roster (Pod α) :=
  monitor.running.map fun _ pod => charge monitor.config.policy monitor.lastUpdate now pod

def plans (monitor : Monitor α) (remaining : α) (now : Nat) : List (Plan α) :=
  (monitor.charged now).values.map fun pod => pod.plan remaining monitor.config.policy

def solution (monitor : Monitor α) (remaining : α) (now : Nat) : Except (Joint.JointError α) (List (PerKind α) × Nat) :=
  solveJointly monitor.config.policy remaining (monitor.charged now).values (monitor.plans remaining now)

/-- A pod that has been charged, and whose account is not stamped yet. -/
structure IsCharged (cap : QueueCap) (now : Nat) (before after : Pod α) : Prop where
  reservation : after.reservation = before.reservation
  charged : ∃ since, before.lastUpdate = some since ∧
    after.queue =
      Tokens.settle before.queue before.reservation before.limits (Number.seconds (now - since)) cap
  updates : after.updates = before.updates
  limits : after.limits = before.limits

theorem isCharged_charge (policy : Policy α) (fallback now : Nat) (pod : Pod α) (settled : pod.lastUpdate.isSome) :
    IsCharged policy.queueCap now pod (charge policy fallback now pod) := by
  obtain ⟨since, last⟩ := Option.isSome_iff_exists.mp settled
  refine ⟨rfl, ⟨since, last, ?_⟩, rfl, rfl⟩
  simp only [charge, Pod.updateWeights, Pod.settleQueue, last, Option.getD_some]

def IsApplied (now : Nat) (before after : Pod α) : Prop :=
  after.account = { before.account with lastUpdate := some now, updates := before.updates + 1 }

theorem yields_applyOne (node : Node σ α) (now : Nat) (joint : Bool) (pod : Pod α) (limits : PerKind α) :
    Dealing.Yields (fun out => IsApplied now pod out.2) (applyOne node now joint pod limits) := by
  refine (pod.yields_applyLimits node limits now).bind ?_
  rintro ⟨report, applied⟩ account
  exact (Dealing.yields_true _).bind fun _ _ => Dealing.yields_pure account

section

variable {policy : Policy α} {remaining : α} {pods : List (Pod α)} {plans : List (Plan α)} {limits : List (PerKind α)}
  {passes : Nat} (solved : solveJointly policy remaining pods plans = .ok (limits, passes))
include solved

theorem solve_of_solveJointly :
    ∃ solution, Joint.solve (List.zipWith (demand remaining) pods plans).toArray.toVector policy = .ok solution ∧
      limits = solution.limits.toList := by
  unfold solveJointly at solved
  dsimp only at solved
  cases answer : Joint.solve (List.zipWith (demand remaining) pods plans).toArray.toVector policy with
  | error _ =>
    rw [answer] at solved
    cases solved
  | ok solution =>
    rw [answer] at solved
    cases solved
    exact ⟨solution, rfl, rfl⟩

theorem length_of_solveJointly : limits.length = min pods.length plans.length := by
  obtain ⟨solution, _, rfl⟩ := solve_of_solveJointly solved
  simp only [Vector.length_toList, List.size_toArray, List.length_zipWith]

end

theorem yields_applyEach (node : Node σ α) (now : Nat) (joint : Bool) (running : Roster (Pod α))
    (limits : List (PerKind α)) (enough : running.size ≤ limits.length) :
    Dealing.Yields (fun out => running.Aligned (IsApplied now) out.2) (applyEach node now joint running limits) := by
  intro scene
  refine Roster.aligned_zipTraverse_of_size_le _ ?_ running limits (0, scene) enough
  intro _ pod limits state
  exact yields_applyOne node now joint pod limits state.2

theorem yields_enforce (node : Node σ α) (monitor : Monitor α) (now : Moment) (joint : Bool)
    (limits : List (PerKind α)) (enough : monitor.running.size ≤ limits.length) :
    Dealing.Yields
      (fun next => next.config = monitor.config ∧ monitor.running.Aligned (IsApplied now.instant) next.running)
      (monitor.enforce node now joint limits) := by
  refine (yields_applyEach node now.instant joint monitor.running limits enough).bind ?_
  rintro ⟨failed, running⟩ applied
  exact Dealing.yields_pure ⟨rfl, applied⟩

theorem yields_keepPrevious (monitor : Monitor α) (now : Moment) (pods : Nat) (error : Joint.JointError α) :
    Dealing.Yields (σ := σ)
      (fun next => next.config = monitor.config ∧
        next.running = monitor.running.map fun _ pod => pod.stamp now.instant)
      (monitor.keepPrevious now pods error) := by
  refine (Dealing.yields_true _).bind ?_
  intro _ _
  exact Dealing.yields_pure ⟨rfl, rfl⟩

section

variable {cap : QueueCap} {now : Nat} {outcome : Allocation} {before middle after : Pod α}
  (charge : IsCharged cap now before middle)
include charge

theorem settles_of_applied (applied : IsApplied now middle after) (counts : outcome.isApplied = true) :
    before.Settles cap now outcome after := by
  obtain ⟨since, last, paid⟩ := charge.charged
  simp only [IsApplied, Pod.account, Account.mk.injEq] at applied
  obtain ⟨same, kept, stamped, counted⟩ := applied
  refine ⟨same.trans charge.reservation, ⟨since, last, kept.trans paid⟩, stamped, ?_, ?_, ?_⟩
  · rw [counted, charge.updates, if_pos counts]
  · intro idle
    cases counts.symm.trans idle
  · rintro rfl
    cases counts

theorem settles_of_kept : before.Settles cap now .keptPrevious (middle.stamp now) :=
  ⟨charge.reservation, charge.charged, rfl, charge.updates, fun _ => charge.limits, by decide⟩

end

theorem yields_allocate (node : Node σ α) (monitor : Monitor α) (remaining : α) (now : Moment)
    (settled : ∀ name pod, monitor.running.get? name = some pod → pod.lastUpdate.isSome) :
    Dealing.Yields
      (fun out => out.2.config = monitor.config ∧
        monitor.running.Aligned (Pod.Settles monitor.config.policy.queueCap now.instant out.1) out.2.running)
      (monitor.allocate node remaining now) := by
  let policy := monitor.config.policy
  let running := monitor.running.map fun _ pod => charge policy monitor.lastUpdate now.instant pod
  have charged : monitor.running.Aligned (IsCharged policy.queueCap now.instant) running :=
    Roster.aligned_map _ monitor.running fun name pod found => isCharged_charge _ _ _ pod (settled name pod found)
  -- The three endings: limits of the plans, limits of the joint solution, and the limits in force.
  have enforced {outcome : Allocation} (counts : outcome.isApplied = true) {after : Roster (Pod α)}
      (applied : running.Aligned (IsApplied now.instant) after) :
      monitor.running.Aligned (Pod.Settles policy.queueCap now.instant outcome) after := by
    refine charged.comp ?_ applied
    intro before middle after charge written
    exact settles_of_applied charge written counts
  have kept : monitor.running.Aligned (Pod.Settles policy.queueCap now.instant .keptPrevious)
      (running.map fun _ pod => pod.stamp now.instant) := by
    refine charged.comp ?_ (Roster.aligned_map _ running fun _ _ _ => rfl)
    rintro before middle _ charge rfl
    exact settles_of_kept charge
  unfold allocate
  split
  · next vacant =>
    have none : monitor.running.entries = [] := List.isEmpty_iff.mp vacant
    refine Dealing.yields_pure ⟨rfl, ?_⟩
    rw [Roster.Aligned, none]
    exact .nil
  · dsimp only
    split
    · refine (yields_enforce node _ now false _ ?_).bind ?_
      · simp [Roster.size, Roster.values]
      · rintro next ⟨config, applied⟩
        exact Dealing.yields_pure ⟨config, enforced rfl applied⟩
    · split
      · next limits passes solved =>
        refine (Dealing.yields_true _).bind ?_
        intro _ _
        refine (yields_enforce node _ now true _ ?_).bind ?_
        · rw [length_of_solveJointly solved]
          simp [Monitor.count, Roster.size, Roster.values]
        · rintro next ⟨config, applied⟩
          exact Dealing.yields_pure ⟨config, enforced rfl applied⟩
      · refine (yields_keepPrevious _ now _ _).bind ?_
        rintro next ⟨config, stamped⟩
        exact Dealing.yields_pure ⟨config, stamped ▸ kept⟩

theorem yields_allocateIfActing (node : Node σ α) (monitor : Monitor α) (remaining : α) (now : Moment)
    (acting : monitor.config.monitoringOnly = false) (staged : monitor.Staged) :
    Dealing.Yields
      (fun out => out.2.config = monitor.config ∧
        monitor.running.Aligned (Pod.Settles monitor.config.policy.queueCap now.instant out.1) out.2.running)
      (monitor.allocateIfActing node remaining now) := by
  rw [allocateIfActing, acting]
  apply yields_allocate node monitor remaining now
  intro name pod found
  exact (staged.running name pod found).2.2.2

end Monitor
end PodBudget
