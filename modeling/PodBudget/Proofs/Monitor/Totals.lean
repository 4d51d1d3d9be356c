import PodBudget.Proofs.Monitor.Verdict

/-!
What the totals of a controller stand for. Along every run they count its cycles, the passes that needed a joint solve
and those that did not get one, and the writes that the node refused, each exactly once.
-/
namespace PodBudget

def Allocation.neededSolve : Allocation → Bool
  | .joint _ | .keptPrevious => true
  | .skipped | .perPod => false

namespace Monitor

variable {σ α : Type}

/-- Of the passes only one that ended so has been counted, and no cycle; writes may have failed. -/
def Counts (outcome : Allocation) (before after : Monitor α) : Prop :=
  after.tally =
    { before.tally with
      jointSolves := before.tally.jointSolves + if outcome.neededSolve then 1 else 0
      jointFailures := before.tally.jointFailures + if outcome = .keptPrevious then 1 else 0
      writeErrors := after.tally.writeErrors }

theorem counts_refl (monitor : Monitor α) : Counts .skipped monitor monitor := rfl

theorem Counts.skipping {outcome : Allocation} {before middle after : Monitor α} (first : Counts outcome before middle)
    (second : Counts .skipped middle after) : Counts outcome before after := by
  unfold Counts at first second ⊢
  rw [second, first]
  rfl

theorem counts_completeAll (names : List String) (monitor : Monitor α) (scene : Scene σ α) :
    Counts .skipped monitor (monitor.completeAll names scene).1 := by
  induction names generalizing monitor scene with
  | nil => exact counts_refl monitor
  | cons name rest ih =>
    have closed : Counts .skipped monitor (monitor.complete name scene).1 := by
      rw [complete_eq]
      unfold closing
      split <;> exact counts_refl monitor
    exact closed.skipping (ih _ _)

variable [Number α]

theorem counts_onAllocation (node : Node σ α) (position : Monitor α × Scene σ α) (trigger : Trigger) (now : Moment)
    (arrival : List Sample → List Sample) :
    Counts .skipped position.1 (onAllocation node position trigger now arrival).1 := by
  have expired : Counts .skipped position.1 (position.1.expire trigger now.instant) := by
    rw [expire_eq]
    exact counts_refl position.1
  exact expired.skipping (counts_completeAll _ _ _)

theorem counts_allocate (node : Node σ α) (monitor : Monitor α) (remaining : α) (now : Moment) :
    Dealing.Yields (fun out => Counts out.1 monitor out.2) (monitor.allocate node remaining now) := by
  unfold allocate
  split
  · exact Dealing.yields_pure (counts_refl monitor)
  · dsimp only
    split
    · intro scene
      rfl
    · split
      · intro scene
        rfl
      · intro scene
        rfl

theorem counts_allocateIfActing (node : Node σ α) (monitor : Monitor α) (remaining : α) (now : Moment) :
    Dealing.Yields (fun out => Counts out.1 monitor out.2) (monitor.allocateIfActing node remaining now) := by
  unfold allocateIfActing
  split
  · exact Dealing.yields_pure (counts_refl monitor)
  · exact counts_allocate node monitor remaining now

theorem counts_promoteEach (node : Node σ α) (now : Nat) (names : List String) (monitor : Monitor α)
    (scene : Scene σ α) : Counts .skipped monitor (monitor.promoteEach node now names scene).1.2 := by
  induction names generalizing monitor scene with
  | nil => exact counts_refl monitor
  | cons name rest ih =>
    rw [promoteEach_cons]
    split
    · next paths pod _ _ =>
      have promoted : Counts .skipped monitor
          (monitor.promote node now name pod paths (node.askPaths name scene).2).1 := rfl
      exact promoted.skipping (ih _ _)
    · exact ih _ _

/-- What a stretch of a run with so many cycles, whose passes ended in these ways, has added to the totals. -/
structure Adds (cycles : Nat) (endings : List Allocation) (before after : Monitor α × Scene σ α) : Prop where
  cycles : after.1.tally.cycles = before.1.tally.cycles + cycles
  solves : after.1.tally.jointSolves = before.1.tally.jointSolves + endings.countP (·.neededSolve)
  failures : after.1.tally.jointFailures = before.1.tally.jointFailures + endings.count .keptPrevious
  errors : ∃ failed, after.1.tally.writeErrors = before.1.tally.writeErrors + failed ∧
    after.2.faults = before.2.faults + failed

omit [Number α] in
theorem Adds.refl (position : Monitor α × Scene σ α) : Adds 0 [] position position := ⟨rfl, rfl, rfl, 0, rfl, rfl⟩

omit [Number α] in
theorem Adds.trans {cycles more : Nat} {endings others : List Allocation} {before middle after : Monitor α × Scene σ α}
    (first : Adds cycles endings before middle) (second : Adds more others middle after) :
    Adds (cycles + more) (endings ++ others) before after := by
  obtain ⟨failed, counted, faults⟩ := first.errors
  obtain ⟨further, late, later⟩ := second.errors
  refine ⟨?_, ?_, ?_, failed + further, by omega, by omega⟩
  · rw [second.cycles, first.cycles, Nat.add_assoc]
  · rw [second.solves, first.solves, List.countP_append, Nat.add_assoc]
  · rw [second.failures, first.failures, List.count_append, Nat.add_assoc]

/-- A cycle counts itself and its pass, and every write of its pass and its promotions that fails. -/
theorem adds_cycle (node : Node σ α) (position : Monitor α × Scene σ α) (staged : position.1.Staged) (trigger : Trigger)
    (now : Moment) (arrival : List Sample → List Sample) :
    let cycle := position.1.cycle node trigger now arrival position.2
    Adds 1 [cycle.1.1.allocation] position (standing cycle) := by
  intro cycle
  let before := onAllocation node position trigger now arrival
  let remaining := position.1.remaining trigger now.instant
  let pass := before.1.allocateIfActing node remaining now before.2
  have placed := (sound_of_moves (moves_onAllocation node position trigger now arrival) staged).1
  obtain ⟨quiet, unheard⟩ := unheard_onAllocation node position trigger now arrival
  obtain ⟨failed, passed, judged⟩ := fails_allocateIfActing node before.1 placed remaining now before.2
  obtain ⟨seeds, promoted, later⟩ := fails_promoteEach node now.instant pass.1.2.notReady.names pass.1.2 pass.2
  have sampled := counts_onAllocation node position trigger now arrival
  have allocated : Counts pass.1.1 before.1 pass.1.2 := counts_allocateIfActing node before.1 remaining now before.2
  have raised := counts_promoteEach node now.instant pass.1.2.notReady.names pass.1.2 pass.2
  have counted := allocated.skipping raised
  have tally : cycle.1.2.tally =
      { position.1.tally with
        cycles := position.1.tally.cycles + 1
        jointSolves := position.1.tally.jointSolves + if cycle.1.1.allocation.neededSolve then 1 else 0
        jointFailures := position.1.tally.jointFailures + if cycle.1.1.allocation = .keptPrevious then 1 else 0
        writeErrors := cycle.1.2.tally.writeErrors } := by
    unfold Counts at counted sampled
    rw [sampled] at counted
    exact congrArg (fun tally : Tally => { tally with cycles := tally.cycles + 1 }) counted
  refine ⟨congrArg Tally.cycles tally, ?_, ?_, failed + seeds, ?_, ?_⟩
  · rw [List.countP_singleton]
    exact congrArg Tally.jointSolves tally
  · rw [List.count_singleton]
    refine (congrArg Tally.jointFailures tally).trans ?_
    simp only [beq_iff_eq]
  · calc cycle.1.2.tally.writeErrors
      _ = pass.1.2.tally.writeErrors + seeds := later.counted
      _ = position.1.tally.writeErrors + 0 + failed + seeds := by rw [judged.counted, unheard.counted]
      _ = _ := by omega
  · calc cycle.2.faults
      _ = pass.2.faults + seeds := promoted
      _ = position.2.faults + failed + seeds := by rw [passed, quiet]
      _ = _ := by omega

def Call.isCycle : Call α → Bool
  | .enroll _ => false
  | .cycle .. => true

def reports (node : Node σ α) : Monitor α × Scene σ α → List (Call α) → List CycleReport
  | _, [] => []
  | position, .enroll admission :: rest => reports node (perform node position (.enroll admission)) rest
  | position, .cycle trigger now arrival :: rest =>
    (position.1.cycle node trigger now arrival position.2).1.1 ::
      reports node (perform node position (.cycle trigger now arrival)) rest

theorem length_reports (node : Node σ α) (position : Monitor α × Scene σ α) (calls : List (Call α)) :
    (reports node position calls).length = calls.countP Call.isCycle := by
  induction calls generalizing position with
  | nil => rfl
  | cons call rest ih =>
    cases call with
    | enroll admission => exact ih _
    | cycle trigger now arrival =>
      rw [List.countP_cons_of_pos rfl, ← ih (perform node position (.cycle trigger now arrival))]
      rfl

theorem adds_enroll (node : Node σ α) (position : Monitor α × Scene σ α) (admission : Admission α) :
    Adds 0 [] position (perform node position (.enroll admission)) := by
  obtain ⟨monitor, scene⟩ := position
  by_cases live : monitor.isLive admission.name = true
  · rw [perform, enroll_of_live monitor admission scene live]
    exact .refl _
  · rw [perform, enroll_of_free monitor admission scene live]
    refine ⟨rfl, rfl, rfl, 0, rfl, ?_⟩
    simp [standing, Scene.faults, Act.isFailedWrite]

theorem adds_run (node : Node σ α) (position : Monitor α × Scene σ α) (staged : position.1.Staged)
    (calls : List (Call α)) :
    Adds (calls.countP Call.isCycle) ((reports node position calls).map (·.allocation)) position
      (run node position calls) := by
  induction calls generalizing position with
  | nil => exact .refl position
  | cons call rest ih =>
    cases call with
    | enroll admission =>
      have next := (enroll_sound staged admission position.2).1
      have added := (adds_enroll node position admission).trans (ih _ next)
      rwa [Nat.zero_add] at added
    | cycle trigger now arrival =>
      have next := (sound_of_moves (moves_cycle node position.1 position.2 trigger now arrival) staged).1
      rw [List.countP_cons_of_pos rfl, Nat.add_comm]
      exact (adds_cycle node position staged trigger now arrival).trans (ih _ next)

/-- Along every run the totals are those of the run: of its cycles, of the passes that needed a joint solve, of those
that did not get one, and of the writes that were answered with an error, in passes and promotions alike. -/
theorem tallied_of_run (node : Node σ α) (config : MonitorConfig α) (health : Option Health) (now : Nat) (state : σ)
    (calls : List (Call α)) :
    let start : Monitor α × Scene σ α := (.new config health now, ⟨state, []⟩)
    let last := run node start calls
    let endings := (reports node start calls).map (·.allocation)
    endings.length = calls.countP Call.isCycle ∧
      last.1.tally.cycles = calls.countP Call.isCycle ∧
      last.1.tally.jointSolves = endings.countP (·.neededSolve) ∧
      last.1.tally.jointFailures = endings.count .keptPrevious ∧
      last.1.tally.writeErrors = last.2.acts.countP Act.isFailedWrite := by
  intro start last endings
  have adds := adds_run node start (staged_new config health now) calls
  obtain ⟨failed, counted, faults⟩ := adds.errors
  refine ⟨?_, adds.cycles.trans (Nat.zero_add _), adds.solves.trans (Nat.zero_add _),
    adds.failures.trans (Nat.zero_add _), counted.trans faults.symm⟩
  rw [List.length_map, length_reports]

/-- Nothing can be written, and from the second cycle on the floors do not fit the node. -/
private def refused : List (Call Rat) :=
  [.enroll ⟨"trainer", 100⟩, .cycle .tick ⟨1000000000, 1⟩ id, .enroll ⟨"server", 50⟩,
    .cycle .pulse ⟨1500000000, 1⟩ id, .cycle .tick ⟨2000000000, 2⟩ id]

theorem tallied_of_run_refused :
    let start : Monitor Rat × Scene Unit Rat := (.new cramped none 0, ⟨(), []⟩)
    let tally := (run sealed start refused).1.tally
    (reports sealed start refused).map (·.allocation) = [.skipped, .keptPrevious, .keptPrevious] ∧
      tally.cycles = 3 ∧ tally.jointSolves = 2 ∧ tally.jointFailures = 2 ∧ tally.writeErrors = 4 := by
  obtain ⟨-, cycles, solves, failures, errors⟩ := tallied_of_run sealed cramped none 0 () refused
  refine ⟨by decide +kernel, cycles.trans rfl, solves.trans ?_, failures.trans ?_, errors.trans ?_⟩ <;> decide +kernel

end Monitor
end PodBudget
