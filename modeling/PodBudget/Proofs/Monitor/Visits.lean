import PodBudget.Proofs.Monitor.Billing
import PodBudget.Proofs.Monitor.Sweep

/-!
The visits of an allocation pass, in full. What a visit asks of the node and what it makes of a record can be said before it
is paid, from the record and its limits alone.
-/
namespace PodBudget

variable {σ α : Type}

namespace Act

/-- What was asked for in an attempt at a limit, whatever came of it. -/
def attempt? : Act α → Option (Node.Handle × α)
  | .wrote handle value _ => some (handle, value)
  | _ => none

end Act

theorem Attempts.views {handle? : Option Node.Handle} {value : α} {acts : List (Act α)}
    (attempts : Attempts handle? value acts) :
    acts.filterMap Act.attempt? = (handle?.map (·, value)).toList ∧ acts.filterMap Act.event? = [] := by
  cases handle? with
  | none =>
    cases attempts
    exact ⟨rfl, rfl⟩
  | some handle =>
    have attempt : Attempt handle value acts := attempts
    cases attempt <;> exact ⟨rfl, rfl⟩

namespace Pod

variable [Number α]

def attempts (pod : Pod α) (limits : PerKind α) : List (Node.Handle × α) :=
  ((pod.cpu.target? limits.cpu).map (·, limits.cpu)).toList ++
    ((pod.gpu.target? limits.gpu).map (·, limits.gpu)).toList

theorem Asks.views {pod : Pod α} {limits : PerKind α} {acts : List (Act α)} (asks : pod.Asks limits acts) :
    acts.filterMap Act.attempt? = pod.attempts limits ∧ acts.filterMap Act.event? = [] := by
  obtain ⟨cpu, gpu, rfl, first, second⟩ := asks
  obtain ⟨attemptsCpu, silentCpu⟩ := first.views
  obtain ⟨attemptsGpu, silentGpu⟩ := second.views
  rw [List.filterMap_append, List.filterMap_append, attemptsCpu, attemptsGpu, silentCpu, silentGpu]
  exact ⟨rfl, rfl⟩

end Pod

namespace Monitor

variable [Number α]

theorem Visit.views {joint : Bool} {pod : Pod α} {limits : PerKind α} {acts : List (Act α)}
    (visit : Visit joint pod limits acts) :
    acts.filterMap Act.attempt? = pod.attempts limits ∧
      acts.filterMap Act.event? = [.limitsApplied pod.name limits pod.queue joint] := by
  obtain ⟨writes, rfl, asks⟩ := visit
  obtain ⟨attempts, silent⟩ := asks.views
  rw [List.filterMap_append, List.filterMap_append, attempts, silent]
  exact ⟨List.append_nil _, rfl⟩

theorem Visits.turns {joint : Bool} {entries : List (String × Pod α)} {limits : List (PerKind α)}
    {deeds : List (Deed α)} (visits : Visits joint entries limits deeds) :
    Turns (entries.map (·.1))
      (fun name acts => ∃ pod limit, ((name, pod), limit) ∈ entries.zip limits ∧ Visit joint pod limit acts) deeds := by
  induction visits with
  | done _ => exact turns_nil
  | visit fresh visit _ ih =>
    refine .cons fresh ⟨_, _, List.mem_cons_self, visit⟩ (ih.mono ?_)
    rintro name acts ⟨pod, limit, member, visited⟩
    exact ⟨pod, limit, List.mem_cons_of_mem _ member, visited⟩

def planned (policy : Policy α) (remaining : α) (fallback now : Nat) (pod : Pod α) : Pod α :=
  let charged := charge policy fallback now pod
  charged.applied (charged.plan remaining policy).limits now

theorem charge_of_settled (policy : Policy α) (fallback other now : Nat) {pod : Pod α} (settled : pod.lastUpdate.isSome) :
    charge policy fallback now pod = charge policy other now pod := by
  obtain ⟨since, last⟩ := Option.isSome_iff_exists.mp settled
  simp only [charge, last, Option.getD_some]

section

variable {before after : Monitor α} {remaining : α} {now : Nat} {deeds : List (Deed α)}
  (closes : Closes before remaining now .perPod after deeds)
include closes

theorem Closes.running_of_perPod :
    after.running = before.running.map fun _ pod =>
      planned before.config.policy remaining before.lastUpdate now pod := by
  cases closes with
  | applied decides _ _ running _ _ _ =>
    cases decides with
    | perPod _ =>
      apply Roster.ext_entries
      rw [running]
      simp only [appliedEach, plans, charged, Roster.values, Roster.map, List.map_map, List.zipWith_map,
        List.zipWith_self]
      rfl

theorem Closes.visit_of_perPod (name : String) :
    own name deeds = [] ∧ before.running.get? name = none ∨
      ∃ pod, before.running.get? name = some pod ∧
        let charged := charge before.config.policy before.lastUpdate now pod
        Visit false charged (charged.plan remaining before.config.policy).limits (own name deeds) := by
  cases closes with
  | applied decides remark visits running _ _ _ =>
    cases decides with
    | perPod _ =>
      have turns := visits.turns
      rw [own_append, own_of_unowned fun deed member => (remark deed member).1, List.nil_append]
      cases found : before.running.get? name with
      | none =>
        refine .inl ⟨turns.idle name ?_, rfl⟩
        have absent := (Roster.get?_eq_none_iff ..).mp found
        rwa [← names_charged] at absent
      | some pod =>
        have listed : name ∈ (before.charged now).names := by
          rw [names_charged]
          exact (Roster.mem_names_iff ..).mpr ⟨pod, found⟩
        obtain ⟨other, limit, member, visit⟩ := turns.taken name listed
        -- The limits stand beside the records that they were planned for.
        simp only [plans, Roster.values, List.map_map, List.zip_eq_zipWith, List.zipWith_map_right, List.zipWith_self,
          List.mem_map] at member
        obtain ⟨entry, present, same⟩ := member
        obtain ⟨rfl, rfl⟩ := Prod.mk.inj same
        have charged := (get?_charged found).symm.trans ((Roster.get?_eq_some_iff ..).mpr present)
        obtain rfl := Option.some.inj charged
        exact .inr ⟨pod, rfl, visit⟩

end

/-- How a pass ends, and the limits that it comes to: none where nothing runs or the joint problem has no solution. -/
def decision (monitor : Monitor α) (remaining : α) (now : Nat) : Allocation × List (PerKind α) :=
  let limits := (monitor.plans remaining now).map (·.limits)
  if monitor.running.isEmpty then (.skipped, [])
  else if (Joint.violatedCeilings limits monitor.config.policy).isEmpty then (.perPod, limits)
  else
    match monitor.solution remaining now with
    | .ok (limits, passes) => (.joint passes, limits)
    | .error _ => (.keptPrevious, [])

theorem decision_allocate (node : Node σ α) (monitor : Monitor α) (remaining : α) (now : Moment) :
    Dealing.Yields (fun out => out.1 = (monitor.decision remaining now.instant).1)
      (monitor.allocate node remaining now) := by
  unfold allocate
  split
  · next vacant =>
    have decided : (monitor.decision remaining now.instant).1 = .skipped := by rw [decision, if_pos vacant]
    exact Dealing.yields_pure decided.symm
  · next busy =>
    dsimp only
    split
    · next fits =>
      have decided : (monitor.decision remaining now.instant).1 = .perPod := by
        rw [decision, if_neg busy, if_pos]
        exact fits
      exact (Dealing.yields_true _).bind fun _ _ => Dealing.yields_pure decided.symm
    · next exceeded =>
      have joint : monitor.decision remaining now.instant =
          match monitor.solution remaining now.instant with
          | .ok (limits, passes) => (.joint passes, limits)
          | .error _ => (.keptPrevious, []) := by
        rw [decision, if_neg busy, if_neg]
        exact exceeded
      split
      · next limits passes solved =>
        have solved : monitor.solution remaining now.instant = .ok (limits, passes) := solved
        rw [solved] at joint
        refine (Dealing.yields_true _).bind fun _ _ => (Dealing.yields_true _).bind fun _ _ => Dealing.yields_pure ?_
        rw [joint]
      · next error unsolved =>
        have unsolved : monitor.solution remaining now.instant = .error error := unsolved
        rw [unsolved] at joint
        refine (Dealing.yields_true _).bind fun _ _ => Dealing.yields_pure ?_
        rw [joint]

theorem Decides.limits_eq {monitor : Monitor α} {remaining : α} {now : Nat} {outcome : Allocation}
    {limits : List (PerKind α)} (decides : Decides monitor remaining now outcome limits)
    (decided : outcome = (monitor.decision remaining now).1) : limits = (monitor.decision remaining now).2 := by
  unfold decision at decided ⊢
  dsimp only at decided ⊢
  cases decides with
  | perPod fits =>
    rw [List.isEmpty_iff.mpr fits] at decided ⊢
    split at decided
    · cases decided
    · next busy => rw [if_neg busy, if_pos rfl]
  | joint solved =>
    rw [solved] at decided ⊢
    split at decided
    · cases decided
    · next busy =>
      rw [if_neg busy]
      split at decided
      · cases decided
      · next exceeded => rw [if_neg exceeded]

end Monitor
end PodBudget
