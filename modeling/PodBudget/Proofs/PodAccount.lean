import PodBudget.Proofs.PodRecord

/-!
The account of a pod. Readings and writes leave it alone, and readings leave the limits alone too; so a pod is
charged, and its account stamped, where a pass or a promotion does so and nowhere else.
-/
namespace PodBudget

variable {σ α : Type}

/-- What a pod owns, and how far it is settled. -/
structure Account (α : Type) where
  reservation : α
  queue : α
  lastUpdate : Option Nat
  updates : Nat

theorem Resource.limit_recordSample [Number α] (resource : Resource α)
    (outcome : Except Node.ProbeFault Node.Reading) :
    (resource.recordSample outcome).2.limit = resource.limit := by
  obtain ⟨_, _, _, same⟩ := measured_recordSample resource outcome
  rw [same]

namespace Pod

def account (pod : Pod α) : Account α := ⟨pod.reservation, pod.queue, pod.lastUpdate, pod.updates⟩

theorem account_setResource (pod : Pod α) (kind : Kind) (resource : Resource α) :
    (pod.setResource kind resource).account = pod.account := by
  cases kind <;> rfl

theorem limits_setResource (pod : Pod α) (kind : Kind) (resource : Resource α)
    (same : resource.limit = (pod.resource kind).limit) : (pod.setResource kind resource).limits = pod.limits := by
  simp only [limits]
  congr 1
  funext other
  rw [resource_setResource]
  split
  · next equal => rw [same, equal]
  · rfl

structure Rests (before after : Pod α) : Prop where
  account : after.account = before.account
  limits : after.limits = before.limits

theorem Rests.refl (pod : Pod α) : Rests pod pod := ⟨rfl, rfl⟩

theorem Rests.trans {before middle after : Pod α} (first : Rests before middle) (second : Rests middle after) :
    Rests before after :=
  ⟨second.account.trans first.account, second.limits.trans first.limits⟩

theorem rests_setResource (pod : Pod α) (kind : Kind) (resource : Resource α)
    (same : resource.limit = (pod.resource kind).limit) : Rests pod (pod.setResource kind resource) :=
  ⟨account_setResource pod kind resource, limits_setResource pod kind resource same⟩

theorem yields_moveTo (pod : Pod α) (next : PodStatus) :
    Dealing.Yields (σ := σ) (Rests pod) (pod.moveTo next) := by
  unfold moveTo transition
  split
  · next moved forward =>
    split at forward
    · cases forward
      exact Dealing.yields_pure ⟨rfl, rfl⟩
    · cases forward
  · exact (Dealing.yields_true _).bind fun _ _ => Dealing.yields_pure (.refl pod)

variable [Number α]

theorem rests_recordEach (pod : Pod α) (readings : Readings) : Rests pod (pod.recordEach readings).2 := by
  induction readings generalizing pod with
  | nil => exact .refl pod
  | cons reading rest ih =>
    have one := rests_setResource pod reading.1 _ (Resource.limit_recordSample (pod.resource reading.1) reading.2)
    simp only [recordEach]
    split
    · exact one.trans (ih _)
    · exact one

theorem rests_recordSamples (pod : Pod α) (readings : Readings) : Rests pod (pod.recordSamples readings).2 := by
  unfold recordSamples
  split
  · exact .refl pod
  · exact rests_recordEach pod readings

theorem yields_seedLimits (node : Node σ α) (pod : Pod α) (limits : PerKind α) :
    Dealing.Yields (fun out => out.2.account = pod.account) (pod.seedLimits node limits) := by
  unfold seedLimits
  generalize ApplyReport.none = report
  induction Kind.all generalizing pod report with
  | nil => exact Dealing.yields_pure rfl
  | cons kind rest ih =>
    refine (Dealing.yields_true _).bind ?_
    rintro ⟨outcome, resource⟩ -
    have written := account_setResource pod kind resource
    exact written ▸ ih (pod.setResource kind resource) (report.record outcome)

theorem yields_sampleAll (node : Node σ α) (pod : Pod α) (kinds : List Kind) :
    Dealing.Yields (fun sampled => sampled.account = pod.account) (pod.sampleAll node kinds) := by
  induction kinds generalizing pod with
  | nil => exact Dealing.yields_pure rfl
  | cons kind rest ih =>
    refine (Dealing.yields_true _).bind ?_
    rintro ⟨present, resource⟩ -
    have read := account_setResource pod kind resource
    exact read ▸ ih (pod.setResource kind resource)

theorem yields_applyLimits (node : Node σ α) (pod : Pod α) (limits : PerKind α) (now : Nat) :
    Dealing.Yields
      (fun out => out.2.account = { pod.account with lastUpdate := some now, updates := pod.updates + 1 })
      (pod.applyLimits node limits now) := by
  refine (yields_seedLimits node pod limits).bind ?_
  rintro ⟨report, written⟩ same
  apply Dealing.yields_pure
  change written.account = pod.account at same
  simp only [account, stamp, Account.mk.injEq] at same ⊢
  obtain ⟨reservation, queue, _, updates⟩ := same
  exact ⟨reservation, queue, trivial, congrArg (· + 1) updates⟩

end Pod
end PodBudget
