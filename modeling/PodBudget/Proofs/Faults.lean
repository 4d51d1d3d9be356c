import PodBudget.Proofs.PodActs

/-! Writes that fail, and the reports that count them. A pod whose directories are known has every fault reported. -/
namespace PodBudget

variable {σ α β γ : Type}

def Scene.faults (scene : Scene σ α) : Nat := scene.acts.countP Act.isFailedWrite

namespace Dealing

/-- Whatever the node answers, `spec` holds of the result and of how many writes fail on the way. -/
def Fails (spec : β → Nat → Prop) (dealing : Dealing σ α β) : Prop :=
  ∀ scene, ∃ count, (dealing scene).2.faults = scene.faults + count ∧ spec (dealing scene).1 count

variable {spec : β → Nat → Prop}

theorem fails_pure {value : β} (holds : spec value 0) : Fails spec (pure value : Dealing σ α β) :=
  fun _ => ⟨0, rfl, holds⟩

theorem Fails.bind {first : Dealing σ α γ} {next : γ → Dealing σ α β} {middle : γ → Nat → Prop}
    (early : Fails middle first)
    (late : ∀ value count, middle value count → Fails (fun result more => spec result (count + more)) (next value)) :
    Fails spec (first >>= next) := by
  intro scene
  obtain ⟨count, begins, holds⟩ := early scene
  obtain ⟨more, ends, meets⟩ := late _ count holds (first scene).2
  refine ⟨count + more, ?_, meets⟩
  change (next (first scene).1 (first scene).2).2.faults = _
  omega

theorem Fails.weaken {dealing : Dealing σ α β} {weaker : β → Nat → Prop} (strong : Fails spec dealing)
    (implies : ∀ result count, spec result count → weaker result count) : Fails weaker dealing := by
  intro scene
  obtain ⟨count, counted, holds⟩ := strong scene
  exact ⟨count, counted, implies _ count holds⟩

theorem Fails.silently {first : Dealing σ α γ} {next : γ → Dealing σ α β}
    (early : Fails (fun _ count => count = 0) first) (late : ∀ value, Fails spec (next value)) :
    Fails spec (first >>= next) := by
  refine early.bind ?_
  rintro value _ rfl
  simpa using late value

theorem Performs.fails {dealing : Dealing σ α β} {acting : β → List (Act α) → Prop}
    (performs : Performs acting dealing)
    (counts : ∀ result acts, acting result acts → spec result (acts.countP Act.isFailedWrite)) :
    Fails spec dealing := by
  intro scene
  obtain ⟨acts, holds, more⟩ := performs.on scene
  refine ⟨acts.countP Act.isFailedWrite, ?_, counts _ acts holds⟩
  rw [Scene.faults, more, List.countP_append]
  rfl

theorem fails_askPaths (node : Node σ α) (pod : String) : Fails (fun _ count => count = 0) (node.askPaths pod) := by
  refine (performs_askPaths node pod).fails ?_
  rintro _ _ rfl
  rfl

theorem fails_readCounter (node : Node σ α) (handle : Node.Handle) :
    Fails (fun _ count => count = 0) (node.readCounter handle) := by
  refine (performs_readCounter node handle).fails ?_
  rintro _ _ rfl
  rfl

theorem fails_writeLimit (node : Node σ α) (handle : Node.Handle) (value : α) :
    Fails (fun outcome count => count = if outcome.isOk then 0 else 1) (node.writeLimit handle value) := by
  refine (performs_writeLimit node handle value).fails ?_
  rintro (fault | ⟨⟩) _ rfl <;> rfl

theorem fails_notify (node : Node σ α) : Fails (fun _ count => count = 0) node.notify := by
  refine (performs_notify node).fails ?_
  rintro _ _ rfl
  rfl

theorem fails_log (event : Event α) : Fails (σ := σ) (fun _ count => count = 0) event.log := by
  refine (performs_log event).fails ?_
  rintro _ _ rfl
  rfl

end Dealing

variable [Number α]

theorem Resource.fails_setLimit (node : Node σ α) (resource : Resource α) (value : α)
    (known : resource.handle?.isSome) :
    Dealing.Fails (fun out count => out.2.handle? = resource.handle? ∧ count = if out.1 = .failed then 1 else 0)
      (resource.setLimit node value) := by
  unfold setLimit
  split
  · exact Dealing.fails_pure ⟨rfl, rfl⟩
  · split
    · next nowhere => simp [nowhere] at known
    · next handle _ =>
      refine (Dealing.fails_writeLimit node handle value).bind ?_
      rintro (fault | ⟨⟩) _ rfl
      · exact Dealing.fails_pure ⟨rfl, rfl⟩
      · by_cases gpu : resource.kind = .gpu
        · dsimp only
          rw [if_pos gpu]
          refine (Dealing.fails_notify node).silently ?_
          intro _
          exact Dealing.fails_pure ⟨rfl, rfl⟩
        · dsimp only
          rw [if_neg gpu]
          exact Dealing.fails_pure ⟨rfl, rfl⟩

theorem Resource.fails_sampleUsage (node : Node σ α) (resource : Resource α) :
    Dealing.Fails (fun _ count => count = 0) (resource.sampleUsage node) := by
  unfold sampleUsage
  split
  · exact Dealing.fails_pure rfl
  · refine (Dealing.fails_readCounter node _).silently ?_
    intro outcome
    exact Dealing.fails_pure rfl

omit [Number α] in
theorem ApplyReport.failed_record (report : ApplyReport) (outcome : LimitWrite) :
    (report.record outcome).failed = report.failed + if outcome = .failed then 1 else 0 := by
  cases outcome <;> rfl

namespace Pod

def IsPlaced (pod : Pod α) : Prop := ∀ kind, (pod.resource kind).handle?.isSome

theorem fails_writeLimits (node : Node σ α) (limits : PerKind α) (pod : Pod α) (placed : pod.IsPlaced)
    (report : ApplyReport) (kinds : List Kind) :
    Dealing.Fails (fun out count => out.1.failed = report.failed + count)
      (pod.writeLimits node limits report kinds) := by
  induction kinds generalizing pod report with
  | nil => exact Dealing.fails_pure rfl
  | cons kind rest ih =>
    refine (Resource.fails_setLimit node (pod.resource kind) (limits.get kind) (placed kind)).bind ?_
    rintro ⟨outcome, resource⟩ count ⟨same, counted⟩
    have still : (pod.setResource kind resource).IsPlaced := by
      intro other
      rw [resource_setResource]
      split
      · exact same ▸ placed kind
      · exact placed other
    refine (ih (pod.setResource kind resource) still (report.record outcome)).weaken ?_
    intro out more failed
    rw [ApplyReport.failed_record] at failed
    dsimp only at counted
    omega

theorem fails_seedLimits (node : Node σ α) (pod : Pod α) (placed : pod.IsPlaced) (limits : PerKind α) :
    Dealing.Fails (fun out count => out.1.failed = count) (pod.seedLimits node limits) := by
  refine (pod.fails_writeLimits node limits placed .none Kind.all).weaken ?_
  intro out count failed
  simpa [ApplyReport.none] using failed

theorem fails_applyLimits (node : Node σ α) (pod : Pod α) (placed : pod.IsPlaced) (limits : PerKind α) (now : Nat) :
    Dealing.Fails (fun out count => out.1.failed = count) (pod.applyLimits node limits now) := by
  refine (pod.fails_seedLimits node placed limits).bind ?_
  intro out count failed
  exact Dealing.fails_pure failed

theorem fails_sampleAll (node : Node σ α) (pod : Pod α) (kinds : List Kind) :
    Dealing.Fails (fun _ count => count = 0) (pod.sampleAll node kinds) := by
  induction kinds generalizing pod with
  | nil => exact Dealing.fails_pure rfl
  | cons kind rest ih =>
    refine ((pod.resource kind).fails_sampleUsage node).silently ?_
    intro out
    exact ih (pod.setResource kind out.2)

omit [Number α] in
theorem fails_moveTo (pod : Pod α) (next : PodStatus) :
    Dealing.Fails (σ := σ) (fun _ count => count = 0) (pod.moveTo next) := by
  refine (pod.performs_moveTo next).fails ?_
  rintro moved _ ⟨_, rfl⟩
  unfold refusals
  split <;> rfl

end Pod
end PodBudget
