import PodBudget.Node.Interface

/-! Dealings with a node that answers as it likes: what holds of their results, and what they do to the node. -/
namespace PodBudget

variable {σ α β γ : Type}

/-- Everything that was done to the node between two scenes is allowed. -/
def Scene.Extends (allowed : Act α → Prop) (before after : Scene σ α) : Prop :=
  ∃ acts, after.acts = before.acts ++ acts ∧ ∀ act ∈ acts, allowed act

variable {allowed : Act α → Prop} {post : β → Prop}

theorem Scene.Extends.refl (scene : Scene σ α) : scene.Extends allowed scene :=
  ⟨[], (List.append_nil _).symm, nofun⟩

theorem Scene.Extends.trans {before middle after : Scene σ α} (early : before.Extends allowed middle)
    (late : middle.Extends allowed after) : before.Extends allowed after := by
  obtain ⟨first, kept, fine⟩ := early
  obtain ⟨second, more, well⟩ := late
  refine ⟨first ++ second, ?_, ?_⟩
  · rw [more, kept, List.append_assoc]
  · intro act member
    exact (List.mem_append.mp member).elim (fine act) (well act)

theorem Scene.Extends.filterMap_eq {view : Act α → Option γ} {before after : Scene σ α}
    (extends_ : before.Extends (fun act => view act = none) after) :
    after.acts.filterMap view = before.acts.filterMap view := by
  obtain ⟨acts, more, unseen⟩ := extends_
  rw [more, List.filterMap_append, List.filterMap_eq_nil_iff.mpr unseen, List.append_nil]

namespace Dealing

/-- The result satisfies `post`, and whatever is done to the node on the way is allowed. -/
def Ensures (allowed : Act α → Prop) (post : β → Prop) (dealing : Dealing σ α β) : Prop :=
  ∀ scene, post (dealing scene).1 ∧ scene.Extends allowed (dealing scene).2

theorem ensures_pure {value : β} (holds : post value) : Ensures (σ := σ) allowed post (pure value) :=
  fun scene => ⟨holds, .refl scene⟩

theorem Ensures.bind {first : Dealing σ α γ} {next : γ → Dealing σ α β} {middle : γ → Prop}
    (before : Ensures allowed middle first) (after : ∀ value, middle value → Ensures allowed post (next value)) :
    Ensures allowed post (first >>= next) := by
  intro scene
  obtain ⟨value, early⟩ := before scene
  obtain ⟨result, late⟩ := after _ value (first scene).2
  exact ⟨result, early.trans late⟩

theorem Ensures.weaken {dealing : Dealing σ α β} {weaker : β → Prop} (strong : Ensures allowed post dealing)
    (implies : ∀ value, post value → weaker value) : Ensures allowed weaker dealing := by
  intro scene
  exact ⟨implies _ (strong scene).1, (strong scene).2⟩

/-- Whatever the node answers, the result satisfies `post`. -/
def Yields (post : β → Prop) (dealing : Dealing σ α β) : Prop := ∀ scene, post (dealing scene).1

theorem yields_pure {value : β} (holds : post value) : Yields post (pure value : Dealing σ α β) :=
  fun _ => holds

theorem Ensures.yields {dealing : Dealing σ α β} (ensures : Ensures allowed post dealing) : Yields post dealing :=
  fun scene => (ensures scene).1

theorem yields_true (dealing : Dealing σ α β) : Yields (fun _ => True) dealing := fun _ => trivial

theorem Yields.bind {first : Dealing σ α γ} {next : γ → Dealing σ α β} {middle : γ → Prop}
    (before : Yields middle first) (after : ∀ value, middle value → Yields post (next value)) :
    Yields post (first >>= next) :=
  fun scene => after _ (before scene) (first scene).2

private theorem ensures_act (step : σ → β × σ) {record : β → Act α} (fine : ∀ answer, allowed (record answer)) :
    Ensures (σ := σ) allowed (fun _ => True) fun scene =>
      ((step scene.node).1, ⟨(step scene.node).2, scene.acts ++ [record (step scene.node).1]⟩) := by
  intro scene
  refine ⟨trivial, [record (step scene.node).1], rfl, ?_⟩
  intro act member
  rw [List.mem_singleton.mp member]
  exact fine _

theorem ensures_askPaths (node : Node σ α) (pod : String) (fine : ∀ paths, allowed (.resolved pod paths)) :
    Ensures allowed (fun _ => True) (node.askPaths pod) :=
  ensures_act (fun state => node.resolve state pod) fine

theorem ensures_readCounter (node : Node σ α) (handle : Node.Handle)
    (fine : ∀ outcome, allowed (.read handle outcome)) :
    Ensures allowed (fun _ => True) (node.readCounter handle) :=
  ensures_act (fun state => node.read state handle) fine

theorem ensures_writeLimit (node : Node σ α) (handle : Node.Handle) (value : α)
    (fine : ∀ outcome, allowed (.wrote handle value outcome)) :
    Ensures allowed (fun _ => True) (node.writeLimit handle value) :=
  ensures_act (fun state => node.write state handle value) fine

theorem ensures_notify (node : Node σ α) (fine : ∀ outcome, allowed (.rebalanced outcome)) :
    Ensures allowed (fun _ => True) node.notify :=
  ensures_act node.rebalance fine

theorem ensures_log (event : Event α) (fine : allowed (.logged event)) :
    Ensures (σ := σ) allowed (fun _ => True) event.log :=
  ensures_act (fun state => ((), state)) fun _ => fine

/-- On any node the dealing comes to a result and does acts of which `spec` holds, whatever was done before. -/
def Performs (spec : β → List (Act α) → Prop) (dealing : Dealing σ α β) : Prop :=
  ∀ state, ∃ result after acts, spec result acts ∧ ∀ before, dealing ⟨state, before⟩ = (result, ⟨after, before ++ acts⟩)

variable {spec : β → List (Act α) → Prop}

theorem performs_pure {value : β} (holds : spec value []) : Performs (σ := σ) spec (pure value) := by
  intro state
  refine ⟨value, state, [], holds, ?_⟩
  intro before
  rw [List.append_nil]
  rfl

theorem Performs.bind {first : Dealing σ α γ} {next : γ → Dealing σ α β} {middle : γ → List (Act α) → Prop}
    (early : Performs middle first)
    (late : ∀ value acts, middle value acts → Performs (fun result more => spec result (acts ++ more)) (next value)) :
    Performs spec (first >>= next) := by
  intro state
  obtain ⟨value, between, acts, holds, begins⟩ := early state
  obtain ⟨result, after, more, meets, ends⟩ := late value acts holds between
  refine ⟨result, after, acts ++ more, meets, ?_⟩
  intro before
  change next (first ⟨state, before⟩).1 (first ⟨state, before⟩).2 = _
  rw [begins before, ends, List.append_assoc]

theorem Performs.weaken {dealing : Dealing σ α β} {weaker : β → List (Act α) → Prop} (strong : Performs spec dealing)
    (implies : ∀ result acts, spec result acts → weaker result acts) : Performs weaker dealing := by
  intro state
  obtain ⟨result, after, acts, holds, runs⟩ := strong state
  exact ⟨result, after, acts, implies result acts holds, runs⟩

theorem Performs.yields {dealing : Dealing σ α β} (performs : Performs spec dealing) (yields : Yields post dealing) :
    Performs (fun result acts => post result ∧ spec result acts) dealing := by
  intro state
  obtain ⟨result, after, acts, holds, runs⟩ := performs state
  have meets := yields ⟨state, []⟩
  rw [runs []] at meets
  exact ⟨result, after, acts, ⟨meets, holds⟩, runs⟩

theorem Performs.and {dealing : Dealing σ α β} {other : β → List (Act α) → Prop} (one : Performs spec dealing)
    (another : Performs other dealing) :
    Performs (fun result acts => spec result acts ∧ other result acts) dealing := by
  intro state
  obtain ⟨result, after, acts, holds, runs⟩ := one state
  obtain ⟨_, _, same, meets, again⟩ := another state
  obtain ⟨rfl, here⟩ := Prod.ext_iff.mp ((again []).symm.trans (runs []))
  obtain ⟨-, rfl⟩ : _ ∧ same = acts := by simpa using here
  exact ⟨_, after, same, ⟨holds, meets⟩, runs⟩

theorem Performs.on {dealing : Dealing σ α β} (performs : Performs spec dealing) (scene : Scene σ α) :
    ∃ acts, spec (dealing scene).1 acts ∧ (dealing scene).2.acts = scene.acts ++ acts := by
  obtain ⟨result, after, acts, holds, runs⟩ := performs scene.node
  have here : dealing scene = (result, ⟨after, scene.acts ++ acts⟩) := runs scene.acts
  rw [here]
  exact ⟨acts, holds, rfl⟩

private theorem performs_act (step : σ → β × σ) (record : β → Act α) :
    Performs (fun answer acts => acts = [record answer]) fun scene : Scene σ α =>
      ((step scene.node).1, ⟨(step scene.node).2, scene.acts ++ [record (step scene.node).1]⟩) :=
  fun state => ⟨(step state).1, (step state).2, [record (step state).1], rfl, fun _ => rfl⟩

theorem performs_askPaths (node : Node σ α) (pod : String) :
    Performs (fun paths acts => acts = [.resolved pod paths]) (node.askPaths pod) :=
  performs_act (fun state => node.resolve state pod) _

theorem performs_readCounter (node : Node σ α) (handle : Node.Handle) :
    Performs (fun outcome acts => acts = [.read handle outcome]) (node.readCounter handle) :=
  performs_act (fun state => node.read state handle) _

theorem performs_writeLimit (node : Node σ α) (handle : Node.Handle) (value : α) :
    Performs (fun outcome acts => acts = [.wrote handle value outcome]) (node.writeLimit handle value) :=
  performs_act (fun state => node.write state handle value) _

theorem performs_notify (node : Node σ α) :
    Performs (fun outcome acts => acts = [.rebalanced outcome]) node.notify :=
  performs_act node.rebalance _

theorem performs_log (event : Event α) : Performs (σ := σ) (fun _ acts => acts = [.logged event]) event.log :=
  performs_act (fun state => ((), state)) _

end Dealing
end PodBudget
