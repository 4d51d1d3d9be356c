import PodBudget.Proofs.Dealing

/-!
Two dealings side by side, each with a node of its own. The nodes answer alike as long as what is written to one of them
has no influence on what it resolves and reads; so a dealing that writes on top keeps step with one that does not.
-/
namespace PodBudget

variable {σ α β γ δ ε : Type}

/-- Nodes that are alike resolve and read alike, and they stay alike when one of them is written to, or asked to
re-balance what was written. -/
structure Node.Oblivious (node : Node σ α) (alike : σ → σ → Prop) : Prop where
  resolve : ∀ {one other}, alike one other → ∀ pod, (node.resolve other pod).1 = (node.resolve one pod).1 ∧
    alike (node.resolve one pod).2 (node.resolve other pod).2
  read : ∀ {one other}, alike one other → ∀ handle, (node.read other handle).1 = (node.read one handle).1 ∧
    alike (node.read one handle).2 (node.read other handle).2
  write : ∀ {one other}, alike one other → ∀ handle value, alike (node.write one handle value).2 other
  rebalance : ∀ {one other}, alike one other → alike (node.rebalance one).2 other

namespace Dealing

variable {alike : σ → σ → Prop} {allowed : Act α → Prop} {relation : β → γ → Prop} {post : β → Prop}

/-- From nodes that are alike, both come to related results and to nodes that are alike, and the second does nothing but
what is allowed. -/
def Lockstep (alike : σ → σ → Prop) (allowed : Act α → Prop) (relation : β → γ → Prop) (first : Dealing σ α β)
    (second : Dealing σ α γ) : Prop :=
  ∀ one other, alike one.node other.node → relation (first one).1 (second other).1 ∧
    alike (first one).2.node (second other).2.node ∧ other.Extends allowed (second other).2

theorem lockstep_pure {value : β} {result : γ} (related : relation value result) :
    Lockstep (σ := σ) alike allowed relation (pure value) (pure result) :=
  fun _ other same => ⟨related, same, .refl other⟩

theorem Lockstep.bind {first : Dealing σ α δ} {second : Dealing σ α ε} {next : δ → Dealing σ α β}
    {after : ε → Dealing σ α γ} {middle : δ → ε → Prop} (early : Lockstep alike allowed middle first second)
    (late : ∀ value result, middle value result → Lockstep alike allowed relation (next value) (after result)) :
    Lockstep alike allowed relation (first >>= next) (second >>= after) := by
  intro one other same
  obtain ⟨related, still, begins⟩ := early one other same
  obtain ⟨results, last, ends⟩ := late _ _ related (first one).2 (second other).2 still
  exact ⟨results, last, begins.trans ends⟩

/-- The result satisfies `post`, and the node stays alike to every node that it was alike to. -/
def Unnoticed (alike : σ → σ → Prop) (post : β → Prop) (dealing : Dealing σ α β) : Prop :=
  ∀ scene, post (dealing scene).1 ∧ ∀ state, alike scene.node state → alike (dealing scene).2.node state

theorem unnoticed_pure {value : β} (holds : post value) : Unnoticed (α := α) alike post (pure value) :=
  fun _ => ⟨holds, fun _ same => same⟩

theorem Unnoticed.bind {first : Dealing σ α δ} {next : δ → Dealing σ α β} {middle : δ → Prop}
    (early : Unnoticed alike middle first) (late : ∀ value, middle value → Unnoticed alike post (next value)) :
    Unnoticed alike post (first >>= next) := by
  intro scene
  obtain ⟨value, begins⟩ := early scene
  obtain ⟨result, ends⟩ := late _ value (first scene).2
  exact ⟨result, fun state same => ends state (begins state same)⟩

theorem Unnoticed.weaken {dealing : Dealing σ α β} {weaker : β → Prop} (strong : Unnoticed alike post dealing)
    (implies : ∀ value, post value → weaker value) : Unnoticed alike weaker dealing := by
  intro scene
  exact (strong scene).imp_left (implies _)

theorem Unnoticed.lockstep {dealing : Dealing σ α β} {result : γ} (unnoticed : Unnoticed alike post dealing)
    (related : ∀ value, post value → relation value result) :
    Lockstep alike allowed relation dealing (pure result) := by
  intro one other same
  obtain ⟨holds, still⟩ := unnoticed one
  exact ⟨related _ holds, still other.node same, .refl other⟩

variable {node : Node σ α}

section

variable (oblivious : node.Oblivious alike)
include oblivious

theorem lockstep_askPaths (pod : String) (fine : ∀ paths, allowed (.resolved pod paths)) :
    Lockstep alike allowed (fun paths others => others = paths) (node.askPaths pod) (node.askPaths pod) := by
  intro one other same
  obtain ⟨answer, still⟩ := oblivious.resolve same pod
  exact ⟨answer, still, (ensures_askPaths node pod fine other).2⟩

theorem lockstep_readCounter (handle : Node.Handle) (fine : ∀ outcome, allowed (.read handle outcome)) :
    Lockstep alike allowed (fun outcome other => other = outcome) (node.readCounter handle)
      (node.readCounter handle) := by
  intro one other same
  obtain ⟨answer, still⟩ := oblivious.read same handle
  exact ⟨answer, still, (ensures_readCounter node handle fine other).2⟩

theorem unnoticed_writeLimit (handle : Node.Handle) (value : α) :
    Unnoticed alike (fun _ => True) (node.writeLimit handle value) :=
  fun _ => ⟨trivial, fun _ same => oblivious.write same handle value⟩

theorem unnoticed_notify : Unnoticed alike (fun _ => True) node.notify :=
  fun _ => ⟨trivial, fun _ same => oblivious.rebalance same⟩

end

theorem unnoticed_log (event : Event α) : Unnoticed (σ := σ) alike (fun _ => True) event.log :=
  fun _ => ⟨trivial, fun _ same => same⟩

theorem lockstep_log (event note : Event α) (fine : allowed (.logged note)) :
    Lockstep (σ := σ) alike allowed (fun _ _ => True) event.log note.log :=
  fun _ other same => ⟨trivial, same, (ensures_log note fine other).2⟩

end Dealing
end PodBudget
