import PodBudget.Proofs.Monitor.Reports
import PodBudget.Proofs.Monitor.Starts

/-!
The discipline of a pod: what may be done for it at each stage, and which stage follows. A pod that waits is only asked
for; once its directories are there it is started; while it runs each cycle reads its counters before anything is
written, and it ends where one of them is gone; and nothing is done for a pod that has completed.
-/
namespace PodBudget

variable {σ α : Type}

namespace Act

def isRead : Act α → Bool
  | .read _ _ => true
  | _ => false

def isWrite : Act α → Bool
  | .wrote _ _ _ => true
  | _ => false

end Act

theorem Attempt.isRead {handle : Node.Handle} {value : α} {acts : List (Act α)} (attempt : Attempt handle value acts) :
    ∀ act ∈ acts, act.isRead = false := by
  cases attempt <;> simp [Act.isRead]

namespace Monitor

/-- Where a pod stands, as far as the node and a reader of the records can tell. -/
inductive Stage (α : Type) where
  | absent
  | waiting
  | running (handles : List Node.Handle)
  | completed (record : Pod α)

def Stage.IsLive : Stage α → Prop
  | .absent => False
  | .waiting => True
  | .running _ => True
  | .completed _ => False

def stageOf (monitor : Monitor α) (name : String) : Stage α :=
  match monitor.running.get? name, monitor.notReady.get? name, monitor.completed.get? name with
  | some pod, _, _ => .running pod.handles
  | none, some _, _ => .waiting
  | none, none, some record => .completed record
  | none, none, none => .absent

/-- What a cycle does, phase by phase. -/
structure Pass (α : Type) where
  allocation : Allocation
  heard : List String
  sampling : List (Deed α)
  completing : List (Deed α)
  allocating : List (Deed α)
  promoting : List (Deed α)

def Pass.deeds (pass : Pass α) : List (Deed α) :=
  pass.sampling ++ pass.completing ++ pass.allocating ++ pass.promoting

theorem Pass.acts_of_phases (pass : Pass α) {opening sampled swept allocated closing : List (Act α)}
    (sampling : sampled = opening ++ pass.sampling.map (·.act)) (completing : swept = sampled ++ pass.completing.map (·.act))
    (allocating : allocated = swept ++ pass.allocating.map (·.act))
    (promoting : closing = allocated ++ pass.promoting.map (·.act)) : closing = opening ++ pass.deeds.map (·.act) := by
  rw [promoting, allocating, completing, sampling, deeds]
  simp only [List.map_append, List.append_assoc]

structure Pass.Does (pass : Pass α) (name : String) (sampling completing allocating promoting : List (Act α)) :
    Prop where
  sampling : own name pass.sampling = sampling
  completing : own name pass.completing = completing
  allocating : own name pass.allocating = allocating
  promoting : own name pass.promoting = promoting

inductive Chapter (α : Type) where
  | enrollment (admission : Admission α) (taken : Bool)
  | cycle (pass : Pass α)

def Chapter.deeds : Chapter α → List (Deed α)
  | .enrollment admission taken =>
    if taken then work admission.name [.logged (.podAdmitted admission.name admission.reservation)] else []
  | .cycle pass => pass.deeds

/-- What a call does for a pod at a stage, and the stage that follows. -/
inductive Obeys (config : MonitorConfig α) (name : String) : Stage α → Chapter α → Stage α → Prop
  | bystander {admission taken stage} (other : admission.name ≠ name) :
    Obeys config name stage (.enrollment admission taken) stage
  | admitted {admission stage} (mine : admission.name = name) (free : ¬ stage.IsLive) :
    Obeys config name stage (.enrollment admission true) .waiting
  | refused {admission stage} (mine : admission.name = name) (live : stage.IsLive) :
    Obeys config name stage (.enrollment admission false) stage
  | idle {pass stage} (away : ¬ stage.IsLive) (does : pass.Does name [] [] [] []) :
    Obeys config name stage (.cycle pass) stage
  | waits {pass} (does : pass.Does name [] [] [] [.resolved name none]) :
    Obeys config name .waiting (.cycle pass) .waiting
  | starts {pass paths acts} (begins : Begins config name paths acts)
      (does : pass.Does name [] [] [] (.resolved name (some paths) :: acts)) :
    Obeys config name .waiting (.cycle pass) (.running (Node.handlesAt paths))
  | ends {pass paths cpu gpu record} (heard : name ∈ pass.heard)
      (gone : Node.isGone cpu = true ∨ Node.isGone gpu = true)
      (does : pass.Does name (readsAt paths cpu gpu)
        [.logged (.podCompleted name record.updates record.queue)] [] []) :
    Obeys config name (.running (Node.handlesAt paths)) (.cycle pass) (.completed record)
  | goesOn {pass paths cpu gpu acts} (fine : name ∈ pass.heard → Node.isGone cpu = false ∧ Node.isGone gpu = false)
      (allocated : if pass.allocation.isApplied then Assigned name (fun kind => some ⟨kind, paths.get kind⟩) acts
        else acts = [])
      (does : pass.Does name (readsAt paths cpu gpu) [] acts []) :
    Obeys config name (.running (Node.handlesAt paths)) (.cycle pass) (.running (Node.handlesAt paths))

theorem Assigned.isRead {name : String} {handle? : Kind → Option Node.Handle} {acts : List (Act α)}
    (assigned : Assigned name handle? acts) : ∀ act ∈ acts, act.isRead = false := by
  have once {handle? : Option Node.Handle} {value : α} {acts : List (Act α)} (few : AtMostOnce handle? value acts) :
      ∀ act ∈ acts, act.isRead = false := by
    rcases few with rfl | ⟨handle, _, attempt⟩
    · simp
    · exact attempt.isRead
  obtain ⟨limits, queue, joint, cpu, gpu, rfl, first, second⟩ := assigned
  intro act member
  rcases List.mem_append.mp member with early | last
  · exact (List.mem_append.mp early).elim (once first act) (once second act)
  · rw [List.mem_singleton.mp last]
    rfl

/-- Nothing is written before all running pods have been read; what is read later is a base for a pod that waited. -/
structure Pass.ReadsFirst (stage : String → Stage α) (pass : Pass α) : Prop where
  unwritten : ∀ deed ∈ pass.sampling ++ pass.completing, deed.act.isWrite = false
  read : ∀ deed ∈ pass.completing ++ pass.allocating ++ pass.promoting, deed.act.isRead = true →
    ∃ name, deed.pod = some name ∧ stage name = .waiting

section

variable {config : MonitorConfig α} {name : String} {before after : Stage α} {pass : Pass α}
  (obeys : Obeys config name before (.cycle pass) after)
include obeys

theorem Obeys.unwritten : ∀ act ∈ own name (pass.sampling ++ pass.completing), act.isWrite = false := by
  rw [own_append]
  cases obeys with
  | idle _ does => simp [does.sampling, does.completing]
  | waits does => simp [does.sampling, does.completing]
  | starts _ does => simp [does.sampling, does.completing]
  | ends _ _ does => simp [does.sampling, does.completing, readsAt, Act.isWrite]
  | goesOn _ _ does => simp [does.sampling, does.completing, readsAt, Act.isWrite]

theorem Obeys.read : ∀ act ∈ own name (pass.completing ++ pass.allocating ++ pass.promoting), act.isRead = true →
    before = .waiting := by
  rw [own_append, own_append]
  cases obeys with
  | idle _ does => simp [does.completing, does.allocating, does.promoting]
  | waits does => exact fun _ _ _ => rfl
  | starts _ does => exact fun _ _ _ => rfl
  | ends _ _ does => simp [does.completing, does.allocating, does.promoting, Act.isRead]
  | goesOn _ allocated does =>
    rw [does.completing, does.allocating, does.promoting, List.nil_append, List.append_nil]
    intro act member read
    split at allocated
    · cases (allocated.isRead act member).symm.trans read
    · rw [allocated] at member
      cases member

end

theorem readsFirst_of_obeys {config : MonitorConfig α} {before after : String → Stage α} {pass : Pass α}
    (obeys : ∀ name, Obeys config name (before name) (.cycle pass) (after name))
    (shared : ∀ deed ∈ pass.deeds, deed.pod = none → IsRemark deed) : pass.ReadsFirst before := by
  constructor
  · intro deed member
    cases owner : deed.pod with
    | none =>
      have inside : deed ∈ pass.deeds := List.mem_append_left _ (List.mem_append_left _ member)
      obtain ⟨_, event, logged, _⟩ := shared deed inside owner
      rw [logged]
      rfl
    | some name => exact (obeys name).unwritten deed.act (mem_own member owner)
  · intro deed member read
    cases owner : deed.pod with
    | none =>
      have inside : deed ∈ pass.deeds := by
        simp only [Pass.deeds, List.mem_append] at member ⊢
        tauto
      obtain ⟨_, event, logged, _⟩ := shared deed inside owner
      rw [logged] at read
      cases read
    | some name => exact ⟨name, rfl, (obeys name).read deed.act (mem_own member owner) read⟩

end Monitor
end PodBudget
