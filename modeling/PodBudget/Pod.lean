import PodBudget.Resource
import PodBudget.Plan

/-! One pod: its stage, its token account and its two resources. -/
namespace PodBudget

structure ApplyReport where
  written : Nat
  unchanged : Nat
  failed : Nat
  deriving DecidableEq, Repr

namespace ApplyReport

def none : ApplyReport := ⟨0, 0, 0⟩

def record (report : ApplyReport) : LimitWrite → ApplyReport
  | .written => { report with written := report.written + 1 }
  | .unchanged => { report with unchanged := report.unchanged + 1 }
  | .failed => { report with failed := report.failed + 1 }

end ApplyReport

abbrev Readings := List (Kind × Except Node.ProbeFault Node.Reading)

structure Pod (α : Type) where
  name : String
  status : PodStatus
  cpu : Resource α
  gpu : Resource α
  reservation : α
  queue : α
  /-- Instant up to which the queue is settled, in nanoseconds. -/
  lastUpdate : Option Nat
  updates : Nat
  deriving DecidableEq, Repr

namespace Pod

variable {σ α : Type} [Number α]

def new (name : String) (reservation : α) : Pod α where
  name
  status := .initializing
  cpu := .new .cpu
  gpu := .new .gpu
  reservation
  queue := 0
  lastUpdate := none
  updates := 0

def resource (pod : Pod α) : Kind → Resource α
  | .cpu => pod.cpu
  | .gpu => pod.gpu

def setResource (pod : Pod α) (kind : Kind) (resource : Resource α) : Pod α :=
  match kind with
  | .cpu => { pod with cpu := resource }
  | .gpu => { pod with gpu := resource }

def usage (pod : Pod α) : PerKind α := .of fun kind => (pod.resource kind).usage
def average (pod : Pod α) : PerKind α := .of fun kind => (pod.resource kind).average
def weights (pod : Pod α) : PerKind α := .of fun kind => (pod.resource kind).weight
def limits (pod : Pod α) : PerKind α := .of fun kind => (pod.resource kind).limit

def transition (pod : Pod α) (next : PodStatus) : Except Regression (Pod α) :=
  if pod.status.rank < next.rank then .ok { pod with status := next }
  else .error ⟨pod.name, pod.status, next⟩

/-- Moves forward where that is possible. A move that is refused is noted, and the pod stays where it is. -/
def moveTo (pod : Pod α) (next : PodStatus) : Dealing σ α (Pod α) :=
  match pod.transition next with
  | .ok moved => return moved
  | .error regression => do
    regression.note
    return pod

def attach (pod : Pod α) (paths : PerKind String) : Pod α :=
  { pod with cpu := pod.cpu.attach paths.cpu, gpu := pod.gpu.attach paths.gpu }

def handles (pod : Pod α) : List Node.Handle :=
  Kind.all.filterMap fun kind => (pod.resource kind).handle?

def recordEach (pod : Pod α) : Readings → Bool × Pod α
  | [] => (true, pod)
  | (kind, outcome) :: rest =>
    let (present, resource) := (pod.resource kind).recordSample outcome
    let next := pod.setResource kind resource
    if present then next.recordEach rest else (false, next)

/-- Takes one round of readings in. Where a source is missing the round is `false` and nothing changes. -/
def recordSamples (pod : Pod α) (readings : Readings) : Bool × Pod α :=
  if readings.any fun reading => match reading.2 with | .error fault => fault.isMissing | .ok _ => false then
    (false, pod)
  else pod.recordEach readings

/-- Settles the token queue over `elapsed` seconds at the limits in force. -/
def settleQueue (pod : Pod α) (elapsed : α) (cap : QueueCap) : Pod α :=
  { pod with queue := Tokens.settle pod.queue pod.reservation pod.limits elapsed cap }

def updateWeights (pod : Pod α) (staticWeight : α) : Pod α :=
  let weights := adaptiveWeights pod.usage pod.average staticWeight
  { pod with cpu := { pod.cpu with weight := weights.cpu }, gpu := { pod.gpu with weight := weights.gpu } }

def available (pod : Pod α) (remaining : α) (policy : Policy α) : α :=
  Tokens.available pod.reservation pod.queue remaining policy.carryOver

def plan (pod : Pod α) (remaining : α) (policy : Policy α) : Plan α :=
  Plan.compute pod.usage pod.weights (pod.available remaining policy) remaining policy.minLimit

def writeLimits (node : Node σ α) (limits : PerKind α) (pod : Pod α) (report : ApplyReport) :
    List Kind → Dealing σ α (ApplyReport × Pod α)
  | [] => return (report, pod)
  | kind :: rest => do
    let (outcome, resource) ← (pod.resource kind).setLimit node (limits.get kind)
    (pod.setResource kind resource).writeLimits node limits (report.record outcome) rest

def seedLimits (node : Node σ α) (pod : Pod α) (limits : PerKind α) : Dealing σ α (ApplyReport × Pod α) :=
  pod.writeLimits node limits .none Kind.all

def stamp (pod : Pod α) (now : Nat) : Pod α := { pod with lastUpdate := some now }

def applyLimits (node : Node σ α) (pod : Pod α) (limits : PerKind α) (now : Nat) :
    Dealing σ α (ApplyReport × Pod α) := do
  let (report, pod) ← pod.seedLimits node limits
  return (report, { pod with updates := pod.updates + 1 }.stamp now)

def sampleAll (node : Node σ α) (pod : Pod α) : List Kind → Dealing σ α (Pod α)
  | [] => return pod
  | kind :: rest => do
    let (_, resource) ← (pod.resource kind).sampleUsage node
    (pod.setResource kind resource).sampleAll node rest

end Pod
end PodBudget
