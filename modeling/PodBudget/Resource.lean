import PodBudget.Node.Interface

/-!
One resource of one pod: its usage, smoothed over samples, and the limit that was last asked for. Counters
are turned into usage between two successful readings; a failed reading counts as an idle interval and keeps
the older reading as the base of the next.
-/
namespace PodBudget

inductive LimitWrite where
  | unchanged
  | written
  | failed
  deriving DecidableEq, Repr

def LimitWrite.title : LimitWrite → String
  | .unchanged => "Unchanged"
  | .written => "Written"
  | .failed => "Failed"

structure Resource (α : Type) where
  kind : Kind
  path : Option String
  lastReading : Option Node.Reading
  usage : α
  average : α
  weight : α
  limit : α
  /-- Whether a write of `limit` has been attempted. -/
  written : Bool
  deriving DecidableEq, Repr

namespace Resource

variable {σ α : Type} [Number α]

def new (kind : Kind) : Resource α where
  kind
  path := none
  lastReading := none
  usage := 0
  average := 0
  weight := 0
  limit := 0
  written := false

def attach (resource : Resource α) (path : String) : Resource α := { resource with path := some path }

def handle? (resource : Resource α) : Option Node.Handle :=
  resource.path.map fun path => ⟨resource.kind, path⟩

def maxPlausible : α := 1000

def observe (resource : Resource α) (usage : α) : Resource α :=
  { resource with usage, average := (7 * resource.average + usage) / 8 }

/-- Usage between two readings, in percentage points; 0 where no time has passed or the counter fell. -/
def usageBetween (kind : Kind) (before after : Node.Reading) : α :=
  let elapsed : α := Number.seconds (after.instant - before.instant)
  if 0 < elapsed then Number.ofNat (after.value - before.value) / (kind.scale * elapsed) else 0

/-- Takes one reading in. Only a missing source makes it `false`, and then nothing changes; the first
successful reading is a base and no usage. -/
def recordSample (resource : Resource α) : Except Node.ProbeFault Node.Reading → Bool × Resource α
  | .error (.missing _) => (false, resource)
  | .error _ => (true, resource.observe 0)
  | .ok reading =>
    let next := { resource with lastReading := some reading }
    match resource.lastReading with
    | none => (true, next)
    | some before =>
      let usage := usageBetween resource.kind before reading
      (true, next.observe (if maxPlausible < usage then 0 else usage))

def sampleUsage (node : Node σ α) (resource : Resource α) : Dealing σ α (Bool × Resource α) :=
  match resource.handle? with
  | none => return (false, resource)
  | some handle => return resource.recordSample (← node.readCounter handle)

/-- Writes a limit unless it is the last one written. A failed write is not repeated by itself: the limit
counts as asked for. GPU writes that succeed are followed by a request to re-balance. -/
def setLimit (node : Node σ α) (resource : Resource α) (value : α) : Dealing σ α (LimitWrite × Resource α) :=
  if resource.written && value == resource.limit then return (.unchanged, resource)
  else
    match resource.handle? with
    | none => return (.failed, { resource with limit := value })
    | some handle => do
      let outcome ← node.writeLimit handle value
      let next := { resource with limit := value, written := true }
      match outcome with
      | .error _ => return (.failed, next)
      | .ok () =>
        if resource.kind = .gpu then
          let _ ← node.notify
        return (.written, next)

end Resource
end PodBudget
