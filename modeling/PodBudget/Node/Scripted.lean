import PodBudget.Node.Interface

/-!
A node kept in memory. Its pods come and go by hand, its counters are set, and its reads and writes fail on
demand; readings are taken at the node's own clock.
-/
namespace PodBudget.Node

structure Scripted where
  now : Nat
  ready : List String
  counters : List (String × Nat)
  readFaults : List (String × ProbeFault)
  stuck : List String
  failWrites : Bool
  failHook : Bool

namespace Scripted

def new : Scripted := ⟨0, [], [], [], [], false, false⟩

def path (kind : Kind) (pod : String) : String := s!"/fake/{kind.name}/{pod}"

def advance (node : Scripted) (nanos : Nat) : Scripted := { node with now := node.now + nanos }

def markReady (node : Scripted) (pod : String) : Scripted := { node with ready := pod :: node.ready }

def markUnready (node : Scripted) (pod : String) : Scripted :=
  { node with ready := node.ready.filter (· != pod) }

def setCounter (node : Scripted) (path : String) (value : Nat) : Scripted :=
  { node with counters := (path, value) :: node.counters.filter (·.1 != path) }

def setReadFault (node : Scripted) (path : String) (fault : Option ProbeFault) : Scripted :=
  { node with readFaults := (fault.map (path, ·)).toList ++ node.readFaults.filter (·.1 != path) }

def setStuck (node : Scripted) (path : String) (isStuck : Bool) : Scripted :=
  { node with stuck := (if isStuck then [path] else []) ++ node.stuck.filter (· != path) }

def refusal : FileFault := .other "simulated permission_denied"

def node {α : Type} : Node Scripted α where
  resolve state pod :=
    (if state.ready.contains pod then some (.of fun kind => path kind pod) else none, state)
  read state handle :=
    (match state.readFaults.lookup handle.path with
      | some fault => .error fault
      | none => .ok ⟨(state.counters.lookup handle.path).getD 0, state.now⟩, state)
  write state handle _ :=
    (if state.failWrites || state.stuck.contains handle.path then .error (.ofFile handle.path refusal)
      else .ok (), state)
  rebalance state := (if state.failHook then .error (.file "" refusal) else .ok (), state)

end Scripted
end PodBudget.Node
