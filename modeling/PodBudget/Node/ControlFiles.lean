import PodBudget.Node.Interface
import PodBudget.Node.FileTree
import PodBudget.Node.ControlText
import PodBudget.Node.Template

/-!
A node whose resources are control files in a tree: processor time and quota of a control group, in either
version of its hierarchy, and the time slices of a GPU. Reads and writes touch the files named here only.
-/
namespace PodBudget.Node

inductive GroupVersion where
  | v1
  | v2
  | unknown
  deriving DecidableEq, Repr

namespace GroupVersion

def name : GroupVersion → String
  | .v1 => "V1"
  | .v2 => "V2"
  | .unknown => "Unknown"

def usageFile : GroupVersion → String
  | .v2 => "cpu.stat"
  | .v1 | .unknown => "cpuacct.usage"

/-- The version of the hierarchy mounted at a directory: the second lists its controllers at the root, the
first has a directory for each. -/
def detect (tree : FileTree) (root : String) : GroupVersion :=
  if tree.exists? (FileTree.join root "cgroup.controllers") then .v2
  else if tree.exists? (FileTree.join root "cpu") || tree.exists? (FileTree.join root "cpuacct") then .v1
  else .unknown

end GroupVersion

structure ControlFiles where
  version : GroupVersion
  templates : PathTemplates
  rebalanceFile : String

namespace ControlFiles

def quotaFile : String := "cpu.cfs_quota_us"
def maxFile : String := "cpu.max"
def runtimeFile : String := "total_runtime"
def limitFile : String := "gpu_limit"
def requestFile : String := "gpu_request"

def counterFile (files : ControlFiles) : Kind → String
  | .cpu => files.version.usageFile
  | .gpu => runtimeFile

/-- The directories of a pod, once both of them have their counter. -/
def resolve (files : ControlFiles) (tree : FileTree) (pod : String) : Option (PerKind String) :=
  let paths := PerKind.of fun kind => Template.resolve files.templates kind pod
  if Kind.all.all fun kind => tree.exists? (FileTree.join (paths.get kind) (files.counterFile kind)) then
    some paths
  else none

def readText (tree : FileTree) (path : String) : Except ProbeFault String :=
  (tree.readText path).mapError (.ofFile path)

def readCounterFile (tree : FileTree) (path : String) : Except ProbeFault Nat := do
  let text := (← readText tree path).toList
  match ControlText.counter? text with
  | some value => return value
  | none => throw (.malformed path s!"not an integer: {Text.quoted (Text.trim text)}")

def readUsageFile (tree : FileTree) (path : String) : Except ProbeFault Nat := do
  match ControlText.usageMicros? (← readText tree path).toList with
  | some micros => return ControlText.nanosOfMicros micros
  | none => throw (.malformed path "missing usage_usec")

def read (files : ControlFiles) (tree : FileTree) (handle : Handle) : Except ProbeFault Nat :=
  let path := FileTree.join handle.path (files.counterFile handle.kind)
  match handle.kind, files.version with
  | .cpu, .v2 => readUsageFile tree path
  | _, _ => readCounterFile tree path

def writeValue (tree : FileTree) (path value : String) : Except ProbeFault FileTree :=
  (tree.write path value.toUTF8).mapError (.ofFile path)

variable {α : Type} [Number α]

def limitFiles (files : ControlFiles) (handle : Handle) (limit : α) : List (String × String) :=
  match handle.kind, files.version with
  | .cpu, .v2 => [(FileTree.join handle.path maxFile, ControlText.quotaAndPeriod limit)]
  | .cpu, _ => [(FileTree.join handle.path quotaFile, ControlText.quota limit)]
  | .gpu, _ => [(FileTree.join handle.path limitFile, ControlText.share limit),
      (FileTree.join handle.path requestFile, ControlText.share limit)]

/-- Writes files in order up to the first that fails; what was written before stays. -/
def writeFiles (tree : FileTree) : List (String × String) → Except ProbeFault Unit × FileTree
  | [] => (.ok (), tree)
  | (path, value) :: rest =>
    match writeValue tree path value with
    | .ok tree => writeFiles tree rest
    | .error fault => (.error fault, tree)

def rebalance (files : ControlFiles) (tree : FileTree) : Except ProbeFault Unit × FileTree :=
  writeFiles tree [(files.rebalanceFile, "0")]

def node (files : ControlFiles) (now : Nat) : Node FileTree α where
  resolve tree pod := (files.resolve tree pod, tree)
  read tree handle := ((files.read tree handle).map fun value => ⟨value, now⟩, tree)
  write tree handle limit := writeFiles tree (files.limitFiles handle limit)
  rebalance tree := files.rebalance tree

end ControlFiles
end PodBudget.Node
