import PodBudget.Node.FileTree

/-!
Activity signalled through files. The scheduler asks for a pass by writing a file; what counts is a change of
content, not one of metadata. Pulses that arrive while one is waiting are lost in it.
-/
namespace PodBudget.Activity

inductive FileChange where
  | created
  | contentChanged
  | changed
  | metadataChanged
  | renamed
  | removed
  | accessed
  deriving DecidableEq, Repr

def FileChange.isPulse : FileChange → Bool
  | .created | .contentChanged | .changed => true
  | .metadataChanged | .renamed | .removed | .accessed => false

inductive Deed where
  | makeDirectory (path : String)
  | writeFile (path : String)
  | remove (path : String)

def watch? (tree : Node.FileTree) (path : String) : Except String Unit :=
  if tree.exists? path then .ok () else .error s!"Failed to watch {path}"

def changeOf (tree : Node.FileTree) : Deed → String × FileChange
  | .makeDirectory path => (path, if tree.exists? path then .accessed else .created)
  | .writeFile path => (path, if tree.exists? path then .contentChanged else .created)
  | .remove path => (path, .removed)

/-- Whether a change at `path` is seen where `watched` is watched: there, or directly below it. -/
def isSeen (watched path : String) : Bool :=
  let place := Node.FileTree.placeOf path
  let around := Node.FileTree.placeOf watched
  place == around || place.dropLast == around

def pulses (tree : Node.FileTree) (watched : String) (deed : Deed) : Bool :=
  let (path, change) := changeOf tree deed
  isSeen watched path && change.isPulse

end PodBudget.Activity
