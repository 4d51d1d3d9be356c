import PodBudget.Kind

/-!
What a node answers when it is asked about a resource: counter readings, and the faults of reading and writing
its control files.
-/
namespace PodBudget.Node

/-- One resource of one pod, at the directory that holds its control files. -/
structure Handle where
  kind : Kind
  path : String
  deriving DecidableEq, Repr

structure Reading where
  value : Nat
  instant : Nat
  deriving DecidableEq, Repr

inductive FileFault where
  | notFound
  | isDirectory
  | notDirectory
  | nameTooLong
  | nulInName
  | notText
  | other (text : String)
  deriving DecidableEq, Repr

def FileFault.message : FileFault → String
  | .notFound => "No such file or directory (os error 2)"
  | .isDirectory => "Is a directory (os error 21)"
  | .notDirectory => "Not a directory (os error 20)"
  | .nameTooLong => "File name too long (os error 36)"
  | .nulInName => "file name contained an unexpected NUL byte"
  | .notText => "stream did not contain valid UTF-8"
  | .other text => text

inductive ProbeFault where
  /-- The source is gone; a running pod has completed. -/
  | missing (path : String)
  | file (path : String) (cause : FileFault)
  | malformed (path reason : String)
  deriving DecidableEq, Repr

namespace ProbeFault

def ofFile (path : String) : FileFault → ProbeFault
  | .notFound => .missing path
  | cause => .file path cause

def message : ProbeFault → String
  | .missing path => s!"resource source {path} no longer exists"
  | .file path cause => s!"I/O error on {path}: {cause.message}"
  | .malformed path reason => s!"failed to parse {path}: {reason}"

def isMissing : ProbeFault → Bool
  | .missing _ => true
  | _ => false

end ProbeFault
end PodBudget.Node
