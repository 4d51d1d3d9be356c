import PodBudget.Kind

/-! Templates of the directories of pods: every placeholder gives way to the pod's name. -/
namespace PodBudget.Node

abbrev PathTemplates := PerKind String

namespace Template

def placeholder : List Char := ['\x7b', 'p', 'o', 'd', '\x7d']

/-- Replaces the placeholders of a template from left to right; text that was put in is not looked at again. -/
def fill (name : List Char) : List Char → List Char
  | '\x7b' :: 'p' :: 'o' :: 'd' :: '\x7d' :: rest => name ++ fill name rest
  | c :: rest => c :: fill name rest
  | [] => []

def defaults : PathTemplates :=
  ⟨"/sys/fs/cgroup/cpu,cpuacct/kubepods/" ++ String.ofList placeholder,
    "/sys/kernel/gpu/gemini/pods/" ++ String.ofList placeholder⟩

def resolve (templates : PathTemplates) (kind : Kind) (pod : String) : String :=
  String.ofList (fill pod.toList (templates.get kind).toList)

end Template
end PodBudget.Node
