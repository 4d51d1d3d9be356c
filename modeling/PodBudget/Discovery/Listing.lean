/-! Listings of the pods on a node, with the devices and processors that their containers hold. -/
namespace PodBudget.Discovery

structure Devices where
  resource : String
  ids : List String
  deriving DecidableEq, Repr

structure Container where
  name : String
  devices : List Devices
  cpuIds : List Int
  deriving DecidableEq, Repr

structure ListedPod where
  name : String
  domain : String
  containers : List Container
  deriving DecidableEq, Repr

abbrev Listing := List ListedPod

def ListedPod.count (pod : ListedPod) (resource : String) : Nat :=
  (((pod.containers.flatMap (·.devices)).filter (·.resource == resource)).flatMap (·.ids)).length

end PodBudget.Discovery
