import PodBudget.Monitor.State

/-!
The gauges that a node exposes: for each running pod its account, and for each of its resources the limit, the usage and
the weight; and how many pods there are at each stage. A snapshot replaces all series of pods. What keeps the series is a
registry of some library, which the agent meets through the operations it uses.
-/
namespace PodBudget

inductive Gauge where
  | podQueue
  | podReservation
  | podUpdates
  | pods
  | resourceAverage
  | resourceWeight
  | resourceLimit
  | resourceUsage
  deriving DecidableEq, Repr

namespace Gauge

def name : Gauge → String
  | .podQueue => "tokenscale_pod_token_queue"
  | .podReservation => "tokenscale_pod_token_reservation"
  | .podUpdates => "tokenscale_pod_update_count"
  | .pods => "tokenscale_pods"
  | .resourceAverage => "tokenscale_resource_avg_usage"
  | .resourceWeight => "tokenscale_resource_dynamic_weight"
  | .resourceLimit => "tokenscale_resource_limit"
  | .resourceUsage => "tokenscale_resource_usage"

def help : Gauge → String
  | .podQueue => "Unspent tokens carried by a pod"
  | .podReservation => "Tokens per second reserved for a pod"
  | .podUpdates => "Number of allocation passes applied to a pod"
  | .pods => "Number of tracked pods by lifecycle status"
  | .resourceAverage => "Smoothed usage of a pod resource"
  | .resourceWeight => "Dynamic weight of a pod resource in the allocation objective"
  | .resourceLimit => "Current limit of a pod resource in percentage points"
  | .resourceUsage => "Most recent usage sample of a pod resource"

def labelNames : Gauge → List String
  | .resourceLimit | .resourceUsage | .resourceAverage | .resourceWeight => ["pod", "resource", "node"]
  | .podUpdates | .podReservation | .podQueue => ["pod", "node"]
  | .pods => ["status"]

/-- The gauges of which a snapshot drops all series. -/
def replaced : List Gauge :=
  [.resourceLimit, .resourceUsage, .resourceAverage, .resourceWeight, .podUpdates, .podReservation, .podQueue]

end Gauge

/-- One value of a gauge, with a value for each of the gauge's labels. -/
structure Series (α : Type) where
  gauge : Gauge
  values : List String
  value : α
  deriving DecidableEq, Repr

namespace Series

variable {α : Type}

def labels (series : Series α) : List (String × String) := series.gauge.labelNames.zip series.values

def Fits (series : Series α) : Prop := series.values.length = series.gauge.labelNames.length

end Series

structure Family (α : Type) where
  gauge : Gauge
  series : List (Series α)
  deriving DecidableEq, Repr

inductive Measurement (α : Type) where
  | cycle (seconds : α)
  | jointSolve
  | jointFailure
  | writeErrors (count : Nat)

inductive ExpositionLine (α : Type) where
  | comment (text : String)
  | sample (name : String) (value : α)
  deriving DecidableEq, Repr

namespace Metrics

structure Gathered (τ α : Type) where
  families : List (Family α)
  readings : τ

/-- A registry over its state `ρ`, with readings in `τ`. -/
structure Registry (ρ τ α : Type) where
  new : ρ
  reset : ρ → Gauge → ρ
  set : ρ → Series α → ρ
  measure : ρ → Measurement α → ρ
  gather : ρ → Gathered τ α
  encode : Gathered τ α → Except String (List (ExpositionLine α))

variable {ρ τ α : Type} [Number α]

def resourceSeries (node : String) (pod : PodSnapshot α) (resource : ResourceSnapshot α) : List (Series α) :=
  let values := [pod.name, resource.kind.name, node]
  [⟨.resourceLimit, values, resource.limit⟩, ⟨.resourceUsage, values, resource.usage⟩,
    ⟨.resourceAverage, values, resource.average⟩, ⟨.resourceWeight, values, resource.weight⟩]

def podSeries (node : String) (pod : PodSnapshot α) : List (Series α) :=
  let values := [pod.name, node]
  [⟨.podUpdates, values, Number.ofNat pod.updates⟩, ⟨.podReservation, values, pod.reservation⟩,
    ⟨.podQueue, values, pod.queue⟩]

def stageSeries (snapshot : NodeSnapshot α) : List (Series α) :=
  [("running", snapshot.running.length), ("not_ready", snapshot.notReady.length),
    ("completed", snapshot.completed.length)].map fun (stage, pods) => ⟨.pods, [stage], Number.ofNat pods⟩

def seriesOf (snapshot : NodeSnapshot α) : List (Series α) :=
  snapshot.running.flatMap (fun pod =>
    pod.resources.flatMap (resourceSeries snapshot.node pod) ++ podSeries snapshot.node pod) ++
  stageSeries snapshot

namespace Registry

/-- Shows a snapshot in place of the one before. -/
def publish (registry : Registry ρ τ α) (state : ρ) (snapshot : NodeSnapshot α) : ρ :=
  (seriesOf snapshot).foldl registry.set (Gauge.replaced.foldl registry.reset state)

def publishAndGather (registry : Registry ρ τ α) (state : ρ) (snapshot : NodeSnapshot α) : Gathered τ α × ρ :=
  let state := registry.publish state snapshot
  (registry.gather state, state)

end Registry
end Metrics
end PodBudget
