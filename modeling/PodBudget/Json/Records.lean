import PodBudget.Json.Codec
import PodBudget.Settings.Basic

/-! How the records of the library are written as JSON and read from it. -/
namespace PodBudget.Json

variable {α : Type} [Number α]

open Codec Codec.Field

def signedWord : Codec α Int := .integer Word.leastSigned Word.mostSigned

def unsignedWord : Codec α Nat := .natural Word.most

def kind : Codec α Kind :=
  .variants (Kind.all.map fun kind => (kind.name, kind)) Kind.name

def queueCap : Codec α QueueCap :=
  .variants ([QueueCap.unbounded, .reservation].map fun cap => (cap.name, cap)) QueueCap.name

def podStatus : Codec α PodStatus :=
  .variants ([PodStatus.initializing, .notReady, .running, .completed].map fun status => (status.name, status))
    PodStatus.name

def componentStatus : Codec α ComponentStatus :=
  .variants ([ComponentStatus.healthy, .degraded, .unhealthy].map fun status => (status.name, status))
    ComponentStatus.name

/-- A value for each kind is an array of two. -/
def perKind : Codec α (PerKind α) where
  write values := .array [Codec.number.write values.cpu, Codec.number.write values.gpu]
  read
    | .array (cpu :: gpu :: rest) ending => do
      let cpu ← Codec.number.read cpu
      let gpu ← Codec.number.read gpu
      if rest.isEmpty then
        ending.close
        return ⟨cpu, gpu⟩
      else throw .malformed
    | .array items ending => do
      for item in items do
        let _ ← (Codec.number (α := α)).read item
      ending.pass
      throw .mistyped
    | draft => .error (mistyped draft)

def policyFields : Fields α [α, α, QueueCap, α, α, α, α, α] :=
  let usual : Policy α := Policy.default
  .cons (withDefault "static_weight" .number usual.staticWeight) <|
  .cons (withDefault "carry_over" .number usual.carryOver) <|
  .cons (withDefault "queue_cap" queueCap usual.queueCap) <|
  .cons (withDefault "min_limit" .number usual.minLimit) <|
  .cons (withDefault "cpu_capacity" .number usual.capacity.cpu) <|
  .cons (withDefault "gpu_capacity" .number usual.capacity.gpu) <|
  .cons (withDefault "initial_cpu_limit" .number usual.initialLimits.cpu) <|
  .cons (withDefault "initial_gpu_limit" .number usual.initialLimits.gpu) .nil

def policy : Codec α (Policy α) :=
  .record policyFields
    (fun p => (p.staticWeight, p.carryOver, p.queueCap, p.minLimit, p.capacity.cpu, p.capacity.gpu,
      p.initialLimits.cpu, p.initialLimits.gpu, ()))
    (fun (staticWeight, carryOver, queueCap, minLimit, cpuCapacity, gpuCapacity, cpuInitial, gpuInitial, ()) =>
      { staticWeight, carryOver, queueCap, minLimit, capacity := ⟨cpuCapacity, gpuCapacity⟩
        initialLimits := ⟨cpuInitial, gpuInitial⟩ })

def admission : Codec α (Admission α) :=
  .record (.cons (required "name" .string) <| .cons (required "token_reservation" .number) .nil)
    (fun a => (a.name, a.reservation, ()))
    (fun (name, reservation, ()) => { name, reservation })

def resourceSnapshot : Codec α (ResourceSnapshot α) :=
  .record
    (.cons (required "kind" kind) <|
      .cons (required "limit" .number) <|
      .cons (required "usage" .number) <|
      .cons (required "avg_usage" .number) <|
      .cons (required "dynamic_weight" .number) .nil)
    (fun s => (s.kind, s.limit, s.usage, s.average, s.weight, ()))
    (fun (kind, limit, usage, average, weight, ()) => { kind, limit, usage, average, weight })

def podSnapshot : Codec α (PodSnapshot α) :=
  .record
    (.cons (required "name" .string) <|
      .cons (required "status" podStatus) <|
      .cons (required "token_reservation" .number) <|
      .cons (required "token_queue" .number) <|
      .cons (required "update_count" unsignedWord) <|
      .cons (required "resources" (.list resourceSnapshot)) .nil)
    (fun s => (s.name, s.status, s.reservation, s.queue, s.updates, s.resources, ()))
    (fun (name, status, reservation, queue, updates, resources, ()) =>
      { name, status, reservation, queue, updates, resources })

def nodeSnapshot : Codec α (NodeSnapshot α) :=
  .record
    (.cons (required "node_name" .string) <|
      .cons (required "taken_at" signedWord) <|
      .cons (required "running" (.list podSnapshot)) <|
      .cons (required "not_ready" (.list podSnapshot)) <|
      .cons (required "completed" (.list podSnapshot)) .nil)
    (fun s => (s.node, s.takenAt, s.running, s.notReady, s.completed, ()))
    (fun (node, takenAt, running, notReady, completed, ()) => { node, takenAt, running, notReady, completed })

def componentHealth : Codec α ComponentHealth :=
  .record
    (.cons (required "status" componentStatus) <|
      .cons (omissible "message" .string) <|
      .cons (usual "consecutive_failures" (.natural ComponentHealth.maxFailures) 0) <|
      .cons (required "updated_at" signedWord) .nil)
    (fun h => (h.status, h.message, h.failures, h.updatedAt, ()))
    (fun (status, message, failures, updatedAt, ()) => { status, message, failures, updatedAt })

def healthReport : Codec α HealthReport :=
  .record
    (.cons (required "status" componentStatus) <|
      .cons (required "components" (.roster componentHealth)) .nil)
    (fun h => (h.status, h.components, ()))
    (fun (status, components, ()) => { status, components })

def readiness : Codec α Readiness :=
  .record (.cons (required "ready" .bool) <| .cons (omissible "reason" .string) .nil)
    (fun r => (r.ready, r.reason, ()))
    (fun (ready, reason, ()) => { ready, reason })

def pathTemplates : Codec α Node.PathTemplates :=
  .record (.cons (required "cpu" .string) <| .cons (required "gpu" .string) .nil)
    (fun t => (t.cpu, t.gpu, ()))
    (fun (cpu, gpu, ()) => ⟨cpu, gpu⟩)

def settingsFields : Fields α
    [String, Nat, Nat, Nat, Bool, String, String, α, String, String, String, String, Option String, Policy α] :=
  let usual : Settings α := Settings.default
  .cons (withDefault "node_name" .string usual.nodeName) <|
  .cons (withDefault "api_port" (.natural Word.most16) usual.apiPort) <|
  .cons (withDefault "monitoring_period_secs" unsignedWord usual.periodSecs) <|
  .cons (withDefault "discovery_interval_secs" unsignedWord usual.discoverySecs) <|
  .cons (withDefault "monitoring_only" .bool usual.monitoringOnly) <|
  .cons (withDefault "kubelet_socket" .string usual.kubeletSocket) <|
  .cons (withDefault "token_resource_name" .string usual.tokenResource) <|
  .cons (withDefault "tokens_per_device" .number usual.tokensPerDevice) <|
  .cons (withDefault "cgroup_root" .string usual.groupRoot) <|
  .cons (withDefault "cpu_path_template" .string usual.templates.cpu) <|
  .cons (withDefault "gpu_path_template" .string usual.templates.gpu) <|
  .cons (withDefault "gemini_conf_path" .string usual.rebalanceFile) <|
  .cons (withDefault "activity_pulse_path" (.option .string) usual.activityFile) <|
  .cons (withDefault "allocation" policy usual.policy) .nil

def settings : Codec α (Settings α) :=
  .record settingsFields
    (fun s => (s.nodeName, s.apiPort, s.periodSecs, s.discoverySecs, s.monitoringOnly, s.kubeletSocket,
      s.tokenResource, s.tokensPerDevice, s.groupRoot, s.templates.cpu, s.templates.gpu, s.rebalanceFile,
      s.activityFile, s.policy, ()))
    (fun (nodeName, apiPort, periodSecs, discoverySecs, monitoringOnly, kubeletSocket, tokenResource,
        tokensPerDevice, groupRoot, cpuTemplate, gpuTemplate, rebalanceFile, activityFile, policy, ()) =>
      { nodeName, apiPort, periodSecs, discoverySecs, monitoringOnly, kubeletSocket, tokenResource,
        tokensPerDevice, groupRoot, templates := ⟨cpuTemplate, gpuTemplate⟩, rebalanceFile, activityFile,
        policy })

end PodBudget.Json
