import PodBudget.Api.Ledger
import PodBudget.Api.Server
import PodBudget.Proofs.Json.ReadsBack

/-!
The records of the library are read back from what they are written as, if their numbers are finite and their counts and
times fit the words that hold them. So are the documents that the agent serves.
-/
namespace PodBudget

section

variable {α : Type} [Number α]

-- Numbers are finite, and counts and times fit the words that hold them.

def Word.IsSigned (n : Int) : Prop := Word.leastSigned ≤ n ∧ n ≤ Word.mostSigned

def Admission.Fits (admission : Admission α) : Prop := Number.isFinite admission.reservation

structure PerKind.Fits (values : PerKind α) : Prop where
  cpu : Number.isFinite values.cpu
  gpu : Number.isFinite values.gpu

structure Policy.Fits (policy : Policy α) : Prop where
  staticWeight : Number.isFinite policy.staticWeight
  carryOver : Number.isFinite policy.carryOver
  minLimit : Number.isFinite policy.minLimit
  capacity : policy.capacity.Fits
  initialLimits : policy.initialLimits.Fits

structure ResourceSnapshot.Fits (resource : ResourceSnapshot α) : Prop where
  limit : Number.isFinite resource.limit
  usage : Number.isFinite resource.usage
  average : Number.isFinite resource.average
  weight : Number.isFinite resource.weight

structure PodSnapshot.Fits (pod : PodSnapshot α) : Prop where
  reservation : Number.isFinite pod.reservation
  queue : Number.isFinite pod.queue
  updates : pod.updates ≤ Word.most
  resources : ∀ resource ∈ pod.resources, resource.Fits

structure NodeSnapshot.Fits (node : NodeSnapshot α) : Prop where
  takenAt : Word.IsSigned node.takenAt
  running : ∀ pod ∈ node.running, pod.Fits
  notReady : ∀ pod ∈ node.notReady, pod.Fits
  completed : ∀ pod ∈ node.completed, pod.Fits

structure ComponentHealth.Fits (health : ComponentHealth) : Prop where
  failures : health.failures ≤ ComponentHealth.maxFailures
  updatedAt : Word.IsSigned health.updatedAt

def HealthReport.Fits (report : HealthReport) : Prop := ∀ part ∈ report.components.entries, part.2.Fits

structure Settings.Fits (settings : Settings α) : Prop where
  apiPort : settings.apiPort ≤ Word.most16
  periodSecs : settings.periodSecs ≤ Word.most
  discoverySecs : settings.discoverySecs ≤ Word.most
  tokensPerDevice : Number.isFinite settings.tokensPerDevice
  policy : settings.policy.Fits

end

namespace Json

open Codec

variable {α : Type}

theorem readsBack_signedWord {n : Int} (word : Word.IsSigned n) : (signedWord : Codec α Int).ReadsBack n :=
  readsBack_integer word.1 word.2

@[simp] theorem readsBack_kind (value : Kind) : (kind : Codec α Kind).ReadsBack value :=
  readsBack_variants (by cases value <;> decide)

@[simp] theorem readsBack_queueCap (value : QueueCap) : (queueCap : Codec α QueueCap).ReadsBack value :=
  readsBack_variants (by cases value <;> decide)

@[simp] theorem readsBack_podStatus (value : PodStatus) : (podStatus : Codec α PodStatus).ReadsBack value :=
  readsBack_variants (by cases value <;> decide)

@[simp] theorem readsBack_componentStatus (value : ComponentStatus) :
    (componentStatus : Codec α ComponentStatus).ReadsBack value :=
  readsBack_variants (by cases value <;> decide)

theorem readsBack_text (text : Option String) (inner : String) (_ : text = some inner) :
    (Codec.string : Codec α String).ReadsBack inner ∧ (Codec.string : Codec α String).write inner ≠ .null :=
  ⟨readsBack_string inner, by simp [Codec.string]⟩

theorem faithful_componentHealth : (componentHealth : Codec α ComponentHealth).Faithful ComponentHealth.Fits := by
  intro value fits
  have failures : (Codec.natural ComponentHealth.maxFailures : Codec α Nat).ReadsBack value.failures :=
    readsBack_natural fits.failures
  refine readsBack_record (by simp [Fields.names, Field.required, Field.omissible, Field.usual]) ?_ rfl
  simp [Fields.ReadsBack, Field.readsBack_omissible (readsBack_text value.message), Field.readsBack_usual failures,
    readsBack_signedWord fits.updatedAt]

theorem faithful_healthReport : (healthReport : Codec α HealthReport).Faithful HealthReport.Fits := by
  intro value fits
  have components : (Codec.roster componentHealth : Codec α _).ReadsBack value.components :=
    readsBack_roster fun part member => faithful_componentHealth part.2 (fits part member)
  refine readsBack_record (by simp [Fields.names, Field.required]) ?_ rfl
  simp [Fields.ReadsBack, components]

theorem faithful_readiness : (readiness : Codec α Readiness).Faithful fun _ => True := by
  intro value _
  refine readsBack_record (by simp [Fields.names, Field.required, Field.omissible]) ?_ rfl
  simp [Fields.ReadsBack, Field.readsBack_omissible (readsBack_text value.reason)]

theorem faithful_pathTemplates : (pathTemplates : Codec α Node.PathTemplates).Faithful fun _ => True := by
  intro value _
  refine readsBack_record (by simp [Fields.names, Field.required]) ?_ rfl
  simp [Fields.ReadsBack]

variable [Number α]

theorem faithful_perKind : (perKind : Codec α (PerKind α)).Faithful PerKind.Fits := by
  intro values fits
  have cpu : Codec.number.read (.ofValue (Codec.number.write values.cpu)) = .ok values.cpu := readsBack_number fits.cpu
  have gpu : Codec.number.read (.ofValue (Codec.number.write values.gpu)) = .ok values.gpu := readsBack_number fits.gpu
  simp only [ReadsBack, Codec.readValue, perKind, Draft.ofValue, Draft.ofItems, cpu, gpu]
  rfl

theorem faithful_policy : (policy : Codec α (Policy α)).Faithful Policy.Fits := by
  intro value fits
  refine readsBack_record (by simp [policyFields, Fields.names, Field.withDefault]) ?_ rfl
  simp [policyFields, Fields.ReadsBack, readsBack_number, fits.staticWeight, fits.carryOver, fits.minLimit,
    fits.capacity.cpu, fits.capacity.gpu, fits.initialLimits.cpu, fits.initialLimits.gpu]

theorem faithful_admission : (admission : Codec α (Admission α)).Faithful Admission.Fits := by
  intro value finite
  refine readsBack_record (by simp [Fields.names, Field.required]) ?_ rfl
  simp [Fields.ReadsBack, readsBack_number finite]

theorem faithful_resourceSnapshot :
    (resourceSnapshot : Codec α (ResourceSnapshot α)).Faithful ResourceSnapshot.Fits := by
  intro value fits
  refine readsBack_record (by simp [Fields.names, Field.required]) ?_ rfl
  simp [Fields.ReadsBack, readsBack_number, fits.limit, fits.usage, fits.average, fits.weight]

theorem faithful_podSnapshot : (podSnapshot : Codec α (PodSnapshot α)).Faithful PodSnapshot.Fits := by
  intro value fits
  have resources : (Codec.list resourceSnapshot).ReadsBack value.resources :=
    readsBack_list fun resource member => faithful_resourceSnapshot resource (fits.resources resource member)
  refine readsBack_record (by simp [Fields.names, Field.required]) ?_ rfl
  simp [Fields.ReadsBack, readsBack_number, unsignedWord, readsBack_natural, fits.reservation, fits.queue, fits.updates,
    resources]

theorem faithful_nodeSnapshot : (nodeSnapshot : Codec α (NodeSnapshot α)).Faithful NodeSnapshot.Fits := by
  intro value fits
  have stage {pods : List (PodSnapshot α)} (fits : ∀ pod ∈ pods, pod.Fits) : (Codec.list podSnapshot).ReadsBack pods :=
    readsBack_list fun pod member => faithful_podSnapshot pod (fits pod member)
  refine readsBack_record (by simp [Fields.names, Field.required]) ?_ rfl
  simp [Fields.ReadsBack, readsBack_signedWord fits.takenAt, stage fits.running, stage fits.notReady,
    stage fits.completed]

theorem faithful_settings : (settings : Codec α (Settings α)).Faithful Settings.Fits := by
  intro value fits
  refine readsBack_record (by simp [settingsFields, Fields.names, Field.withDefault]) ?_ rfl
  simp [settingsFields, Fields.ReadsBack, unsignedWord, readsBack_natural, readsBack_number, fits.apiPort,
    fits.periodSecs, fits.discoverySecs, fits.tokensPerDevice, readsBack_option (readsBack_text value.activityFile),
    faithful_policy value.policy fits.policy]

variable {ρ τ : Type}

/-- What is asked for at the target is a document that is read as the value. -/
def Serves {β : Type} (registry : Metrics.Registry ρ τ α) (state : Api.State ρ α) (target : String)
    (codec : Codec α β) (value : β) : Prop :=
  ∃ document, (Api.respond registry state "GET" target).1.body = .document document ∧
    codec.readValue document = .ok value

theorem serves_pods {registry : Metrics.Registry ρ τ α} {state : Api.State ρ α} {target : String}
    (route : Api.Route.ofPath? (Api.pathOf target) = some .pods) (fits : state.snapshot.Fits) :
    Serves registry state target nodeSnapshot state.snapshot := by
  refine ⟨nodeSnapshot.write state.snapshot, ?_, faithful_nodeSnapshot state.snapshot fits⟩
  simp [Api.respond, route, Api.answer, Api.respondJson]

theorem serves_health {registry : Metrics.Registry ρ τ α} {state : Api.State ρ α} {target : String}
    (route : Api.Route.ofPath? (Api.pathOf target) = some .health) (fits : state.health.summary.Fits) :
    Serves registry state target healthReport state.health.summary := by
  refine ⟨healthReport.write state.health.summary, ?_, faithful_healthReport state.health.summary fits⟩
  simp [Api.respond, route, Api.answer, Api.respondJson]

/-- Every record that fits is read back, and so is what is served of the node and of its health. -/
theorem restored_of_write :
    (policy : Codec α (Policy α)).Faithful Policy.Fits ∧ (admission : Codec α (Admission α)).Faithful Admission.Fits ∧
      (perKind : Codec α (PerKind α)).Faithful PerKind.Fits ∧
      (resourceSnapshot : Codec α (ResourceSnapshot α)).Faithful ResourceSnapshot.Fits ∧
      (podSnapshot : Codec α (PodSnapshot α)).Faithful PodSnapshot.Fits ∧
      (nodeSnapshot : Codec α (NodeSnapshot α)).Faithful NodeSnapshot.Fits ∧
      (componentHealth : Codec α ComponentHealth).Faithful ComponentHealth.Fits ∧
      (healthReport : Codec α HealthReport).Faithful HealthReport.Fits ∧
      (readiness : Codec α Readiness).Faithful (fun _ => True) ∧
      (pathTemplates : Codec α Node.PathTemplates).Faithful (fun _ => True) ∧
      (settings : Codec α (Settings α)).Faithful Settings.Fits ∧
      ∀ (registry : Metrics.Registry ρ τ α) (state : Api.State ρ α) (target : String),
        (Api.Route.ofPath? (Api.pathOf target) = some .pods → state.snapshot.Fits →
          Serves registry state target nodeSnapshot state.snapshot) ∧
        (Api.Route.ofPath? (Api.pathOf target) = some .health → state.health.summary.Fits →
          Serves registry state target healthReport state.health.summary) :=
  ⟨faithful_policy, faithful_admission, faithful_perKind, faithful_resourceSnapshot, faithful_podSnapshot,
    faithful_nodeSnapshot, faithful_componentHealth, faithful_healthReport, faithful_readiness, faithful_pathTemplates,
    faithful_settings, fun _ _ _ => ⟨serves_pods, serves_health⟩⟩

def sparse : Api.State (Metrics.Ledger Rat) Rat where
  health := Health.new.register Health.probePart (-1)
  metrics := .new
  snapshot := ⟨"", -1, [⟨"web", .running, 200, 1 / 3, 0, [⟨.gpu, 50, 0, 0, 0⟩]⟩], [], []⟩

theorem restored_of_write_sparse :
    (settings : Codec Rat (Settings Rat)).ReadsBack Settings.default ∧
      Serves Metrics.ledger sparse "/pods?name=web" nodeSnapshot sparse.snapshot ∧
      Serves Metrics.ledger sparse "/healthz" healthReport sparse.health.summary := by
  obtain ⟨-, -, -, -, -, -, -, -, -, -, agent, served⟩ := restored_of_write (α := Rat)
  refine ⟨agent _ ?_, (served Metrics.ledger sparse "/pods?name=web").1 (by decide) ?_,
    (served Metrics.ledger sparse "/healthz").2 (by decide) ?_⟩
  · exact ⟨by decide, by decide, by decide, rfl, rfl, rfl, rfl, ⟨rfl, rfl⟩, ⟨rfl, rfl⟩⟩
  · have resource : (⟨.gpu, 50, 0, 0, 0⟩ : ResourceSnapshot Rat).Fits := ⟨rfl, rfl, rfl, rfl⟩
    have pod : (⟨"web", .running, 200, 1 / 3, 0, [⟨.gpu, 50, 0, 0, 0⟩]⟩ : PodSnapshot Rat).Fits :=
      ⟨rfl, rfl, by decide, List.forall_mem_singleton.mpr resource⟩
    exact ⟨⟨by decide, by decide⟩, List.forall_mem_singleton.mpr pod, List.forall_mem_nil _, List.forall_mem_nil _⟩
  · exact List.forall_mem_singleton.mpr ⟨by decide, ⟨by decide, by decide⟩⟩

end Json
end PodBudget
