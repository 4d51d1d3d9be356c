import PodBudget.Json.Records
import PodBudget.Proofs.Json.Members

/-!
Settings out of an object that gives some of them. The members that are given replace what they name, one by one, also
within the settings of the allocation, and all the rest stays as it is by default.
-/
namespace PodBudget
namespace Json

open Codec

variable {α β : Type}

namespace Value

def IsText (written : Value α) (text : String) : Prop := written = .string text

def IsFlag (written : Value α) (flag : Bool) : Prop := written = .bool flag

def IsCount (most : Nat) (written : Value α) (count : Nat) : Prop := written = .integer count ∧ count ≤ most

def IsNumber [Number α] (written : Value α) (number : α) : Prop :=
  written = .float number ∨ ∃ whole, written = .integer whole ∧ Number.ofInt whole = number

def IsTextOrNull (written : Value α) : Option String → Prop
  | none => written = .null
  | some text => written.IsText text

def IsCap (written : Value α) (cap : QueueCap) : Prop :=
  written = .string cap.name ∨ written = .object [(cap.name, .null)]

end Value

/-- The codec reads the values that have a meaning, as what they mean. -/
def Codec.Hears (codec : Codec α β) (means : Value α → β → Prop) : Prop :=
  ∀ written value, codec.read (.ofValue written) = .ok value ↔ means written value

theorem hears_text : (Codec.string : Codec α String).Hears Value.IsText := by
  intro written value
  cases written <;> simp [Codec.string, Draft.ofValue, Value.IsText]

theorem hears_flag : (Codec.bool : Codec α Bool).Hears Value.IsFlag := by
  intro written value
  cases written <;> simp [Codec.bool, Draft.ofValue, Value.IsFlag]

theorem hears_count (most : Nat) : (Codec.natural most : Codec α Nat).Hears (Value.IsCount most) := by
  intro written value
  cases written with
  | integer whole =>
    by_cases inside : 0 ≤ whole ∧ whole ≤ most
    · simp only [Codec.natural, Codec.integer, Draft.ofValue, inside, and_self, ↓reduceIte, Except.map,
        Except.ok.injEq, Value.IsCount, Value.integer.injEq]
      omega
    · simp only [Codec.natural, Codec.integer, Draft.ofValue, inside, ↓reduceIte, Except.map, reduceCtorEq,
        Value.IsCount, Value.integer.injEq, false_iff]
      omega
  | _ => simp [Codec.natural, Codec.integer, Draft.ofValue, Except.map, Value.IsCount]

theorem hears_number [Number α] : (Codec.number : Codec α α).Hears Value.IsNumber := by
  intro written value
  cases written <;> simp [Codec.number, Draft.ofValue, Value.IsNumber]

theorem hears_textOrNull : (Codec.string.option : Codec α (Option String)).Hears Value.IsTextOrNull := by
  intro written value
  cases written <;> cases value <;>
    simp [Codec.option, Codec.string, Draft.ofValue, Except.map, Value.IsTextOrNull, Value.IsText]

theorem find_variant_iff {names : List (String × β)} {text : String} {value : β} :
    Codec.variants.find names text = .ok value ↔ names.lookup text = some value := by
  cases found : names.lookup text <;> simp [Codec.variants.find, found]

theorem read_variant_iff {names : List (String × β)} {name : β → String} {text : String} {inner : Value α}
    {rest : List (String × Value α)} {value : β} :
    (Codec.variants names name).read (.ofValue (.object ((text, inner) :: rest))) = .ok value ↔
      names.lookup text = some value ∧ inner = .null ∧ rest = [] := by
  simp only [Codec.variants, Draft.ofValue, Draft.ofMembers, ← find_variant_iff]
  cases Codec.variants.find names text with
  | error fault => simp [bind, Except.bind]
  | ok known =>
    cases inner <;> cases rest <;>
      simp [Draft.ofValue, Draft.ofMembers, bind, Except.bind, pure, Except.pure, throw, throwThe,
        MonadExceptOf.throw, Ending.close]

theorem hears_variants (names : List (String × β)) (name : β → String) :
    (Codec.variants names name : Codec α β).Hears fun written value => ∃ text, names.lookup text = some value ∧
      (written = .string text ∨ written = .object [(text, .null)]) := by
  intro written value
  match written with
  | .string text => simp [Codec.variants, Draft.ofValue, find_variant_iff]
  | .object [] => simp [Codec.variants, Draft.ofValue, Draft.ofMembers]
  | .object ((text, inner) :: rest) =>
    rw [read_variant_iff]
    constructor
    · rintro ⟨found, rfl, rfl⟩
      exact ⟨text, found, .inr rfl⟩
    · rintro ⟨other, found, same | same⟩
      · cases same
      · cases same
        exact ⟨found, rfl, rfl⟩
  | .null | .bool _ | .integer _ | .float _ | .array _ => simp [Codec.variants, Draft.ofValue]

theorem lookup_cap_iff {text : String} {cap : QueueCap} :
    ([QueueCap.unbounded, .reservation].map fun cap => (cap.name, cap)).lookup text = some cap ↔ text = cap.name := by
  constructor
  · intro found
    obtain ⟨before, after, listed, _⟩ := List.lookup_eq_some_iff.mp found
    have member : (text, cap) ∈ [QueueCap.unbounded, .reservation].map fun cap => (cap.name, cap) := by simp [listed]
    obtain ⟨_, _, same⟩ := List.mem_map.mp member
    cases same
    rfl
  · rintro rfl
    cases cap <;> decide

theorem hears_cap : (queueCap : Codec α QueueCap).Hears Value.IsCap := by
  intro written value
  rw [queueCap, hears_variants]
  simp only [lookup_cap_iff, exists_eq_left]
  rfl

def Meaningful (means : Value α → β → Prop) (written : Value α) : Prop := ∃ value, means written value

/-- A name, and the values that may stand under it. -/
abbrev Form (α : Type) : Type := String × (Value α → Prop)

def Typed (forms : List (Form α)) (members : List (String × Value α)) : Prop :=
  ∀ form ∈ forms, ∀ written, (form.1, written) ∈ members → form.2 written

/-- A value as the member of its name gives it, or as it usually is if there is no such member. -/
def Given (members : List (String × Value α)) (name : String) (means : Value α → β → Prop) (usual value : β) : Prop :=
  (∀ written, (name, written) ∈ members → means written value) ∧ (name ∉ members.map (·.1) → value = usual)

def known (forms : List (Form α)) : List String := forms.map (·.1)

theorem reads_of_typed {forms : List (Form α)} {members : List (String × Value α)} (typed : Typed forms members)
    {codec : Codec α β} {means : Value α → β → Prop} (hears : codec.Hears means) {own : String} {usual : β}
    (listed : (own, Meaningful means) ∈ forms) {name : String} {written : Value α}
    (member : (name, written) ∈ members) : name = own → (Field.withDefault own codec usual).Reads written := by
  rintro rfl
  obtain ⟨value, meant⟩ := typed _ listed written member
  exact ⟨value, (hears written value).mpr meant⟩

theorem given_of_holds {members : List (String × Value α)} {codec : Codec α β} {means : Value α → β → Prop}
    (hears : codec.Hears means) {name : String} {usual value : β}
    (holds : (Field.withDefault name codec usual).Holds members value) : Given members name means usual value :=
  ⟨fun written member => (hears written value).mp (holds.1 written member),
    fun absent => (Option.some.inj (holds.2 absent)).symm⟩

variable [Number α]

def policyForms : List (Form α) :=
  [("static_weight", Meaningful Value.IsNumber),
    ("carry_over", Meaningful Value.IsNumber),
    ("queue_cap", Meaningful Value.IsCap),
    ("min_limit", Meaningful Value.IsNumber),
    ("cpu_capacity", Meaningful Value.IsNumber),
    ("gpu_capacity", Meaningful Value.IsNumber),
    ("initial_cpu_limit", Meaningful Value.IsNumber),
    ("initial_gpu_limit", Meaningful Value.IsNumber)]

def TypedPolicy (written : Value α) : Prop := ∃ inner, written = .object inner ∧ Typed policyForms inner

def settingsForms : List (Form α) :=
  [("node_name", Meaningful Value.IsText),
    ("api_port", Meaningful (Value.IsCount Word.most16)),
    ("monitoring_period_secs", Meaningful (Value.IsCount Word.most)),
    ("discovery_interval_secs", Meaningful (Value.IsCount Word.most)),
    ("monitoring_only", Meaningful Value.IsFlag),
    ("kubelet_socket", Meaningful Value.IsText),
    ("token_resource_name", Meaningful Value.IsText),
    ("tokens_per_device", Meaningful Value.IsNumber),
    ("cgroup_root", Meaningful Value.IsText),
    ("cpu_path_template", Meaningful Value.IsText),
    ("gpu_path_template", Meaningful Value.IsText),
    ("gemini_conf_path", Meaningful Value.IsText),
    ("activity_pulse_path", Meaningful Value.IsTextOrNull),
    ("allocation", TypedPolicy)]

end Json

section

open Json

variable {α : Type} [Number α]

/-- The default policy with the given members in place of what they name. -/
structure Policy.Overrides (policy : Policy α) (members : List (String × Value α)) : Prop where
  staticWeight : Given members "static_weight" Value.IsNumber Policy.default.staticWeight policy.staticWeight
  carryOver : Given members "carry_over" Value.IsNumber Policy.default.carryOver policy.carryOver
  queueCap : Given members "queue_cap" Value.IsCap (Policy.default : Policy α).queueCap policy.queueCap
  minLimit : Given members "min_limit" Value.IsNumber Policy.default.minLimit policy.minLimit
  cpuCapacity : Given members "cpu_capacity" Value.IsNumber Policy.default.capacity.cpu policy.capacity.cpu
  gpuCapacity : Given members "gpu_capacity" Value.IsNumber Policy.default.capacity.gpu policy.capacity.gpu
  cpuInitial :
    Given members "initial_cpu_limit" Value.IsNumber Policy.default.initialLimits.cpu policy.initialLimits.cpu
  gpuInitial :
    Given members "initial_gpu_limit" Value.IsNumber Policy.default.initialLimits.gpu policy.initialLimits.gpu

/-- The default settings with the given members in place of what they name. -/
structure Settings.Overrides (settings : Settings α) (members : List (String × Value α)) : Prop where
  nodeName : Given members "node_name" Value.IsText (default : Settings α).nodeName settings.nodeName
  apiPort : Given members "api_port" (Value.IsCount Word.most16) (default : Settings α).apiPort settings.apiPort
  periodSecs :
    Given members "monitoring_period_secs" (Value.IsCount Word.most) (default : Settings α).periodSecs
      settings.periodSecs
  discoverySecs :
    Given members "discovery_interval_secs" (Value.IsCount Word.most) (default : Settings α).discoverySecs
      settings.discoverySecs
  monitoringOnly :
    Given members "monitoring_only" Value.IsFlag (default : Settings α).monitoringOnly settings.monitoringOnly
  kubeletSocket :
    Given members "kubelet_socket" Value.IsText (default : Settings α).kubeletSocket settings.kubeletSocket
  tokenResource :
    Given members "token_resource_name" Value.IsText (default : Settings α).tokenResource settings.tokenResource
  tokensPerDevice : Given members "tokens_per_device" Value.IsNumber default.tokensPerDevice settings.tokensPerDevice
  groupRoot : Given members "cgroup_root" Value.IsText (default : Settings α).groupRoot settings.groupRoot
  cpuTemplate :
    Given members "cpu_path_template" Value.IsText (default : Settings α).templates.cpu settings.templates.cpu
  gpuTemplate :
    Given members "gpu_path_template" Value.IsText (default : Settings α).templates.gpu settings.templates.gpu
  rebalanceFile :
    Given members "gemini_conf_path" Value.IsText (default : Settings α).rebalanceFile settings.rebalanceFile
  activityFile :
    Given members "activity_pulse_path" Value.IsTextOrNull (default : Settings α).activityFile settings.activityFile
  policy :
    Given members "allocation" (fun written policy => ∃ inner, written = .object inner ∧ policy.Overrides inner)
      default.policy settings.policy

end

namespace Json

open Codec

variable {α : Type} [Number α]

theorem nodup_policyFields : (policyFields : Fields α _).names.Nodup := by
  simp [policyFields, Fields.names, Field.withDefault]

theorem reads_policy {members : List (String × Value α)} (typed : Typed policyForms members) :
    ∀ member ∈ members, policyFields.Reads member := by
  rintro ⟨name, written⟩ member
  have plain {β : Type} {codec : Codec α β} {means : Value α → β → Prop} (hears : codec.Hears means) {own : String}
      {usual : β} (listed : (own, Meaningful means) ∈ policyForms) :
      name = own → (Field.withDefault own codec usual).Reads written :=
    reads_of_typed typed hears listed member
  refine ⟨plain hears_number ?_, plain hears_number ?_, plain hears_cap ?_, plain hears_number ?_,
    plain hears_number ?_, plain hears_number ?_, plain hears_number ?_, plain hears_number ?_, trivial⟩
  all_goals simp [policyForms, Field.withDefault]

theorem overridden_policy {members : List (String × Value α)} (typed : Typed policyForms members)
    (once : Once (known (policyForms : List (Form α))) members) :
    ∃ value, policy.readValue (.object members) = .ok value ∧ value.Overrides members := by
  obtain ⟨⟨staticWeight, carryOver, queueCap, minLimit, cpuCapacity, gpuCapacity, cpuInitial, gpuInitial, ⟨⟩⟩, read,
    holds⟩ := record_of_members nodup_policyFields (by simp [Fields.All, policyFields, Field.withDefault])
      (reads_policy typed) once
  obtain ⟨weight, carry, cap, least, cpu, gpu, cpuFirst, gpuFirst, _⟩ := holds
  exact ⟨_, read,
    { staticWeight := given_of_holds hears_number weight
      carryOver := given_of_holds hears_number carry
      queueCap := given_of_holds hears_cap cap
      minLimit := given_of_holds hears_number least
      cpuCapacity := given_of_holds hears_number cpu
      gpuCapacity := given_of_holds hears_number gpu
      cpuInitial := given_of_holds hears_number cpuFirst
      gpuInitial := given_of_holds hears_number gpuFirst }⟩

theorem fault_of_policy {members : List (String × Value α)} (typed : Typed policyForms members) {fault : Fault}
    (failed : policy.readValue (.object members) = .error fault) : fault = .mistyped :=
  fault_of_record (fun member inside => (reads_policy typed member inside).heeds) failed

theorem nodup_settingsFields : (settingsFields : Fields α _).names.Nodup := by
  simp [settingsFields, Fields.names, Field.withDefault]

theorem all_settings {members : List (String × Value α)} (typed : Typed settingsForms members) {name : String}
    {written : Value α} (member : (name, written) ∈ members) {property : {β : Type} → Codec.Field α β → Prop}
    (reads : ∀ {β : Type} (field : Codec.Field α β), field.Reads written → property field)
    (allocation : ∀ inner, (name, written) = ("allocation", .object inner) → Typed policyForms inner →
      property (Field.withDefault "allocation" policy (Settings.default : Settings α).policy)) :
    settingsFields.All fun field => name = field.name → property field := by
  have plain {β : Type} {codec : Codec α β} {means : Value α → β → Prop} (hears : codec.Hears means) {own : String}
      {usual : β} (listed : (own, Meaningful means) ∈ settingsForms) :
      name = own → property (Field.withDefault own codec usual) :=
    fun same => reads _ (reads_of_typed typed hears listed member same)
  refine ⟨plain hears_text ?_, plain (hears_count _) ?_, plain (hears_count _) ?_, plain (hears_count _) ?_,
    plain hears_flag ?_, plain hears_text ?_, plain hears_text ?_, plain hears_number ?_, plain hears_text ?_,
    plain hears_text ?_, plain hears_text ?_, plain hears_text ?_, plain hears_textOrNull ?_, ?_, trivial⟩
  case refine_14 =>
    rintro rfl
    obtain ⟨inner, rfl, typed⟩ := typed ("allocation", TypedPolicy) (by simp [settingsForms]) written member
    exact allocation inner rfl typed
  all_goals simp [settingsForms, Field.withDefault]

theorem heeds_settings {members : List (String × Value α)} (typed : Typed settingsForms members) :
    ∀ member ∈ members, settingsFields.Heeds member := by
  rintro ⟨name, written⟩ member
  refine all_settings typed member (fun _ reads => reads.heeds) ?_
  rintro inner ⟨⟩ typed fault failed
  exact fault_of_policy typed failed

theorem reads_settings {members : List (String × Value α)} (typed : Typed settingsForms members)
    (once : ∀ inner, ("allocation", .object inner) ∈ members → Once (known (policyForms : List (Form α))) inner) :
    ∀ member ∈ members, settingsFields.Reads member := by
  rintro ⟨name, written⟩ member
  refine all_settings typed member (fun _ reads => reads) ?_
  rintro inner ⟨⟩ typed
  obtain ⟨value, read, _⟩ := overridden_policy typed (once inner member)
  exact ⟨value, read⟩

theorem given_policy {members : List (String × Value α)} (typed : Typed settingsForms members)
    (once : ∀ inner, ("allocation", .object inner) ∈ members → Once (known (policyForms : List (Form α))) inner)
    {usual value : Policy α} (holds : (Field.withDefault "allocation" policy usual).Holds members value) :
    Given members "allocation" (fun written policy => ∃ inner, written = .object inner ∧ policy.Overrides inner) usual
      value := by
  refine ⟨fun written member => ?_, fun absent => (Option.some.inj (holds.2 absent)).symm⟩
  obtain ⟨inner, rfl, typed⟩ := typed ("allocation", TypedPolicy) (by simp [settingsForms]) written member
  obtain ⟨other, read, overrides⟩ := overridden_policy typed (once inner member)
  obtain rfl : other = value := Except.ok.inj (read.symm.trans (holds.1 _ member))
  exact ⟨inner, rfl, overrides⟩

theorem overridden_settings {members : List (String × Value α)} (typed : Typed settingsForms members)
    (once : Once (known (settingsForms : List (Form α))) members)
    (inside : ∀ inner, ("allocation", .object inner) ∈ members → Once (known (policyForms : List (Form α))) inner) :
    ∃ value, settings.readValue (.object members) = .ok value ∧ value.Overrides members := by
  obtain ⟨⟨nodeName, apiPort, periodSecs, discoverySecs, monitoringOnly, kubeletSocket, tokenResource, tokensPerDevice,
    groupRoot, cpuTemplate, gpuTemplate, rebalanceFile, activityFile, policy, ⟨⟩⟩, read, holds⟩ :=
      record_of_members nodup_settingsFields (by simp [Fields.All, settingsFields, Field.withDefault])
        (reads_settings typed inside) once
  obtain ⟨node, port, period, discovery, only, socket, token, tokens, root, cpu, gpu, file, activity, allocation, _⟩ :=
    holds
  exact ⟨_, read,
    { nodeName := given_of_holds hears_text node
      apiPort := given_of_holds (hears_count _) port
      periodSecs := given_of_holds (hears_count _) period
      discoverySecs := given_of_holds (hears_count _) discovery
      monitoringOnly := given_of_holds hears_flag only
      kubeletSocket := given_of_holds hears_text socket
      tokenResource := given_of_holds hears_text token
      tokensPerDevice := given_of_holds hears_number tokens
      groupRoot := given_of_holds hears_text root
      cpuTemplate := given_of_holds hears_text cpu
      gpuTemplate := given_of_holds hears_text gpu
      rebalanceFile := given_of_holds hears_text file
      activityFile := given_of_holds hears_textOrNull activity
      policy := given_policy typed inside allocation }⟩

/-- Settings are read out of any object whose known members are of their forms and come once, also within the
allocation: what is given takes the place of the default, and nothing else does. A known member that comes again makes
it a fault of type, whatever it says and whatever follows. -/
theorem overridden_of_members :
    (∀ members : List (String × Value α), Typed settingsForms members →
      Once (known (settingsForms : List (Form α))) members →
      (∀ inner, ("allocation", .object inner) ∈ members → Once (known (policyForms : List (Form α))) inner) →
      ∃ value, settings.readValue (.object members) = .ok value ∧ value.Overrides members) ∧
    (∀ (before after : List (String × Value α)) (name : String) (written : Value α), Typed settingsForms before →
      name ∈ known (settingsForms : List (Form α)) → name ∈ before.map (·.1) →
      settings.readValue (.object (before ++ (name, written) :: after)) = .error .mistyped) ∧
    ∀ (before after inner rest : List (String × Value α)) (name : String) (written : Value α),
      Typed settingsForms before → Typed policyForms inner →
      name ∈ known (policyForms : List (Form α)) → name ∈ inner.map (·.1) →
      settings.readValue (.object (before ++ ("allocation", .object (inner ++ (name, written) :: rest)) :: after)) =
        .error .mistyped := by
  refine ⟨fun members => overridden_settings, fun before after name written typed listed again => ?_,
    fun before after inner rest name written outside typed listed again => ?_⟩
  · exact record_repeated nodup_settingsFields (heeds_settings typed) listed again
  · have twice : policy.read (.ofValue (.object (inner ++ (name, written) :: rest))) = .error .mistyped :=
      record_repeated nodup_policyFields (fun member inside => (reads_policy typed member inside).heeds) listed again
    have allocation : "allocation" ∈ (settingsFields : Fields α _).names := by
      simp [settingsFields, Fields.names, Field.withDefault]
    refine record_refused nodup_settingsFields (heeds_settings outside) allocation ?_
    simpa [settingsFields, Fields.All, Field.withDefault] using twice

def loosePolicy : List (String × Value Rat) :=
  [("queue_cap", .object [("reservation", .null)]), ("later", .array [.null]), ("gpu_capacity", .integer 200)]

def looseSettings : List (String × Value Rat) :=
  [("allocation", .object loosePolicy), ("extra", .object [("api_port", .null)]), ("api_port", .integer 8080),
    ("activity_pulse_path", .string "/run/pulse")]

theorem overridden_of_members_loose :
    (∃ value, settings.readValue (.object looseSettings) = .ok value ∧ value.Overrides looseSettings) ∧
      settings.readValue (.object (looseSettings ++ [("api_port", .null)])) = .error .mistyped ∧
      settings.readValue (.object (looseSettings.tail ++
        [("allocation", .object (loosePolicy ++ [("gpu_capacity", .string "all"), ("min_limit", .null)])),
          ("node_name", .integer 0)])) = .error .mistyped := by
  have typedPolicy : Typed policyForms loosePolicy := by
    have cap : Meaningful Value.IsCap (.object [("reservation", .null)] : Value Rat) := ⟨.reservation, .inr rfl⟩
    have capacity : Meaningful Value.IsNumber (.integer 200 : Value Rat) := ⟨_, .inr ⟨200, rfl, rfl⟩⟩
    simp [Typed, policyForms, loosePolicy, cap, capacity]
  have typed : Typed settingsForms looseSettings := by
    have port : Meaningful (Value.IsCount Word.most16) (.integer 8080 : Value Rat) := ⟨8080, rfl, by decide⟩
    have file : Meaningful Value.IsTextOrNull (.string "/run/pulse" : Value Rat) := ⟨some "/run/pulse", rfl⟩
    have allocation : TypedPolicy (.object loosePolicy : Value Rat) := ⟨loosePolicy, rfl, typedPolicy⟩
    simp [Typed, settingsForms, looseSettings, port, file, allocation]
  have typedTail : Typed settingsForms looseSettings.tail :=
    fun form listed written member => typed form listed written (List.mem_of_mem_tail member)
  refine ⟨overridden_of_members.1 looseSettings typed (by simp [Once, known, settingsForms, looseSettings]) ?_,
    overridden_of_members.2.1 looseSettings [] "api_port" .null typed (by simp [known, settingsForms])
      (by simp [looseSettings]),
    overridden_of_members.2.2 looseSettings.tail [("node_name", .integer 0)] loosePolicy [("min_limit", .null)]
      "gpu_capacity" (.string "all") typedTail typedPolicy (by simp [known, policyForms]) (by simp [loosePolicy])⟩
  simp [looseSettings, loosePolicy, Once, known, policyForms]

end Json
end PodBudget
