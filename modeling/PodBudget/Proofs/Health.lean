import Mathlib.Data.List.DropRight
import PodBudget.Api.Ledger
import PodBudget.Api.Server
import PodBudget.Proofs.Roster

/-!
What the registry remembers. A part stands as its own last report left it, with the failures that its reports end in
counted up to the largest word, and what others report leaves it alone. The node is as well as the worst part, and it
is ready only while it lives.
-/
namespace PodBudget

namespace ComponentStatus

theorem severity_injective {left right : ComponentStatus} (same : left.severity = right.severity) : left = right := by
  cases left <;> cases right <;> first | rfl | cases same

theorem isOperational_iff (status : ComponentStatus) : status.isOperational = true ↔ status ≠ .unhealthy := bne_iff_ne

/-- The largest of some statuses, and healthy if there are none. -/
structure IsWorst (status : ComponentStatus) (statuses : List ComponentStatus) : Prop where
  bound : ∀ other ∈ statuses, other.severity ≤ status.severity
  attained : status ∈ statuses ∨ statuses = [] ∧ status = .healthy

theorem IsWorst.unique {left right : ComponentStatus} {statuses : List ComponentStatus} (one : left.IsWorst statuses)
    (other : right.IsWorst statuses) : left = right := by
  rcases one.attained with first | ⟨rfl, rfl⟩
  · rcases other.attained with second | ⟨rfl, rfl⟩
    · exact severity_injective (Nat.le_antisymm (other.bound left first) (one.bound right second))
    · cases first
  · rcases other.attained with second | ⟨_, rfl⟩
    · cases second
    · rfl

theorem IsWorst.perm {status : ComponentStatus} {statuses others : List ComponentStatus}
    (worst : status.IsWorst statuses) (same : others.Perm statuses) : status.IsWorst others where
  bound other member := worst.bound other (same.mem_iff.mp member)
  attained := worst.attained.imp same.mem_iff.mpr fun ⟨nothing, well⟩ => ⟨(nothing ▸ same).eq_nil, well⟩

private theorem foldl_worse (statuses : List ComponentStatus) (start : ComponentStatus) :
    start.severity ≤ (statuses.foldl worse start).severity ∧
      (∀ other ∈ statuses, other.severity ≤ (statuses.foldl worse start).severity) ∧
      (statuses.foldl worse start = start ∨ statuses.foldl worse start ∈ statuses) := by
  induction statuses generalizing start with
  | nil => exact ⟨Nat.le_refl _, nofun, .inl rfl⟩
  | cons head rest ih =>
    obtain ⟨least, bound, found⟩ := ih (worse start head)
    rw [List.foldl_cons]
    by_cases before : start.severity < head.severity
    · rw [worse, if_pos before] at least bound found ⊢
      refine ⟨Nat.le_trans (Nat.le_of_lt before) least, ?_, .inr (List.mem_cons.mpr found)⟩
      intro other member
      rcases List.mem_cons.mp member with rfl | inside
      · exact least
      · exact bound other inside
    · rw [worse, if_neg before] at least bound found ⊢
      refine ⟨least, ?_, found.imp_right (List.mem_cons_of_mem head)⟩
      intro other member
      rcases List.mem_cons.mp member with rfl | inside
      · exact Nat.le_trans (Nat.le_of_not_lt before) least
      · exact bound other inside

theorem isWorst_worst (statuses : List ComponentStatus) : (worst statuses).IsWorst statuses := by
  obtain ⟨_, bound, found⟩ := foldl_worse statuses .healthy
  refine ⟨bound, ?_⟩
  rcases found with well | member
  · cases statuses with
    | nil => exact .inr ⟨rfl, rfl⟩
    | cons head rest =>
      -- Nothing is worse than healthy, so the first of them is healthy too.
      have mild : head.severity ≤ severity .healthy := well ▸ bound head List.mem_cons_self
      have same : head = .healthy := severity_injective (Nat.le_zero.mp mild)
      left
      change List.foldl worse healthy (head :: rest) ∈ head :: rest
      rw [well, same]
      exact List.mem_cons_self
  · exact .inl member

end ComponentStatus

namespace Health

inductive Statement where
  | registered
  | healthy
  | degraded (message : String)
  | unhealthy (message : String)
  | outcome (failure : Option String)

namespace Statement

def status : Statement → ComponentStatus
  | .registered | .healthy | .outcome none => .healthy
  | .degraded _ | .outcome (some _) => .degraded
  | .unhealthy _ => .unhealthy

def message? : Statement → Option String
  | .degraded message | .unhealthy message | .outcome (some message) => some message
  | .registered | .healthy | .outcome none => none

def isFailure : Statement → Bool
  | .outcome (some _) => true
  | _ => false

end Statement

inductive Call where
  | say (part : String) (statement : Statement) (time : Int)
  | declare (ready : Bool)

def Call.about? (part : String) : Call → Option (Statement × Int)
  | .say other statement time => if other = part then some (statement, time) else none
  | .declare _ => none

def Call.declared? : Call → Option Bool
  | .say .. => none
  | .declare ready => some ready

def say (health : Health) (part : String) (time : Int) : Statement → Health
  | .registered => health.register part time
  | .healthy => health.setHealthy part time
  | .degraded message => health.setDegraded part message time
  | .unhealthy message => health.setUnhealthy part message time
  | .outcome failure => health.report part failure time

def perform (health : Health) : Call → Health
  | .say part statement time => health.say part time statement
  | .declare ready => health.setReady ready

def history (calls : List Call) (part : String) : List (Statement × Int) := calls.filterMap (·.about? part)

/-- The length of the longest run of failures that a history ends in. -/
def streak (history : List (Statement × Int)) : Nat := (history.rtakeWhile fun said => said.1.isFailure).length

def account (history : List (Statement × Int)) : Option ComponentHealth :=
  history.getLast?.map fun said => ⟨said.1.status, said.1.message?, min (streak history) 4294967295, said.2⟩

def lastStatus? (calls : List Call) (part : String) : Option ComponentStatus :=
  (history calls part).getLast?.map (·.1.status)

theorem streak_concat (history : List (Statement × Int)) (statement : Statement) (time : Int) :
    streak (history ++ [(statement, time)]) = if statement.isFailure then streak history + 1 else 0 := by
  unfold streak
  rw [List.rtakeWhile_concat]
  split
  · exact List.length_append
  · rfl

theorem account_concat (history : List (Statement × Int)) (statement : Statement) (time : Int) :
    account (history ++ [(statement, time)]) =
      some ⟨statement.status, statement.message?,
        if statement.isFailure then min (streak history + 1) 4294967295 else 0, time⟩ := by
  rw [account, List.getLast?_concat, Option.map_some, streak_concat]
  split <;> rfl

theorem failures_account (history : List (Statement × Int)) :
    ((account history).map (·.failures)).getD 0 = min (streak history) 4294967295 := by
  cases history using List.reverseRecOn with
  | nil => rfl
  | append_singleton earlier last =>
    rw [account, List.getLast?_concat]
    rfl

theorem get?_say (health : Health) (part other : String) (statement : Statement) (time : Int) :
    (health.say part time statement).components.get? other =
      if part = other then
        some ⟨statement.status, statement.message?,
          if statement.isFailure then
            min (((health.components.get? part).map (·.failures)).getD 0 + 1) 4294967295
          else 0, time⟩
      else health.components.get? other := by
  rcases statement with _ | _ | _ | _ | (_ | _) <;> exact Roster.get?_insert ..

theorem declaredReady_say (health : Health) (part : String) (statement : Statement) (time : Int) :
    (health.say part time statement).declaredReady = health.declaredReady := by
  rcases statement with _ | _ | _ | _ | (_ | _) <;> rfl

theorem get?_perform {health : Health} {calls : List Call} {part : String}
    (known : health.components.get? part = account (history calls part)) (call : Call) :
    (health.perform call).components.get? part = account (history (calls ++ [call]) part) := by
  have longer : history (calls ++ [call]) part = history calls part ++ [call].filterMap (·.about? part) :=
    List.filterMap_append
  rw [longer]
  cases call with
  | declare ready => exact known.trans (congrArg account (List.append_nil _).symm)
  | say other statement time =>
    rw [perform, get?_say]
    by_cases mine : other = part
    · subst mine
      have said : [Call.say other statement time].filterMap (·.about? other) = [(statement, time)] := by
        simp [Call.about?]
      rw [if_pos rfl, known, said, account_concat, failures_account]
      congr 2
      split
      · omega
      · rfl
    · have silent : [Call.say other statement time].filterMap (·.about? part) = [] := by
        simp [Call.about?, mine]
      rw [if_neg mine, silent, List.append_nil, known]

theorem get?_foldl_perform (calls : List Call) (part : String) :
    (calls.foldl perform new).components.get? part = account (history calls part) := by
  induction calls using List.reverseRecOn with
  | nil => rfl
  | append_singleton earlier call ih =>
    rw [List.foldl_concat]
    exact get?_perform ih call

theorem declaredReady_foldl_perform (calls : List Call) :
    (calls.foldl perform new).declaredReady = ((calls.filterMap Call.declared?).getLast?.getD false) := by
  induction calls using List.reverseRecOn with
  | nil => rfl
  | append_singleton earlier call ih =>
    rw [List.foldl_concat, List.filterMap_append]
    cases call with
    | say part statement time =>
      rw [perform, declaredReady_say, ih]
      exact congrArg (fun said => said.getLast?.getD false) (List.append_nil _).symm
    | declare ready => exact (congrArg (Option.getD · false) List.getLast?_concat).symm

theorem lastStatus?_eq (calls : List Call) (part : String) :
    ((calls.foldl perform new).components.get? part).map (·.status) = lastStatus? calls part := by
  rw [get?_foldl_perform, account, lastStatus?, Option.map_map]
  rfl

theorem mem_statuses_iff (calls : List Call) (status : ComponentStatus) :
    status ∈ (calls.foldl perform new).components.values.map (·.status) ↔
      ∃ part, lastStatus? calls part = some status := by
  simp only [List.mem_map, Roster.mem_values_iff, ← lastStatus?_eq, Option.map_eq_some_iff]
  constructor
  · rintro ⟨component, ⟨part, found⟩, same⟩
    exact ⟨part, component, found, same⟩
  · rintro ⟨part, component, found, same⟩
    exact ⟨component, ⟨part, found⟩, same⟩

theorem ready_iff (health : Health) :
    health.readiness.ready = true ↔ health.declaredReady = true ∧ health.status ≠ .unhealthy := by
  rw [← ComponentStatus.isOperational_iff]
  unfold readiness
  cases health.declaredReady <;> cases health.status.isOperational <;> simp

end Health

namespace Api

variable {ρ τ α : Type} [Number α]

omit [Number α] in
theorem status_respondJson (isWell : Bool) (value : Json.Value α) :
    (respondJson isWell value).status = 200 ↔ isWell = true := by
  cases isWell <;> simp [respondJson]

theorem status_respond {target : String} {route : Route} (known : Route.ofPath? (pathOf target) = some route)
    (registry : Metrics.Registry ρ τ α) (state : State ρ α) (method : String) :
    (respond registry state method target).1.status = 200 ↔
      (method = "GET" ∨ method = "HEAD") ∧ (answer registry state route).1.status = 200 := by
  unfold respond
  rw [known]
  by_cases read : method = "GET"
  · simp [read]
  · by_cases head : method = "HEAD"
    · simp [head]
    · simp [read, head, notAllowed]

theorem status_readyz (registry : Metrics.Registry ρ τ α) (state : State ρ α) (method : String) :
    (respond registry state method "/readyz").1.status = 200 ↔
      (method = "GET" ∨ method = "HEAD") ∧ state.health.readiness.ready = true := by
  rw [status_respond (show Route.ofPath? (pathOf "/readyz") = some .readiness by decide), answer, status_respondJson]

theorem status_healthz (registry : Metrics.Registry ρ τ α) (state : State ρ α) (method : String) :
    (respond registry state method "/healthz").1.status = 200 ↔
      (method = "GET" ∨ method = "HEAD") ∧ state.health.status ≠ .unhealthy := by
  rw [status_respond (show Route.ofPath? (pathOf "/healthz") = some .health by decide), answer, status_respondJson,
    ComponentStatus.isOperational_iff]

end Api

namespace Health

/-- After any calls each part stands as its own last report left it, whatever is said of others: its status and message
are those of that report, and its failures are those that its own history ends in, as far as a word of 32 bits goes. The
node is as well as the worst part, in whichever order the parts are asked, and healthy where none has reported. It is
ready if and only if that was declared last and no part is unhealthy; so who finds it ready finds it alive. -/
theorem known_of_calls {α : Type} [Number α] (calls : List Call) :
    let health := calls.foldl perform new
    (∀ part, health.components.get? part = account (history calls part)) ∧
    (∀ order, order.Perm (health.components.values.map (·.status)) → health.status = .worst order) ∧
    (∀ part status, lastStatus? calls part = some status → status.severity ≤ health.status.severity) ∧
    ((∃ part, lastStatus? calls part = some health.status) ∨
      (∀ part, history calls part = []) ∧ health.status = .healthy) ∧
    (health.readiness.ready = true ↔
      (calls.filterMap Call.declared?).getLast? = some true ∧ ∀ part, lastStatus? calls part ≠ some .unhealthy) ∧
    ∀ {ρ τ : Type} (registry : Metrics.Registry ρ τ α) (metrics : ρ) (snapshot : NodeSnapshot α) (method : String),
      (Api.respond registry ⟨health, metrics, snapshot⟩ method "/readyz").1.status = 200 →
        (Api.respond registry ⟨health, metrics, snapshot⟩ method "/healthz").1.status = 200 := by
  intro health
  have worst : health.status.IsWorst (health.components.values.map (·.status)) := ComponentStatus.isWorst_worst _
  have ready := health.ready_iff
  refine ⟨get?_foldl_perform calls, ?_, ?_, ?_, ?_, ?_⟩
  · intro order same
    exact (worst.perm same).unique (ComponentStatus.isWorst_worst order)
  · intro part status said
    exact worst.bound status ((mem_statuses_iff calls status).mpr ⟨part, said⟩)
  · refine worst.attained.imp (mem_statuses_iff calls health.status).mp ?_
    rintro ⟨nothing, well⟩
    refine ⟨fun part => ?_, well⟩
    have silent : lastStatus? calls part = none := by
      rw [Option.eq_none_iff_forall_ne_some]
      intro status said
      have member := (mem_statuses_iff calls status).mpr ⟨part, said⟩
      rw [nothing] at member
      cases member
    exact List.getLast?_eq_none_iff.mp (Option.map_eq_none_iff.mp silent)
  · have declared : health.declaredReady = true ↔ (calls.filterMap Call.declared?).getLast? = some true := by
      rw [declaredReady_foldl_perform]
      cases (calls.filterMap Call.declared?).getLast? <;> simp
    have operational : health.status ≠ .unhealthy ↔ ∀ part, lastStatus? calls part ≠ some .unhealthy := by
      constructor
      · intro well part said
        have least := worst.bound _ ((mem_statuses_iff calls _).mpr ⟨part, said⟩)
        cases overall : health.status with
        | healthy => exact absurd (overall ▸ least) (by decide)
        | degraded => exact absurd (overall ▸ least) (by decide)
        | unhealthy => exact well overall
      · intro none ill
        rcases worst.attained with member | ⟨_, well⟩
        · obtain ⟨part, said⟩ := (mem_statuses_iff calls _).mp member
          exact none part (ill ▸ said)
        · cases well.symm.trans ill
    rw [ready, declared, operational]
  · intro ρ τ registry metrics snapshot method
    rw [Api.status_readyz, Api.status_healthz]
    exact And.imp_right fun isReady => (ready.mp isReady).2

/-- Discovery fails, is set back and fails again, while the probe reports in between. -/
private def interleaved : List Call :=
  [.say monitorPart .registered 1, .say discoveryPart (.outcome (some "refused")) 2, .declare true,
    .say discoveryPart (.outcome none) 3, .say discoveryPart (.outcome (some "refused")) 4,
    .say probePart (.degraded "1 limit writes failed") 5, .say discoveryPart (.outcome (some "gone")) 6]

theorem known_of_calls_interleaved :
    let health := interleaved.foldl perform new
    health.components.get? discoveryPart = some ⟨.degraded, some "gone", 2, 6⟩ ∧
      health.status = .worst [.degraded, .healthy, .degraded] ∧ health.readiness.ready = true ∧
      (Api.respond (Metrics.ledger (α := Rat)) ⟨health, .new, .blank "node"⟩ "GET" "/healthz").1.status = 200 := by
  obtain ⟨records, order, -, -, ready, answers⟩ := known_of_calls (α := Rat) interleaved
  have isReady : (interleaved.foldl perform new).readiness.ready = true := by decide +kernel
  refine ⟨(records discoveryPart).trans (by decide +kernel), order _ (by decide +kernel), isReady, ?_⟩
  exact answers Metrics.ledger .new (.blank "node") "GET" ((Api.status_readyz ..).mpr ⟨.inl rfl, isReady⟩)

end Health
end PodBudget
