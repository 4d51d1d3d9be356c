import PodBudget.Api.Gauges
import PodBudget.Json.Records

/-!
What the agent answers over HTTP: whether it lives, whether it is ready, its metrics and its pods. Each of these
has a path of its own, which can be read and nothing else.
-/
namespace PodBudget.Api

inductive Route where
  | health
  | readiness
  | metrics
  | pods
  deriving DecidableEq, Repr

def Route.ofPath? : String → Option Route
  | "/healthz" => some .health
  | "/readyz" => some .readiness
  | "/metrics" => some .metrics
  | "/pods" => some .pods
  | _ => none

/-- The path of a request target: what comes before the query and the fragment, and behind the host of a target
that names one. -/
def pathOf (target : String) : String :=
  let plain := target.toList.takeWhile fun c => c != '?' && c != '#'
  String.ofList (afterHost plain)
where
  afterHost : List Char → List Char
    | ':' :: '/' :: '/' :: rest =>
      match rest.dropWhile (· != '/') with
      | [] => ['/']
      | path => path
    | '/' :: rest => '/' :: rest
    | c :: rest => if rest = [] then [c] else afterHost rest
    | [] => []

inductive Body (α : Type) where
  | empty
  | document (value : Json.Value α)
  | exposition (lines : List (ExpositionLine α))

structure Response (α : Type) where
  status : Nat
  contentType : Option String
  allow : Option String
  body : Body α

variable {α : Type}

def jsonType : String := "application/json"
def textType : String := "text/plain; charset=utf-8"

def allowed : String := "GET,HEAD"

def notFound : Response α := ⟨404, none, none, .empty⟩
def notAllowed : Response α := ⟨405, none, some allowed, .empty⟩

def respondJson (isWell : Bool) (value : Json.Value α) : Response α :=
  ⟨if isWell then 200 else 503, some jsonType, none, .document value⟩

def failed : Response α := ⟨500, none, none, .empty⟩

structure State (ρ α : Type) where
  health : Health
  metrics : ρ
  snapshot : NodeSnapshot α

variable {ρ τ : Type} [Number α]

def answer (registry : Metrics.Registry ρ τ α) (state : State ρ α) : Route → Response α × State ρ α
  | .health => (respondJson state.health.status.isOperational (Json.healthReport.write state.health.summary), state)
  | .readiness =>
    let readiness := state.health.readiness
    (respondJson readiness.ready (Json.readiness.write readiness), state)
  | .metrics =>
    let (gathered, metrics) := registry.publishAndGather state.metrics state.snapshot
    let response := match registry.encode gathered with
      | .ok lines => ⟨200, some textType, none, .exposition lines⟩
      | .error _ => failed
    (response, { state with metrics })
  | .pods => (respondJson true (Json.nodeSnapshot.write state.snapshot), state)

/-- Answers a request. A request for the head alone is answered without a body. -/
def respond (registry : Metrics.Registry ρ τ α) (state : State ρ α) (method target : String) :
    Response α × State ρ α :=
  match Route.ofPath? (pathOf target) with
  | none => (notFound, state)
  | some route =>
    if method = "GET" then answer registry state route
    else if method = "HEAD" then
      let (response, state) := answer registry state route
      ({ response with body := .empty }, state)
    else (notAllowed, state)

end PodBudget.Api
