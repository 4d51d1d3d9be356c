import Mathlib
import PodBudget.Proofs.PodActs

/-!
One limit, asked for again and again. Nothing is written before the place of the control files is known. From then on
the first call attempts a write, and each later one does so exactly if it asks for something else than the call before
it; how the attempts end, and what the scheduler answers, has no part in that.
-/
namespace PodBudget

variable {σ α : Type}

/-- One call for a limit, what it answered and what it did. -/
structure Resource.Call (α : Type) where
  value : α
  outcome : LimitWrite
  acts : List (Act α)

/-- What a resource goes through: calls for a limit, readings of its counter, and changes of its weight. -/
inductive Resource.Turn (α : Type) where
  | ask (value : α)
  | sample (outcome : Except Node.ProbeFault Node.Reading)
  | weigh (weight : α)

namespace Resource

def Turn.value? : Turn α → Option α
  | .ask value => some value
  | _ => none

def asked (turns : List (Turn α)) : List α := turns.filterMap Turn.value?

def outcomeOf (acts : List (Act α)) : LimitWrite :=
  if acts.any fun act => act.written?.isSome then .written else .failed

variable [Number α]

def call (node : Node σ α) (resource : Resource α) (value : α) : Dealing σ α (Call α × Resource α) := fun scene =>
  let ((outcome, next), after) := resource.setLimit node value scene
  ((⟨value, outcome, after.acts.drop scene.acts.length⟩, next), after)

def live (node : Node σ α) (resource : Resource α) : List (Turn α) → Dealing σ α (List (Call α) × Resource α)
  | [] => return ([], resource)
  | .ask value :: rest => do
    let (call, resource) ← resource.call node value
    let (calls, resource) ← resource.live node rest
    return (call :: calls, resource)
  | .sample outcome :: rest => (resource.recordSample outcome).2.live node rest
  | .weigh weight :: rest => { resource with weight }.live node rest

theorem outcome_setLimit (node : Node σ α) (resource : Resource α) (value : α) :
    Dealing.Performs
      (fun out acts => out.1 = if resource.isInForce value then .unchanged else outcomeOf acts)
      (resource.setLimit node value) := by
  unfold setLimit isInForce
  split
  · exact Dealing.performs_pure rfl
  · split
    · exact Dealing.performs_pure rfl
    · refine (Dealing.performs_writeLimit node _ value).bind ?_
      rintro (fault | ⟨⟩) _ rfl
      · exact Dealing.performs_pure rfl
      · dsimp only
        split
        · refine (Dealing.performs_notify node).bind ?_
          rintro outcome _ rfl
          exact Dealing.performs_pure rfl
        · exact Dealing.performs_pure rfl

theorem performs_call (node : Node σ α) (resource : Resource α) (value : α) :
    Dealing.Performs
      (fun out acts => out = (⟨value, if resource.isInForce value then .unchanged else outcomeOf acts, acts⟩,
          resource.granted value) ∧ Attempts (resource.target? value) value acts)
      (resource.call node value) := by
  intro state
  obtain ⟨⟨outcome, next⟩, after, acts, ⟨⟨rfl, attempts⟩, rfl⟩, runs⟩ :=
    (performs_setLimit node resource value).and (outcome_setLimit node resource value) state
  refine ⟨_, after, acts, ⟨rfl, attempts⟩, ?_⟩
  intro before
  simp only [call, runs before, List.drop_left]

/-- The calls that turns can come to, whatever a node answers, and the record they leave. -/
inductive Lives : Resource α → List (Turn α) → List (Call α) → Resource α → Prop
  | done (resource : Resource α) : Lives resource [] [] resource
  | ask {resource after : Resource α} {value : α} {acts : List (Act α)} {turns : List (Turn α)} {calls : List (Call α)}
    (attempts : Attempts (resource.target? value) value acts)
    (rest : Lives (resource.granted value) turns calls after) :
    Lives resource (.ask value :: turns)
      (⟨value, if resource.isInForce value then .unchanged else outcomeOf acts, acts⟩ :: calls) after
  | sample {resource after : Resource α} {outcome : Except Node.ProbeFault Node.Reading} {turns : List (Turn α)}
    {calls : List (Call α)} (rest : Lives (resource.recordSample outcome).2 turns calls after) :
    Lives resource (.sample outcome :: turns) calls after
  | weigh {resource after : Resource α} {weight : α} {turns : List (Turn α)} {calls : List (Call α)}
    (rest : Lives { resource with weight } turns calls after) : Lives resource (.weigh weight :: turns) calls after

theorem performs_live (node : Node σ α) (resource : Resource α) (turns : List (Turn α)) :
    Dealing.Performs (fun out acts => acts = out.1.flatMap (·.acts) ∧ resource.Lives turns out.1 out.2)
      (resource.live node turns) := by
  induction turns generalizing resource with
  | nil => exact Dealing.performs_pure ⟨rfl, .done resource⟩
  | cons turn rest ih =>
    cases turn with
    | ask value =>
      refine (performs_call node resource value).bind ?_
      rintro _ first ⟨rfl, attempts⟩
      refine (ih (resource.granted value)).bind ?_
      rintro ⟨calls, after⟩ later ⟨rfl, lives⟩
      exact Dealing.performs_pure ⟨by simp, .ask attempts lives⟩
    | sample outcome =>
      exact (ih (resource.recordSample outcome).2).weaken fun _ _ lived => ⟨lived.1, .sample lived.2⟩
    | weigh weight => exact (ih { resource with weight }).weaken fun _ _ lived => ⟨lived.1, .weigh lived.2⟩

section

variable {resource after : Resource α} {turns : List (Turn α)} {calls : List (Call α)}
  (lives : resource.Lives turns calls after)
include lives

theorem Lives.values : calls.map (·.value) = asked turns := by
  induction lives with
  | done _ => rfl
  | ask _ _ ih => exact congrArg _ ih
  | sample _ ih => exact ih
  | weigh _ ih => exact ih

end

/-- The record has the limit that was asked for last, if there is one; of equal numbers it may have the other, such as a
zero of the other sign. -/
def Shows (resource : Resource α) (last : Option α) : Prop :=
  ∀ value, last = some value → resource.limit = value ∨ (value == resource.limit) = true

theorem shows_granted (resource : Resource α) (value : α) : (resource.granted value).Shows (some value) := by
  rintro _ ⟨⟩
  unfold granted
  split
  · next inForce => exact .inr (Bool.and_eq_true_iff.mp inForce).2
  · exact .inl rfl

theorem Shows.of_limit {resource other : Resource α} {last : Option α} (shows : resource.Shows last)
    (same : other.limit = resource.limit) : other.Shows last :=
  fun value asked => same ▸ shows value asked

theorem Lives.shows {resource after : Resource α} {turns : List (Turn α)} {calls : List (Call α)}
    (lives : resource.Lives turns calls after) {last : Option α} (shows : resource.Shows last) :
    after.Shows ((asked turns).getLast?.or last) := by
  induction lives generalizing last with
  | done _ => exact shows
  | @ask resource _ value _ turns _ _ _ ih =>
    have latest : (asked (.ask value :: turns)).getLast?.or last = (asked turns).getLast?.or (some value) := by
      change (value :: asked turns).getLast?.or last = _
      rw [List.getLast?_cons]
      cases (asked turns).getLast? <;> rfl
    rw [latest]
    exact ih (shows_granted resource value)
  | @sample resource _ outcome _ _ _ ih =>
    exact ih (shows.of_limit (congrArg Grant.limit (grant_recordSample resource outcome)))
  | weigh _ ih => exact ih (shows.of_limit rfl)

structure IsUnplaced (kind : Kind) (resource : Resource α) : Prop where
  kind : resource.kind = kind
  path : resource.path = none
  written : resource.written = false

omit [Number α] in
theorem IsUnplaced.handle? {kind : Kind} {resource : Resource α} (unplaced : resource.IsUnplaced kind) :
    resource.handle? = none := by
  rw [Resource.handle?, unplaced.path]
  rfl

structure Call.IsDeferred (call : Call α) : Prop where
  acts : call.acts = []
  outcome : call.outcome = .failed

theorem Lives.deferred {kind : Kind} {resource after : Resource α} {turns : List (Turn α)} {calls : List (Call α)}
    (lives : resource.Lives turns calls after) (unplaced : resource.IsUnplaced kind) :
    (∀ call ∈ calls, call.IsDeferred) ∧ after.IsUnplaced kind := by
  induction lives with
  | done _ => exact ⟨List.forall_mem_nil _, unplaced⟩
  | @ask resource _ value acts _ _ attempts _ ih =>
    have waits : resource.isInForce value = false := by rw [isInForce, unplaced.written, Bool.false_and]
    have nowhere : resource.target? value = none := by rw [target?, waits, unplaced.handle?]; rfl
    have next : (resource.granted value).IsUnplaced kind := by
      rw [granted, waits]
      exact ⟨unplaced.kind, unplaced.path, by simp [unplaced.written, unplaced.handle?]⟩
    rw [nowhere] at attempts
    obtain rfl : acts = [] := attempts
    obtain ⟨later, left⟩ := ih next
    refine ⟨List.forall_mem_cons.mpr ⟨⟨rfl, ?_⟩, later⟩, left⟩
    rw [waits]
    rfl
  | @sample resource _ outcome _ _ _ ih =>
    have written := congrArg Grant.written (grant_recordSample resource outcome)
    exact ih ⟨(kind_recordSample resource outcome).trans unplaced.kind,
      (path_recordSample resource outcome).trans unplaced.path, written.trans unplaced.written⟩
  | weigh _ ih => exact ih ⟨unplaced.kind, unplaced.path, unplaced.written⟩

def isNew : Option α → α → Bool
  | none, _ => true
  | some previous, value => !(value == previous)

/-- The record of a resource that was last asked for a limit since it has its place, if it was at all. -/
structure Recalls (resource : Resource α) (previous : Option α) : Prop where
  written : resource.written = previous.isSome
  shows : resource.Shows previous

theorem Recalls.isInForce_eq [PartialEquivBEq α] {resource : Resource α} {previous : Option α}
    (recalls : resource.Recalls previous) (value : α) : resource.isInForce value = !isNew previous value := by
  rw [isInForce, recalls.written]
  cases previous with
  | none => rfl
  | some previous =>
    have same : (value == resource.limit) = (value == previous) := by
      rcases recalls.shows previous rfl with exactly | equal
      · rw [exactly]
      · exact Bool.eq_iff_iff.mpr ⟨fun new => PartialEquivBEq.trans new (PartialEquivBEq.symm equal),
          fun new => PartialEquivBEq.trans new equal⟩
    simp [isNew, same]

/-- What comes of a call at a place, where a write is due or is not. -/
structure Call.Answers (call : Call α) (handle : Node.Handle) (due : Bool) : Prop where
  skipped : due = false → call.acts = []
  attempted : due = true → Attempt handle call.value call.acts
  unchanged : call.outcome = .unchanged ↔ due = false
  written : call.outcome = .written ↔ .wrote handle call.value (.ok ()) ∈ call.acts
  failed : call.outcome = .failed ↔ ∃ fault, .wrote handle call.value (.error fault) ∈ call.acts

omit [Number α] in
theorem answers_skipped (handle : Node.Handle) (value : α) :
    Call.Answers ⟨value, .unchanged, []⟩ handle false where
  skipped _ := rfl
  attempted := nofun
  unchanged := by simp
  written := by simp
  failed := by simp

omit [Number α] in
theorem answers_attempted {handle : Node.Handle} {value : α} {acts : List (Act α)}
    (attempt : Attempt handle value acts) : Call.Answers ⟨value, outcomeOf acts, acts⟩ handle true where
  skipped := nofun
  attempted _ := attempt
  unchanged := by cases attempt <;> simp [outcomeOf, Act.written?]
  written := by cases attempt <;> simp [outcomeOf, Act.written?]
  failed := by cases attempt <;> simp [outcomeOf, Act.written?]

def Diligent (handle : Node.Handle) : Option α → List (Call α) → Prop
  | _, [] => True
  | previous, call :: rest => call.Answers handle (isNew previous call.value) ∧ Diligent handle (some call.value) rest

theorem Lives.diligent [PartialEquivBEq α] {handle : Node.Handle} {resource after : Resource α}
    {turns : List (Turn α)} {calls : List (Call α)} (lives : resource.Lives turns calls after)
    {previous : Option α} (place : resource.handle? = some handle) (recalls : resource.Recalls previous) :
    Diligent handle previous calls := by
  induction lives generalizing previous with
  | done _ => trivial
  | @ask resource _ value acts _ _ attempts _ ih =>
    have force := recalls.isInForce_eq value
    have kept : (resource.granted value).handle? = some handle := by
      unfold granted
      split <;> exact place
    have asked : (resource.granted value).Recalls (some value) := by
      refine ⟨?_, shows_granted resource value⟩
      unfold granted
      split
      · next inForce => exact (Bool.and_eq_true_iff.mp inForce).1
      · simp [place]
    refine ⟨?_, ih kept asked⟩
    rw [target?, place] at attempts
    cases new : isNew previous value with
    | false =>
      simp only [new, Bool.not_false] at force
      rw [if_pos force] at attempts
      obtain rfl : acts = [] := attempts
      rw [if_pos force]
      exact answers_skipped handle value
    | true =>
      simp only [new, Bool.not_true] at force
      simp only [force, Bool.false_eq_true, ↓reduceIte] at attempts ⊢
      exact answers_attempted attempts
  | @sample resource _ outcome _ _ _ ih =>
    have same := grant_recordSample resource outcome
    exact ih ((congrArg Grant.handle? same).trans place)
      ⟨(congrArg Grant.written same).trans recalls.written, recalls.shows.of_limit (congrArg Grant.limit same)⟩
  | weigh _ ih => exact ih place ⟨recalls.written, recalls.shows.of_limit rfl⟩

theorem Diligent.getElem? {handle : Node.Handle} {first : Option α} {calls : List (Call α)}
    (diligent : Diligent handle first calls) {number : Nat} {previous call : Call α}
    (before : calls[number]? = some previous) (here : calls[number + 1]? = some call) :
    call.Answers handle (!(call.value == previous.value)) := by
  induction calls generalizing first number with
  | nil => cases before
  | cons head rest ih =>
    cases number with
    | succ number => exact ih diligent.2 before here
    | zero =>
      cases before
      cases rest with
      | nil => cases here
      | cons next _ =>
        cases here
        exact diligent.2.1

/-- However often limits are asked for, before a resource is given its place and after: nothing is written before;
after, the first call attempts a write, and each later one does so exactly if it asks for something else than the one
before it. Each call answers what came of its attempt, and the record has the limit of the latest. Of equality only
symmetry and transitivity are asked, which floats have too. -/
theorem limited_of_turns [PartialEquivBEq α] (node : Node σ α) (kind : Kind) (path : String)
    (before after : List (Turn α)) (scene : Scene σ α) :
    let early := (Resource.new kind).live node before scene
    let late := (early.1.2.attach path).live node after early.2
    early.1.1.map (·.value) = asked before ∧ late.1.1.map (·.value) = asked after ∧
      late.2.acts = scene.acts ++ late.1.1.flatMap (·.acts) ∧
      (∀ call ∈ early.1.1, call.IsDeferred) ∧
      (∀ call, late.1.1.head? = some call → call.Answers ⟨kind, path⟩ true) ∧
      (∀ number previous call, late.1.1[number]? = some previous → late.1.1[number + 1]? = some call →
        call.Answers ⟨kind, path⟩ (!(call.value == previous.value))) ∧
      late.1.2.Shows (asked (before ++ after)).getLast? := by
  intro early late
  obtain ⟨_, ⟨rfl, lives⟩, done⟩ := (performs_live node (Resource.new kind) before).on scene
  obtain ⟨_, ⟨rfl, livesOn⟩, doneOn⟩ := (performs_live node (early.1.2.attach path) after).on early.2
  have unplaced : (Resource.new kind : Resource α).IsUnplaced kind := ⟨rfl, rfl, rfl⟩
  obtain ⟨deferred, waiting⟩ := lives.deferred unplaced
  have silent : early.1.1.flatMap (·.acts) = [] :=
    List.flatMap_eq_nil_iff.mpr fun call member => (deferred call member).acts
  have place : (early.1.2.attach path).handle? = some ⟨kind, path⟩ := by
    rw [← waiting.kind]
    rfl
  have diligent : Diligent ⟨kind, path⟩ none late.1.1 :=
    livesOn.diligent place ⟨waiting.written, nofun⟩
  refine ⟨lives.values, livesOn.values, ?_, deferred, ?_, fun _ _ _ => diligent.getElem?, ?_⟩
  · rw [doneOn, done, silent, List.append_nil]
  · intro call first
    obtain ⟨rest, whole⟩ := List.head?_eq_some_iff.mp first
    rw [whole] at diligent
    exact diligent.1
  · have blank : (Resource.new kind : Resource α).Shows none := nofun
    have shown : early.1.2.Shows (asked before).getLast? := by simpa using lives.shows blank
    have latest : (asked (before ++ after)).getLast? = (asked after).getLast?.or (asked before).getLast? := by
      rw [asked, List.filterMap_append, List.getLast?_append]
      rfl
    rw [latest]
    exact livesOn.shows (shown.of_limit rfl)

/-- A node whose writes succeed or fail as its state says, one after another, and whose scheduler refuses everything. -/
private def moody : Node (List Bool) Float where
  resolve state _ := (none, state)
  read state handle := (.error (.missing handle.path), state)
  write state handle _ := (if state.head?.getD true then .ok () else .error (.missing handle.path), state.tail)
  rebalance state := (.error (.missing ""), state)

private def waiting : List (Turn Float) := [.ask 50, .sample (.ok ⟨5, 0⟩), .ask 40]

/-- The second call repeats one that fails, and the fourth asks for the zero of the other sign. -/
private def hesitant : List (Turn Float) := [.ask 40, .ask 40, .weigh 3, .ask 0, .ask (-0.0), .ask 40]

theorem limited_of_turns_hesitant :
    let early := (Resource.new .gpu).live moody waiting ⟨[false, true, false], []⟩
    let late := (early.1.2.attach "/gpu/web").live moody hesitant early.2
    late.1.1.map (·.outcome) = [.failed, .unchanged, .written, .unchanged, .failed] ∧
      late.2.acts = late.1.1.flatMap (·.acts) ∧ late.2.acts.countP Act.isRebalance = 1 ∧
      (late.1.2.limit = 40 ∨ ((40 : Float) == late.1.2.limit) = true) := by
  obtain ⟨_, _, acts, _, _, _, shows⟩ :=
    limited_of_turns moody .gpu "/gpu/web" waiting hesitant ⟨[false, true, false], []⟩
  exact ⟨by decide +kernel, acts, by decide +kernel, shows 40 rfl⟩

end Resource
end PodBudget
