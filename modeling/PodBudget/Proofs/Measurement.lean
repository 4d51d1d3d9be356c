import Mathlib.Algebra.Order.Field.Basic
import Mathlib.Algebra.Order.Field.Rat
import Mathlib.Tactic.Linarith
import PodBudget.Proofs.PodReadings
import PodBudget.Proofs.Rational

/-!
What a resource learns from its readings. Whatever the readings are, usage and average stay between 0 and the largest
plausible usage. Between readings that advance plausibly all work of the counter is accounted for, each reading taking
up where the last successful one left off, however many attempts failed in between.
-/
namespace PodBudget

theorem Kind.scale_pos (kind : Kind) : (0 : ℚ) < kind.scale := by
  cases kind <;> simp [scale]

namespace Resource

section

variable {α : Type} [Number α]

def credited (kind : Kind) (before after : Node.Reading) : α :=
  if maxPlausible < (usageBetween kind before after : α) then 0 else usageBetween kind before after

/-- All that one reading can do to a resource. -/
inductive Records (resource : Resource α) : Except Node.ProbeFault Node.Reading → Bool × Resource α → Prop
  | missing (path : String) : Records resource (.error (.missing path)) (false, resource)
  | faulty {fault : Node.ProbeFault} (present : fault.isMissing = false) :
    Records resource (.error fault) (true, resource.observe 0)
  | first {reading : Node.Reading} (fresh : resource.lastReading = none) :
    Records resource (.ok reading) (true, { resource with lastReading := some reading })
  | later {before reading : Node.Reading} (known : resource.lastReading = some before) :
    Records resource (.ok reading)
      (true, { resource with lastReading := some reading }.observe (credited resource.kind before reading))

theorem records_recordSample (resource : Resource α) (outcome : Except Node.ProbeFault Node.Reading) :
    resource.Records outcome (resource.recordSample outcome) := by
  rcases outcome with (path | _ | _) | reading
  · exact .missing path
  · exact .faulty rfl
  · exact .faulty rfl
  · unfold recordSample
    cases known : resource.lastReading with
    | none => exact .first known
    | some before => exact .later known

end

structure InRange (resource : Resource ℚ) : Prop where
  usage : 0 ≤ resource.usage ∧ resource.usage ≤ 1000
  average : 0 ≤ resource.average ∧ resource.average ≤ 1000

theorem inRange_new (kind : Kind) : InRange (new kind) := by
  have zero : (0 : ℚ) ≤ 0 ∧ (0 : ℚ) ≤ 1000 := by norm_num
  exact ⟨zero, zero⟩

theorem usageBetween_nonneg (kind : Kind) (before after : Node.Reading) : 0 ≤ (usageBetween kind before after : ℚ) := by
  unfold usageBetween
  dsimp only
  split
  · next elapsed => exact div_nonneg (Nat.cast_nonneg _) (mul_pos kind.scale_pos elapsed).le
  · exact le_rfl

theorem credited_mem (kind : Kind) (before after : Node.Reading) :
    0 ≤ (credited kind before after : ℚ) ∧ (credited kind before after : ℚ) ≤ 1000 := by
  unfold credited
  split
  · exact ⟨le_rfl, by norm_num⟩
  · next bounded => exact ⟨usageBetween_nonneg kind before after, not_lt.mp bounded⟩

theorem InRange.observe {resource : Resource ℚ} (inRange : resource.InRange) {usage : ℚ}
    (within : 0 ≤ usage ∧ usage ≤ 1000) : (resource.observe usage).InRange := by
  obtain ⟨least, most⟩ := inRange.average
  refine ⟨within, ?_, ?_⟩
  · change 0 ≤ (7 * resource.average + usage) / 8
    linarith
  · change (7 * resource.average + usage) / 8 ≤ 1000
    linarith

section

variable {resource : Resource ℚ} {out : Bool × Resource ℚ}

theorem Records.inRange {outcome : Except Node.ProbeFault Node.Reading} (records : resource.Records outcome out)
    (before : resource.InRange) : out.2.InRange := by
  cases records with
  | missing path => exact before
  | faulty present => exact before.observe ⟨le_rfl, by norm_num⟩
  | first fresh => exact ⟨before.usage, before.average⟩
  | @later _ reading known =>
    have noted : InRange { resource with lastReading := some reading } := ⟨before.usage, before.average⟩
    exact noted.observe (credited_mem ..)

theorem Records.lastReading_of_error {fault : Node.ProbeFault} (records : resource.Records (.error fault) out) :
    out.2.lastReading = resource.lastReading := by
  cases records <;> rfl

theorem Records.lastReading_of_ok {reading : Node.Reading} (records : resource.Records (.ok reading) out) :
    out.2.lastReading = some reading := by
  cases records <;> rfl

theorem Records.usage_of_ok {before reading : Node.Reading} (records : resource.Records (.ok reading) out)
    (known : resource.lastReading = some before) : out.2.usage = credited resource.kind before reading := by
  cases records with
  | first fresh => cases fresh.symm.trans known
  | later other =>
    cases other.symm.trans known
    rfl

theorem Records.of_missing {fault : Node.ProbeFault} (records : resource.Records (.error fault) out)
    (missing : fault.isMissing = true) : out.2 = resource := by
  cases records with
  | missing path => rfl
  | faulty present => cases missing.symm.trans present

theorem Records.of_faulty {fault : Node.ProbeFault} (records : resource.Records (.error fault) out)
    (present : fault.isMissing = false) : out.2 = resource.observe 0 := by
  cases records with
  | missing path => cases present
  | faulty _ => rfl

end

end Resource

namespace Pod

def InRange (pod : Pod ℚ) : Prop := ∀ kind, (pod.resource kind).InRange

theorem inRange_new (name : String) (reservation : ℚ) : InRange (new name reservation) := by
  rintro (_ | _)
  · exact Resource.inRange_new .cpu
  · exact Resource.inRange_new .gpu

/-- Takes readings in one after another, each at the resource of its kind, also after one whose source is missing. -/
def recordCalls (pod : Pod ℚ) (calls : Readings) : Pod ℚ :=
  calls.foldl (fun pod call => pod.setResource call.1 ((pod.resource call.1).recordSample call.2).2) pod

theorem InRange.recordCalls {pod : Pod ℚ} (inRange : pod.InRange) (calls : Readings) :
    (pod.recordCalls calls).InRange := by
  induction calls generalizing pod with
  | nil => exact inRange
  | cons call rest ih =>
    refine ih fun kind => ?_
    rw [resource_setResource]
    split
    · exact (Resource.records_recordSample _ call.2).inRange (inRange call.1)
    · exact inRange kind

end Pod

namespace Resource

/-- Time has passed between two readings, the counter has not fallen, and the usage is plausible. -/
structure Advances (kind : Kind) (before after : Node.Reading) : Prop where
  later : before.instant < after.instant
  grown : before.value ≤ after.value
  bounded : (usageBetween kind before after : ℚ) ≤ 1000

theorem Advances.credited_mul {kind : Kind} {before after : Node.Reading} (advances : Advances kind before after) :
    credited kind before after * kind.scale * Number.seconds (after.instant - before.instant) =
      (after.value - before.value : ℚ) := by
  have elapsed : (0 : ℚ) < Number.seconds (after.instant - before.instant) := by
    rw [Number.seconds_eq]
    exact div_pos (Nat.cast_pos.mpr (Nat.sub_pos_of_lt advances.later)) (by norm_num)
  have spread : (kind.scale : ℚ) * Number.seconds (after.instant - before.instant) ≠ 0 :=
    (mul_pos kind.scale_pos elapsed).ne'
  have kept : (credited kind before after : ℚ) = usageBetween kind before after :=
    if_neg (not_lt.mpr advances.bounded)
  rw [kept, usageBetween, if_pos elapsed, mul_assoc, div_mul_cancel₀ _ spread, Number.ofNat_rat,
    Nat.cast_sub advances.grown]

theorem recordAll_concat (resource : Resource ℚ) (outcomes : List (Except Node.ProbeFault Node.Reading))
    (outcome : Except Node.ProbeFault Node.Reading) :
    resource.recordAll (outcomes ++ [outcome]) = ((resource.recordAll outcomes).recordSample outcome).2 :=
  List.foldl_concat ..

def succeeded (outcomes : List (Except Node.ProbeFault Node.Reading)) : List Node.Reading :=
  outcomes.filterMap Except.toOption

def recorded (resource : Resource ℚ) : List (Except Node.ProbeFault Node.Reading) → List (Node.Reading × ℚ)
  | [] => []
  | .error fault :: rest => (resource.recordSample (.error fault)).2.recorded rest
  | .ok reading :: rest =>
    (reading, (resource.recordSample (.ok reading)).2.usage) :: (resource.recordSample (.ok reading)).2.recorded rest

/-- The work that usages stand for, in units of the counter: each holds from the reading before up to its own. -/
def work (kind : Kind) : List (Node.Reading × ℚ) → ℚ
  | before :: after :: rest =>
    after.2 * kind.scale * Number.seconds (after.1.instant - before.1.instant) + work kind (after :: rest)
  | _ => 0

theorem fst_recorded (resource : Resource ℚ) (outcomes : List (Except Node.ProbeFault Node.Reading)) :
    (resource.recorded outcomes).map (·.1) = succeeded outcomes := by
  induction outcomes generalizing resource with
  | nil => rfl
  | cons outcome rest ih =>
    rcases outcome with fault | reading
    · exact ih _
    · exact congrArg (reading :: ·) (ih _)

/-- From a known reading on, the usages on record stand for all that the counter has grown. -/
theorem work_recorded {kind : Kind} {resource : Resource ℚ} (same : resource.kind = kind) {base : Node.Reading}
    (known : resource.lastReading = some base) (usage : ℚ) (outcomes : List (Except Node.ProbeFault Node.Reading))
    (advances : (base :: succeeded outcomes).IsChain (Advances kind)) :
    work kind ((base, usage) :: resource.recorded outcomes) =
      (((succeeded outcomes).getLastD base).value - base.value : ℚ) := by
  induction outcomes generalizing resource base usage with
  | nil => exact (sub_self _).symm
  | cons outcome rest ih =>
    have records := records_recordSample resource outcome
    have next := (kind_recordSample resource outcome).trans same
    rcases outcome with fault | reading
    · exact ih next (records.lastReading_of_error.trans known) usage advances
    · obtain ⟨step, onward⟩ := List.isChain_cons_cons.mp advances
      have here := records.usage_of_ok known
      rw [same] at here
      have later := ih next records.lastReading_of_ok (credited kind base reading) onward
      have last : (succeeded (.ok reading :: rest)).getLastD base = (succeeded rest).getLastD reading :=
        List.getLastD_cons ..
      rw [recorded, work, here, later, last, step.credited_mul]
      exact sub_add_sub_cancel' ..

theorem work_recorded_of_fresh {kind : Kind} {resource : Resource ℚ} (same : resource.kind = kind)
    (fresh : resource.lastReading = none) (outcomes : List (Except Node.ProbeFault Node.Reading))
    (advances : (succeeded outcomes).IsChain (Advances kind)) {first last : Node.Reading}
    (starts : (succeeded outcomes).head? = some first) (ends : (succeeded outcomes).getLast? = some last) :
    work kind (resource.recorded outcomes) = (last.value - first.value : ℚ) := by
  induction outcomes generalizing resource with
  | nil => cases starts
  | cons outcome rest ih =>
    have records := records_recordSample resource outcome
    have next := (kind_recordSample resource outcome).trans same
    rcases outcome with fault | reading
    · exact ih next (records.lastReading_of_error.trans fresh) advances starts ends
    · obtain rfl : reading = first := Option.some.inj starts
      obtain rfl : (succeeded rest).getLastD reading = last := by
        rw [List.getLastD_eq_getLast?]
        exact Option.some.inj (List.getLast?_cons.symm.trans ends)
      exact work_recorded next records.lastReading_of_ok _ rest advances

/-- Work is neither lost nor counted twice. Where the successful readings advance, the usages that go on record stand
for exactly the growth of the counter from the first to the last, whatever failed in between. A failed attempt goes
down as no usage, and one whose source is missing not at all. -/
theorem accounted_of_readings (resource : Resource ℚ) (outcomes : List (Except Node.ProbeFault Node.Reading))
    (fresh : resource.lastReading = none) (advances : (succeeded outcomes).IsChain (Advances resource.kind)) :
    (resource.recorded outcomes).map (·.1) = succeeded outcomes ∧
      (∀ first last, (succeeded outcomes).head? = some first → (succeeded outcomes).getLast? = some last →
        work resource.kind (resource.recorded outcomes) = (last.value - first.value : ℚ)) ∧
      ∀ before fault, before ++ [.error fault] <+: outcomes →
        (fault.isMissing = true → resource.recordAll (before ++ [.error fault]) = resource.recordAll before) ∧
        (fault.isMissing = false → (resource.recordAll (before ++ [.error fault])).usage = 0 ∧
          (resource.recordAll (before ++ [.error fault])).lastReading = (resource.recordAll before).lastReading) := by
  refine ⟨fst_recorded resource outcomes, fun _ _ => work_recorded_of_fresh rfl fresh outcomes advances, ?_⟩
  intro before fault _
  have records := records_recordSample (resource.recordAll before) (.error fault)
  rw [recordAll_concat]
  refine ⟨records.of_missing, fun present => ⟨?_, records.lastReading_of_error⟩⟩
  rw [records.of_faulty present]
  rfl

private def interrupted : List (Except Node.ProbeFault Node.Reading) :=
  [.error (.missing "/gpu/web"), .ok ⟨100, 0⟩, .error (.malformed "/gpu/web" "text"), .ok ⟨900, 1000000000⟩,
    .error (.missing "/gpu/web"), .error (.file "/gpu/web" .isDirectory), .ok ⟨1300, 3000000000⟩]

/-- Two intervals of a GPU, each interrupted by failures: 80 percent for one second, then 20 for two. -/
theorem accounted_of_readings_interrupted :
    (succeeded interrupted).IsChain (Advances .gpu) ∧
      (recorded (new .gpu) interrupted).map (·.2) = [0, 80, 20] ∧
      work .gpu (recorded (new .gpu) interrupted) = 1300 - 100 ∧
      (recordAll (new .gpu) (interrupted.take 3) : Resource ℚ).usage = 0 := by
  have advances : (succeeded interrupted).IsChain (Advances .gpu) := by
    refine .cons_cons ⟨by decide, by decide, by decide +kernel⟩ ?_
    exact .cons_cons ⟨by decide, by decide, by decide +kernel⟩ (.singleton _)
  obtain ⟨-, whole, failures⟩ := accounted_of_readings (new .gpu) interrupted rfl advances
  have total := whole ⟨100, 0⟩ ⟨1300, 3000000000⟩ rfl rfl
  have idle := (failures (interrupted.take 2) (.malformed "/gpu/web" "text") ⟨interrupted.drop 3, rfl⟩).2 rfl
  exact ⟨advances, by decide +kernel, total.trans (by norm_num), idle.1⟩

end Resource
end PodBudget
