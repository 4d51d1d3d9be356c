import PodBudget.Proofs.Guarded
import PodBudget.Proofs.Measurement
import PodBudget.Proofs.Plan.Optimum

/-!
Weights that follow usage. As long as usage and average are percentages that a resource can have, the weights are
positive, and no formula of weights or limits divides by zero.
-/
namespace PodBudget

theorem PerKind.get_map {β γ : Type} (f : β → γ) (values : PerKind β) (kind : Kind) :
    (values.map f).get kind = f (values.get kind) := by
  cases kind <;> rfl

section adaptive

variable (usage average : PerKind ℚ) {staticWeight : ℚ}

/-- How far the usage of a pod departs from its average; 2 where it does not. -/
def departure : ℚ := ∑ kind : Kind, (average.get kind + 1) / (usage.get kind + 1)

theorem get_adaptiveWeights_of_pos (fixed : 0 < staticWeight) (kind : Kind) :
    (adaptiveWeights usage average staticWeight).get kind = kind.price * staticWeight := by
  rw [adaptiveWeights, if_pos fixed, PerKind.get_of]

theorem get_adaptiveWeights (adaptive : staticWeight ≤ 0) (kind : Kind) :
    (adaptiveWeights usage average staticWeight).get kind =
      15 * departure usage average * kind.price * (∑ kind, (average.get kind + 1)) / (average.get kind + 1) := by
  rw [adaptiveWeights, if_neg (not_lt.mpr adaptive), PerKind.get_of, Number.total_eq, Number.total_eq, Kind.sum_all,
    Kind.sum_all]
  rfl

variable {usage average} (used : ∀ kind, 0 ≤ usage.get kind ∧ usage.get kind ≤ 1000)
  (averaged : ∀ kind, 0 ≤ average.get kind)

section

include averaged

theorem one_le_average (kind : Kind) : 1 ≤ average.get kind + 1 := le_add_of_nonneg_left (averaged kind)

theorem average_le_sum (kind : Kind) : average.get kind + 1 ≤ ∑ kind, (average.get kind + 1) :=
  Finset.single_le_sum (fun kind _ => zero_le_one.trans (one_le_average averaged kind)) (Finset.mem_univ kind)

/-- A weight is the same for all kinds once it is taken per token and scaled by the average. -/
theorem share_adaptiveWeights (adaptive : staticWeight ≤ 0) (kind : Kind) :
    (adaptiveWeights usage average staticWeight).get kind * (average.get kind + 1) / kind.price =
      15 * departure usage average * ∑ kind, (average.get kind + 1) := by
  have divisor : average.get kind + 1 ≠ 0 := (zero_lt_one.trans_le (one_le_average averaged kind)).ne'
  have price : (kind.price : ℚ) ≠ 0 := kind.price_pos.ne'
  rw [get_adaptiveWeights usage average adaptive]
  field_simp

include used

theorem le_departure : 2 / 1001 ≤ departure usage average := by
  have each (kind : Kind) : 1 / 1001 ≤ (average.get kind + 1) / (usage.get kind + 1) := by
    obtain ⟨least, most⟩ := used kind
    exact div_le_div₀ (zero_le_one.trans (one_le_average averaged kind)) (one_le_average averaged kind) (by linarith)
      (by linarith)
  rw [departure, Kind.sum_eq]
  linarith [each .cpu, each .gpu]

theorem le_adaptiveWeights (adaptive : staticWeight ≤ 0) (kind : Kind) :
    kind.price * (30 / 1001) ≤ (adaptiveWeights usage average staticWeight).get kind := by
  have positive : 0 < average.get kind + 1 := zero_lt_one.trans_le (one_le_average averaged kind)
  have departs := le_departure used averaged
  have whole : 1 ≤ (∑ kind, (average.get kind + 1)) / (average.get kind + 1) :=
    (one_le_div₀ positive).mpr (average_le_sum averaged kind)
  rw [get_adaptiveWeights usage average adaptive, mul_div_assoc]
  have price : (0 : ℚ) < kind.price := kind.price_pos
  calc
    kind.price * (30 / 1001) = 15 * (2 / 1001) * kind.price := by ring
    _ ≤ 15 * departure usage average * kind.price := by gcongr
    _ ≤ _ := le_mul_of_one_le_right (by positivity) whole

theorem adaptiveWeights_pos (kind : Kind) : 0 < (adaptiveWeights usage average staticWeight).get kind := by
  rcases lt_or_ge 0 staticWeight with fixed | adaptive
  · rw [get_adaptiveWeights_of_pos usage average fixed]
    exact mul_pos kind.price_pos fixed
  · exact (mul_pos kind.price_pos (by norm_num)).trans_le (le_adaptiveWeights used averaged adaptive kind)

end

end adaptive

namespace Guarded

variable {usage average weight : PerKind ℚ}

theorem total_kinds {f : Kind → Guarded} {g : Kind → ℚ} (same : ∀ kind, f kind = of (g kind)) :
    Number.total (Kind.all.map f) = of (Number.total (Kind.all.map g)) := by
  obtain rfl : f = of ∘ g := funext same
  rw [← List.map_map, total_of]

theorem of_kinds {f : Kind → Guarded} {g : Kind → ℚ} (same : ∀ kind, f kind = of (g kind)) :
    PerKind.of f = (PerKind.of g).map of :=
  congrArg PerKind.of (funext same)

theorem pricedSum_of (limits : PerKind ℚ) : (limits.map of).pricedSum = of limits.pricedSum := by
  refine total_kinds fun kind => ?_
  rw [PerKind.get_map, price_of, of_mul]

theorem adaptiveWeights_of (staticWeight : ℚ) (used : ∀ kind, usage.get kind + 1 ≠ 0)
    (averaged : ∀ kind, average.get kind + 1 ≠ 0) :
    adaptiveWeights (usage.map of) (average.map of) (of staticWeight) =
      (adaptiveWeights usage average staticWeight).map of := by
  have spread : Number.total (Kind.all.map fun kind => (average.map of).get kind + 1) =
      of (Number.total (Kind.all.map fun kind => average.get kind + 1)) :=
    total_kinds fun kind => congrArg (· + 1) (PerKind.get_map of average kind)
  have departs : Number.total (Kind.all.map fun kind =>
      ((average.map of).get kind + 1) / ((usage.map of).get kind + 1)) =
      of (Number.total (Kind.all.map fun kind => (average.get kind + 1) / (usage.get kind + 1))) := by
    refine total_kinds fun kind => ?_
    rw [PerKind.get_map, PerKind.get_map]
    exact of_div _ (used kind)
  have positive : (0 : Guarded) < of staticWeight ↔ 0 < staticWeight := of_lt 0 staticWeight
  unfold adaptiveWeights
  by_cases fixed : 0 < staticWeight
  · rw [if_pos fixed, if_pos (positive.mpr fixed)]
    exact of_kinds fun kind => by rw [price_of, of_mul]
  · rw [if_neg fixed, if_neg (fixed ∘ positive.mp)]
    dsimp only
    rw [spread, departs]
    refine of_kinds fun kind => ?_
    rw [PerKind.get_map, price_of]
    exact of_div _ (averaged kind)

def plan (plan : Plan ℚ) : Plan Guarded where
  raw := plan.raw.map of
  limits := plan.limits.map of
  available := of plan.available
  leftover := of plan.leftover
  constrained := plan.constrained

theorem unconstrained_of (available : ℚ) (weighted : ∀ kind, weight.get kind ≠ 0) :
    Plan.unconstrained (usage.map of) (weight.map of) (of available) =
      (Plan.unconstrained usage weight available).map of := by
  refine of_kinds fun kind => ?_
  have divisor : 2 * weight.get kind ≠ 0 := mul_ne_zero two_ne_zero (weighted kind)
  rw [PerKind.get_map, PerKind.get_map, price_of, of_mul]
  exact congrArg (of (usage.get kind) + ·) (of_div _ divisor)

theorem budgeted_of (available : ℚ) {span : ℚ} (spans : 0 < span) (positive : ∀ kind, 0 < weight.get kind) :
    Plan.budgeted (usage.map of) (weight.map of) (of available) (of span) =
      (Plan.budgeted usage weight available span).map of := by
  have shares : Number.total (Kind.all.map fun kind => kind.price * kind.price / (weight.map of).get kind) =
      of (Number.total (Kind.all.map fun kind => kind.price * kind.price / weight.get kind)) := by
    refine total_kinds fun kind => ?_
    rw [PerKind.get_map, price_of]
    exact of_div _ (positive kind).ne'
  have spread : Number.total (Kind.all.map fun kind => kind.price * kind.price / weight.get kind) ≠ 0 := by
    rw [Plan.total_shares]
    exact (Plan.spread_pos positive).ne'
  unfold Plan.budgeted
  dsimp only
  rw [shares, pricedSum_of, of_div _ spans.ne']
  refine of_kinds fun kind => ?_
  have divisor := mul_ne_zero (positive kind).ne' spread
  rw [PerKind.get_map, PerKind.get_map, price_of]
  exact congrArg (of (usage.get kind) + ·) (of_div _ divisor)

theorem compute_of (available remaining minLimit : ℚ) (positive : ∀ kind, 0 < weight.get kind) :
    Plan.compute (usage.map of) (weight.map of) (of available) (of remaining) (of minLimit) =
      plan (Plan.compute usage weight available remaining minLimit) := by
  have span : Number.max (of remaining) Plan.minRemaining = of (Number.max remaining Plan.minRemaining) := of_max ..
  have spans : 0 < Number.max remaining Plan.minRemaining := by
    rw [Number.max_eq, Plan.minRemaining_eq]
    exact Plan.span_pos remaining
  have free : Plan.unconstrained (usage.map of) (weight.map of) (of available) = _ :=
    unconstrained_of available fun kind => (positive kind).ne'
  have binds (leftover : ℚ) : decide ((0 : Guarded) ≤ of leftover) = decide (0 ≤ leftover) :=
    decide_eq_decide.mpr (of_le 0 leftover)
  have floored (raw : PerKind ℚ) : (raw.map of).map (Number.max · (of minLimit)) =
      (raw.map (Number.max · minLimit)).map of :=
    congrArg₂ PerKind.mk (of_max ..) (of_max ..)
  unfold Plan.compute
  dsimp only
  rw [span, free, pricedSum_of, of_mul, of_sub, binds, budgeted_of available spans positive]
  split
  · rw [floored]
    rfl
  · rw [floored]
    rfl

end Guarded

namespace Pod

/-- Whatever is read, usage and average stay between 0 and 1000, and the weights that follow from them are positive.
Where no weight is fixed, each is worth at least 30 in 1001 of its price, and per token they are in inverse proportion
to the averages plus 1. Reckoned with guarded numbers, weights and plans come out the same, whatever the budget, the
period and the floor; so nothing on the way to them is divided by zero. -/
theorem weighted_of_calls (name : String) (reservation staticWeight : ℚ) (calls : Readings) :
    let pod := (Pod.new name reservation).recordCalls calls
    let weighted := pod.updateWeights staticWeight
    (∀ kind, (0 ≤ pod.usage.get kind ∧ pod.usage.get kind ≤ 1000) ∧
        0 ≤ pod.average.get kind ∧ pod.average.get kind ≤ 1000) ∧
      (∀ kind, 0 < weighted.weights.get kind) ∧
      (staticWeight ≤ 0 → (∀ kind : Kind, kind.price * (30 / 1001) ≤ weighted.weights.get kind) ∧
        weighted.weights.cpu * (pod.average.cpu + 1) / Kind.cpu.price =
          weighted.weights.gpu * (pod.average.gpu + 1) / Kind.gpu.price) ∧
      adaptiveWeights (pod.usage.map .of) (pod.average.map .of) (Guarded.of staticWeight) =
        weighted.weights.map .of ∧
      ∀ available remaining minLimit,
        Plan.compute (pod.usage.map .of) (weighted.weights.map .of) (.of available) (.of remaining) (.of minLimit) =
          Guarded.plan (Plan.compute pod.usage weighted.weights available remaining minLimit) := by
  intro pod weighted
  have inRange : pod.InRange := (inRange_new name reservation).recordCalls calls
  have used (kind : Kind) : 0 ≤ pod.usage.get kind ∧ pod.usage.get kind ≤ 1000 := by
    rw [usage, PerKind.get_of]
    exact (inRange kind).usage
  have averaged (kind : Kind) : 0 ≤ pod.average.get kind ∧ pod.average.get kind ≤ 1000 := by
    rw [average, PerKind.get_of]
    exact (inRange kind).average
  have least (kind : Kind) := (averaged kind).1
  have positive : ∀ kind, 0 < weighted.weights.get kind := adaptiveWeights_pos used least
  refine ⟨fun kind => ⟨used kind, averaged kind⟩, positive, ?_, ?_, ?_⟩
  · intro adaptive
    have share (kind : Kind) : weighted.weights.get kind * (pod.average.get kind + 1) / kind.price = _ :=
      share_adaptiveWeights least adaptive kind
    exact ⟨le_adaptiveWeights used least adaptive, (share .cpu).trans (share .gpu).symm⟩
  · refine Guarded.adaptiveWeights_of staticWeight (fun kind => ?_) fun kind => ?_
    · exact (add_pos_of_nonneg_of_pos (used kind).1 one_pos).ne'
    · exact (add_pos_of_nonneg_of_pos (least kind) one_pos).ne'
  · exact fun available remaining minLimit => Guarded.compute_of available remaining minLimit positive

/-- The clock goes back, a counter falls and jumps, and reads fail. -/
theorem weighted_of_calls_erratic :
    let calls : Readings := [(.gpu, .ok ⟨500, 3000000000⟩), (.cpu, .ok ⟨0, 1000000000⟩), (.gpu, .ok ⟨900, 1000000000⟩),
      (.cpu, .ok ⟨9000000000, 2000000000⟩), (.gpu, .error (.missing "/gpu/web")), (.gpu, .ok ⟨1300, 2000000000⟩),
      (.cpu, .error (.malformed "/cpu/web" "text")), (.cpu, .ok ⟨8000000000, 4000000000⟩)]
    let pod : Pod ℚ := (Pod.new "web" 200).recordCalls calls
    pod.usage = ⟨0, 40⟩ ∧ ∀ kind, 0 < (pod.updateWeights 0).weights.get kind := by
  intro calls pod
  exact ⟨by decide +kernel, (weighted_of_calls "web" 200 0 calls).2.1⟩

end Pod

end PodBudget
