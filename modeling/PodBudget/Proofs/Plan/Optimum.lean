import Mathlib.Algebra.Order.BigOperators.Ring.Finset
import Mathlib.Tactic.FieldSimp
import Mathlib.Tactic.Linarith
import Mathlib.Tactic.LinearCombination
import PodBudget.Plan
import PodBudget.Proofs.Rational

/-!
The plan of one pod as a quadratic programme. The raw limits are its only minimum, whichever formula computed them,
and where the budget binds they spend it to the last token.
-/
namespace PodBudget

/-- An allowed point that is better than every other allowed point. -/
structure StrictMinimum {β : Type} (objective : β → ℚ) (allowed : β → Prop) (best : β) : Prop where
  admitted : allowed best
  less : ∀ other, allowed other → other ≠ best → objective best < objective other

namespace PerKind

theorem ext_get {left right : PerKind ℚ} (same : ∀ kind, left.get kind = right.get kind) : left = right := by
  obtain ⟨cpu, gpu⟩ := left
  obtain ⟨other, another⟩ := right
  have first : cpu = other := same .cpu
  have second : gpu = another := same .gpu
  rw [first, second]

def cost (limits : PerKind ℚ) : ℚ := ∑ kind : Kind, kind.price * limits.get kind

theorem pricedSum_eq (limits : PerKind ℚ) : limits.pricedSum = limits.cost := by
  rw [pricedSum, Number.total_eq, Kind.sum_all, cost]

end PerKind

namespace Plan

theorem minRemaining_eq : (minRemaining : ℚ) = 1 / 1000 := by decide +kernel

variable (usage weight : PerKind ℚ) (available span : ℚ)

/-- Weighted squared distance of limits to the usage, less the value of the tokens that they cost. -/
def objective (limits : PerKind ℚ) : ℚ :=
  ∑ kind, weight.get kind * (limits.get kind - usage.get kind) ^ 2 - available * limits.cost

def spread : ℚ := ∑ kind : Kind, kind.price ^ 2 / weight.get kind

theorem cost_unconstrained :
    (unconstrained usage weight available).cost = usage.cost + available / 2 * spread weight := by
  rw [PerKind.cost, PerKind.cost, spread, Finset.mul_sum, ← Finset.sum_add_distrib]
  refine Finset.sum_congr rfl fun kind _ => ?_
  rw [unconstrained, PerKind.get_of]
  ring

theorem total_shares :
    Number.total (Kind.all.map fun kind => kind.price * kind.price / weight.get kind) = spread weight := by
  rw [Number.total_eq, Kind.sum_all, spread]
  exact Finset.sum_congr rfl fun kind _ => by rw [sq]

theorem get_budgeted (kind : Kind) : (budgeted usage weight available span).get kind =
    usage.get kind + kind.price * (available / span - usage.cost) / (weight.get kind * spread weight) := by
  rw [budgeted, PerKind.get_of, total_shares, PerKind.pricedSum_eq]

variable {usage weight available span}

section

variable (positive : ∀ kind, 0 < weight.get kind)
include positive

theorem spread_pos : 0 < spread weight :=
  Finset.sum_pos (fun kind _ => div_pos (pow_pos kind.price_pos 2) (positive kind))
    ⟨.cpu, Finset.mem_univ _⟩

theorem cost_budgeted : (budgeted usage weight available span).cost = available / span := by
  have along (kind : Kind) : kind.price * (budgeted usage weight available span).get kind =
      kind.price * usage.get kind +
        (available / span - usage.cost) / spread weight * (kind.price ^ 2 / weight.get kind) := by
    rw [get_budgeted]
    ring
  have rest : (available / span - usage.cost) / spread weight * spread weight = available / span - usage.cost :=
    div_mul_cancel₀ _ (spread_pos positive).ne'
  rw [PerKind.cost, Finset.sum_congr rfl fun kind _ => along kind, Finset.sum_add_distrib, ← Finset.mul_sum]
  change usage.cost + _ * spread weight = _
  rw [rest, add_sub_cancel]

end

section multiplier

variable {best : PerKind ℚ} {multiplier : ℚ}
  (slope : ∀ kind, 2 * weight.get kind * (best.get kind - usage.get kind) = (available - multiplier) * kind.price)
include slope

/-- The objective around a point whose slope is in proportion to the prices. -/
theorem objective_eq_add (other : PerKind ℚ) : objective usage weight available other =
    objective usage weight available best + multiplier * (best.cost - other.cost) +
      ∑ kind, weight.get kind * (other.get kind - best.get kind) ^ 2 := by
  have each (kind : Kind) : weight.get kind * (other.get kind - usage.get kind) ^ 2 =
      weight.get kind * (best.get kind - usage.get kind) ^ 2 +
        (available - multiplier) * (kind.price * other.get kind - kind.price * best.get kind) +
        weight.get kind * (other.get kind - best.get kind) ^ 2 := by
    linear_combination (other.get kind - best.get kind) * slope kind
  rw [objective, objective, Finset.sum_congr rfl fun kind _ => each kind, Finset.sum_add_distrib,
    Finset.sum_add_distrib, ← Finset.mul_sum, Finset.sum_sub_distrib]
  change _ + (available - multiplier) * (other.cost - best.cost) + _ - _ = _
  ring

theorem strictMinimum_of_slope (positive : ∀ kind, 0 < weight.get kind) {allowed : PerKind ℚ → Prop}
    (admitted : allowed best) (priced : ∀ other, allowed other → 0 ≤ multiplier * (best.cost - other.cost)) :
    StrictMinimum (objective usage weight available) allowed best := by
  refine ⟨admitted, fun other allows differs => ?_⟩
  obtain ⟨kind, moved⟩ : ∃ kind, other.get kind ≠ best.get kind := by
    by_contra same
    exact differs (PerKind.ext_get fun kind => not_not.mp (not_exists.mp same kind))
  have apart : 0 < ∑ kind, weight.get kind * (other.get kind - best.get kind) ^ 2 := by
    refine Finset.sum_pos' (fun kind _ => mul_nonneg (positive kind).le (sq_nonneg _)) ⟨kind, Finset.mem_univ _, ?_⟩
    exact mul_pos (positive kind) (sq_pos_of_ne_zero (sub_ne_zero.mpr moved))
  have worth := priced other allows
  rw [objective_eq_add slope other]
  linarith

end multiplier

section branches

variable (positive : ∀ kind, 0 < weight.get kind)
include positive

theorem slope_unconstrained (kind : Kind) :
    2 * weight.get kind * ((unconstrained usage weight available).get kind - usage.get kind) =
      (available - 0) * kind.price := by
  have nonzero := (positive kind).ne'
  rw [unconstrained, PerKind.get_of]
  field_simp
  ring

private def multiplier (usage weight : PerKind ℚ) (available span : ℚ) : ℚ :=
  available - 2 * (available / span - usage.cost) / spread weight

theorem slope_budgeted (kind : Kind) :
    2 * weight.get kind * ((budgeted usage weight available span).get kind - usage.get kind) =
      (available - multiplier usage weight available span) * kind.price := by
  have nonzero := (positive kind).ne'
  have whole := (spread_pos positive).ne'
  rw [get_budgeted, multiplier]
  field_simp
  ring

theorem multiplier_pos (spans : 0 < span) (dear : available < span * (unconstrained usage weight available).cost) :
    0 < multiplier usage weight available span := by
  have whole := spread_pos positive
  have rate : available / span < usage.cost + available / 2 * spread weight := by
    rw [div_lt_iff₀' spans, ← cost_unconstrained]
    exact dear
  have scaled : 2 * (available / span - usage.cost) / spread weight < available := by
    rw [div_lt_iff₀ whole]
    linarith
  exact sub_pos.mpr scaled

theorem strictMinimum_unconstrained {allowed : PerKind ℚ → Prop}
    (admitted : allowed (unconstrained usage weight available)) :
    StrictMinimum (objective usage weight available) allowed (unconstrained usage weight available) :=
  strictMinimum_of_slope (slope_unconstrained positive) positive admitted fun _ _ => (zero_mul _).ge

theorem strictMinimum_budgeted (spans : 0 < span)
    (dear : available < span * (unconstrained usage weight available).cost) :
    StrictMinimum (objective usage weight available) (fun limits => span * limits.cost ≤ available)
      (budgeted usage weight available span) := by
  have spent : span * (budgeted usage weight available span).cost = available := by
    rw [cost_budgeted positive, mul_div_cancel₀ _ spans.ne']
  refine strictMinimum_of_slope (slope_budgeted positive) positive spent.le fun other within => ?_
  have cheaper : other.cost ≤ (budgeted usage weight available span).cost := by
    rw [← spent] at within
    exact le_of_mul_le_mul_left within spans
  exact mul_nonneg (multiplier_pos positive spans dear).le (sub_nonneg.mpr cheaper)

end branches

theorem span_pos (remaining : ℚ) : 0 < max remaining (1 / 1000) :=
  lt_max_of_lt_right (by norm_num)

section compute

variable (usage weight available) (remaining minLimit : ℚ)

theorem constrained_iff :
    (compute usage weight available remaining minLimit).constrained = true ↔
      available < max remaining (1 / 1000) * (unconstrained usage weight available).cost := by
  simp only [compute, Number.max_eq, minRemaining_eq, PerKind.pricedSum_eq, Bool.not_eq_true', decide_eq_false_iff_not,
    not_le, sub_neg]

theorem raw_eq : (compute usage weight available remaining minLimit).raw =
    if (compute usage weight available remaining minLimit).constrained then
      budgeted usage weight available (max remaining (1 / 1000))
    else unconstrained usage weight available := by
  simp only [compute, Number.max_eq, minRemaining_eq]

theorem get_limits (kind : Kind) : (compute usage weight available remaining minLimit).limits.get kind =
    max ((compute usage weight available remaining minLimit).raw.get kind) minLimit := by
  rw [← Number.max_eq]
  cases kind <;> rfl

variable {usage weight available remaining minLimit} (positive : ∀ kind, 0 < weight.get kind)
include positive

theorem cost_raw_of_constrained (bound : (compute usage weight available remaining minLimit).constrained = true) :
    (compute usage weight available remaining minLimit).raw.cost = available / max remaining (1 / 1000) := by
  rw [raw_eq, if_pos bound, cost_budgeted positive]

theorem strictMinimum_raw :
    StrictMinimum (objective usage weight available)
      (fun limits => max remaining (1 / 1000) * limits.cost ≤ available)
      (compute usage weight available remaining minLimit).raw := by
  rw [raw_eq]
  have bound := constrained_iff usage weight available remaining minLimit
  split
  · next binding => exact strictMinimum_budgeted positive (span_pos remaining) (bound.mp binding)
  · next slack => exact strictMinimum_unconstrained positive (not_lt.mp (slack ∘ bound.mpr))

theorem cost_raw_le :
    (compute usage weight available remaining minLimit).raw.cost ≤ available / max remaining (1 / 1000) :=
  (le_div_iff₀' (span_pos remaining)).mpr (strictMinimum_raw positive).admitted

end compute

/-- The raw limits of a plan are the only minimum under its budget. The budget binds exactly where the minimum
without a budget breaks it, and is then spent to the last token; the limits are the raw ones, lifted to the floor. -/
theorem minimum_of_compute (usage weight : PerKind ℚ) (available remaining minLimit : ℚ)
    (positive : ∀ kind, 0 < weight.get kind) :
    let plan := compute usage weight available remaining minLimit
    let span := max remaining (1 / 1000)
    StrictMinimum (objective usage weight available) (fun limits => span * limits.cost ≤ available) plan.raw ∧
      (∃ free, StrictMinimum (objective usage weight available) (fun _ => True) free ∧
        (plan.constrained = true ↔ available < span * free.cost)) ∧
      (plan.constrained = true → span * plan.raw.cost = available) ∧
      (plan.constrained = false → span * plan.raw.cost ≤ available) ∧
      ∀ kind, plan.limits.get kind = max (plan.raw.get kind) minLimit := by
  intro plan span
  have least : StrictMinimum _ _ plan.raw := strictMinimum_raw positive
  refine ⟨least, ⟨unconstrained usage weight available, strictMinimum_unconstrained positive trivial, ?_⟩, ?_, ?_, ?_⟩
  · exact constrained_iff usage weight available remaining minLimit
  · intro binding
    rw [cost_raw_of_constrained positive binding]
    exact mul_div_cancel₀ _ (span_pos remaining).ne'
  · intro _
    exact least.admitted
  · exact get_limits usage weight available remaining minLimit

/-- A pod whose budget buys less than it would take. -/
theorem minimum_of_compute_scarce :
    let usage : PerKind ℚ := ⟨40, 5⟩
    let weight : PerKind ℚ := ⟨10, 5⟩
    (∀ kind, 0 < weight.get kind) ∧ (compute usage weight 200 1 10).constrained = true ∧
      StrictMinimum (objective usage weight 200) (fun limits => max 1 (1 / 1000) * limits.cost ≤ 200)
        ⟨905 / 19, 965 / 19⟩ := by
  intro usage weight
  have positive : ∀ kind, 0 < weight.get kind := by decide +kernel
  have raw : (compute usage weight 200 1 10).raw = ⟨905 / 19, 965 / 19⟩ := by decide +kernel
  obtain ⟨least, -⟩ := minimum_of_compute usage weight 200 1 10 positive
  rw [raw] at least
  exact ⟨positive, by decide +kernel, least⟩

end Plan
end PodBudget
