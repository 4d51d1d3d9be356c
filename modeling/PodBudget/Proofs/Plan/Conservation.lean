import PodBudget.Proofs.Plan.Optimum

/-!
Tokens that a plan spends. Its limits cost no more per second than the available tokens spread over the period, and
over any part of the period this is what the reservation brings and what the queue holds.
-/
namespace PodBudget

namespace Tokens

variable {reservation queue remaining carryOver elapsed : ℚ}

theorem available_share_le (owned : 0 ≤ queue) (share : carryOver ≤ 1) (spans : 0 < remaining) (started : 0 ≤ elapsed)
    (within : elapsed ≤ remaining) :
    available reservation queue remaining carryOver / remaining * elapsed ≤ queue + reservation * elapsed := by
  have part : elapsed / remaining ≤ 1 := div_le_one_of_le₀ within spans.le
  have carried : carryOver * queue * (elapsed / remaining) ≤ queue := by
    calc
      carryOver * queue * (elapsed / remaining) ≤ queue * (elapsed / remaining) :=
        mul_le_mul_of_nonneg_right (mul_le_of_le_one_left owned share) (div_nonneg started spans.le)
      _ ≤ queue := mul_le_of_le_one_right owned part
  have split : available reservation queue remaining carryOver / remaining * elapsed =
      carryOver * queue * (elapsed / remaining) + reservation * elapsed := by
    rw [available]
    field_simp
    ring
  rw [split]
  exact add_le_add_left carried _

theorem settle_unbounded (limits : PerKind ℚ) : settle queue reservation limits elapsed .unbounded =
    max (queue + reservation * elapsed - limits.pricedSum * elapsed) 0 := by
  rw [settle, Number.max_eq]

end Tokens

namespace Plan

/-- Over any part of the planned time, a plan that no floor has lifted spends what the pod has. What is left is
counted to the last token, and the queue is never cut off at 0. -/
theorem unspent_of_plan (usage weight : PerKind ℚ) (reservation queue carryOver remaining minLimit : ℚ)
    (owned : 0 ≤ queue) (share : carryOver ≤ 1) (positive : ∀ kind, 0 < weight.get kind)
    (planned : 1 / 1000 ≤ remaining) :
    let plan := compute usage weight (Tokens.available reservation queue remaining carryOver) remaining minLimit
    plan.limits = plan.raw → ∀ elapsed, 0 ≤ elapsed → elapsed ≤ remaining →
      0 ≤ queue + reservation * elapsed - plan.limits.pricedSum * elapsed ∧
        Tokens.settle queue reservation plan.limits elapsed .unbounded =
          queue + reservation * elapsed - plan.limits.pricedSum * elapsed := by
  intro plan level elapsed started within
  have spans : 0 < remaining := lt_of_lt_of_le (by norm_num) planned
  have rate : plan.limits.pricedSum ≤ Tokens.available reservation queue remaining carryOver / remaining := by
    have covered : plan.raw.cost ≤ _ := cost_raw_le positive
    rwa [max_eq_left planned, ← level, ← PerKind.pricedSum_eq] at covered
  have spent : plan.limits.pricedSum * elapsed ≤ queue + reservation * elapsed :=
    (mul_le_mul_of_nonneg_right rate started).trans
      (Tokens.available_share_le owned share spans started within)
  have left : 0 ≤ queue + reservation * elapsed - plan.limits.pricedSum * elapsed := sub_nonneg.mpr spent
  refine ⟨left, ?_⟩
  rw [Tokens.settle_unbounded, max_eq_left left]

/-- A binding budget with half of the queue carried over, charged after three quarters of the planned time. -/
theorem unspent_of_plan_carried :
    let usage : PerKind ℚ := ⟨40, 5⟩
    let weight : PerKind ℚ := ⟨10, 5⟩
    let plan := compute usage weight (Tokens.available 150 40 1 (1 / 2)) 1 10
    (∀ kind, 0 < weight.get kind) ∧ plan.constrained = true ∧ plan.limits = plan.raw ∧
      Tokens.settle 40 150 plan.limits (3 / 4) .unbounded = 25 := by
  intro usage weight plan
  have positive : ∀ kind, 0 < weight.get kind := by decide +kernel
  have level : plan.limits = plan.raw := by decide +kernel
  obtain ⟨-, charged⟩ := unspent_of_plan usage weight 150 40 (1 / 2) 1 10 (by norm_num) (by norm_num) positive
    (by norm_num) level (3 / 4) (by norm_num) (by norm_num)
  have balance : (40 : ℚ) + 150 * (3 / 4) - plan.limits.pricedSum * (3 / 4) = 25 := by decide +kernel
  exact ⟨positive, by decide +kernel, level, charged.trans balance⟩

end Plan
end PodBudget
