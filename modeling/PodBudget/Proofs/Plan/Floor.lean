import PodBudget.Proofs.Plan.Optimum

/-!
What lifting the raw limits of a plan to the floor costs. The budget equation is solved before the floor is applied,
so that a kind which is lifted is paid for by no other, and a plan may cost more than budget and floors.
-/
namespace PodBudget.Plan

/-- Tokens per second for bringing every kind of a plan up to the floor. -/
def lift (plan : Plan ℚ) (minLimit : ℚ) : ℚ := ∑ kind : Kind, kind.price * max (minLimit - plan.raw.get kind) 0

theorem lift_le_zero_iff (plan : Plan ℚ) (minLimit : ℚ) :
    plan.lift minLimit ≤ 0 ↔ ∀ kind, minLimit ≤ plan.raw.get kind := by
  have nonneg (kind : Kind) : 0 ≤ kind.price * max (minLimit - plan.raw.get kind) 0 :=
    mul_nonneg kind.price_pos.le (le_max_right _ _)
  constructor
  · intro free kind
    have none := (Finset.sum_eq_zero_iff_of_nonneg fun kind _ => nonneg kind).mp
      (le_antisymm free (Finset.sum_nonneg fun kind _ => nonneg kind)) kind (Finset.mem_univ _)
    have level : max (minLimit - plan.raw.get kind) 0 = 0 := (mul_eq_zero.mp none).resolve_left kind.price_pos.ne'
    exact sub_nonpos.mp (max_eq_right_iff.mp level)
  · intro above
    refine Finset.sum_nonpos fun kind _ => ?_
    rw [max_eq_right (sub_nonpos.mpr (above kind)), mul_zero]

variable (usage weight : PerKind ℚ) (available remaining minLimit : ℚ)

theorem cost_limits :
    (compute usage weight available remaining minLimit).limits.cost =
      (compute usage weight available remaining minLimit).raw.cost +
        (compute usage weight available remaining minLimit).lift minLimit := by
  rw [PerKind.cost, PerKind.cost, lift, ← Finset.sum_add_distrib]
  refine Finset.sum_congr rfl fun kind _ => ?_
  rw [get_limits, ← mul_add, add_max, add_sub_cancel, add_zero, max_comm]

theorem floors_lt {kind : Kind} (above : minLimit < (compute usage weight available remaining minLimit).raw.get kind) :
    ∑ kind : Kind, kind.price * minLimit < (compute usage weight available remaining minLimit).limits.cost := by
  refine Finset.sum_lt_sum (fun kind _ => ?_) ⟨kind, Finset.mem_univ _, ?_⟩
  · rw [get_limits]
    exact mul_le_mul_of_nonneg_left (le_max_right _ _) kind.price_pos.le
  · rw [get_limits]
    exact mul_lt_mul_of_pos_left (lt_max_of_lt_left above) kind.price_pos

theorem cost_limits_of_low (low : ∀ kind, (compute usage weight available remaining minLimit).raw.get kind ≤ minLimit) :
    (compute usage weight available remaining minLimit).limits.cost =
      ∑ kind : Kind, kind.price * minLimit := by
  refine Finset.sum_congr rfl fun kind _ => ?_
  rw [get_limits, max_eq_right (low kind)]

theorem cost_limits_le_iff (budget : ℚ) :
    (compute usage weight available remaining minLimit).limits.cost ≤ max budget (∑ kind : Kind, kind.price * minLimit) ↔
      (∀ kind, (compute usage weight available remaining minLimit).raw.get kind ≤ minLimit) ∨
        (compute usage weight available remaining minLimit).lift minLimit ≤
          budget - (compute usage weight available remaining minLimit).raw.cost := by
  rw [le_sub_iff_add_le', ← cost_limits]
  constructor
  · intro within
    by_cases low : ∀ kind, (compute usage weight available remaining minLimit).raw.get kind ≤ minLimit
    · exact .inl low
    · obtain ⟨kind, above⟩ := not_forall.mp low
      have dearer := floors_lt usage weight available remaining minLimit (not_le.mp above)
      exact .inr ((le_max_iff.mp within).resolve_right (not_le.mpr dearer))
  · rintro (low | within)
    · exact (cost_limits_of_low usage weight available remaining minLimit low).trans_le (le_max_right _ _)
    · exact le_max_of_le_left within

/-- Limits cost what the raw limits cost, which the budget covers, and the lift. They stay within the larger of budget
and floors where every kind is at the floor, or where the raw limits leave as much as the lift costs; a budget that
binds leaves nothing, so that either all kinds are lifted to the floor or none is. -/
theorem cost_of_floored (usage weight : PerKind ℚ) (available remaining minLimit : ℚ)
    (positive : ∀ kind, 0 < weight.get kind) :
    let plan := compute usage weight available remaining minLimit
    let budget := available / max remaining (1 / 1000)
    let allowed := max budget (∑ kind : Kind, kind.price * minLimit)
    plan.limits.cost = plan.raw.cost + plan.lift minLimit ∧
      plan.raw.cost ≤ budget ∧
      (plan.limits.cost ≤ allowed ↔
        (∀ kind, plan.raw.get kind ≤ minLimit) ∨ plan.lift minLimit ≤ budget - plan.raw.cost) ∧
      ((∀ kind, minLimit ≤ plan.raw.get kind) → plan.limits.cost ≤ allowed) ∧
      (plan.constrained = true → (plan.limits.cost ≤ allowed ↔
        (∀ kind, plan.raw.get kind ≤ minLimit) ∨ ∀ kind, minLimit ≤ plan.raw.get kind)) := by
  intro plan budget allowed
  have within : plan.limits.cost ≤ allowed ↔ _ := cost_limits_le_iff usage weight available remaining minLimit budget
  have covered : plan.raw.cost ≤ budget := cost_raw_le positive
  refine ⟨cost_limits usage weight available remaining minLimit, covered, within, ?_, ?_⟩
  · intro above
    have free := (lift_le_zero_iff plan minLimit).mpr above
    exact within.mpr (.inr (free.trans (sub_nonneg.mpr covered)))
  · intro binding
    have spent : plan.raw.cost = budget := cost_raw_of_constrained positive binding
    rw [within, spent, sub_self, lift_le_zero_iff]

theorem cost_of_floored_lifted :
    let usage : PerKind ℚ := ⟨0, 50⟩
    let weight : PerKind ℚ := ⟨1, 1⟩
    let plan := compute usage weight 100 1 10
    (∀ kind, 0 < weight.get kind) ∧ plan.raw = ⟨-5, 35⟩ ∧ plan.lift 10 = 15 ∧
      plan.limits.cost = plan.raw.cost + plan.lift 10 := by
  intro usage weight plan
  have positive : ∀ kind, 0 < weight.get kind := by decide +kernel
  exact ⟨positive, by decide +kernel, by decide +kernel, (cost_of_floored usage weight 100 1 10 positive).1⟩

/-- A pod that uses the GPU alone: its CPU limit is lifted to the floor, and nothing pays for that. -/
theorem cost_exceeds_budget_and_floors :
    let usage : PerKind ℚ := ⟨0, 50⟩
    let weight : PerKind ℚ := ⟨1, 1⟩
    (∀ kind, 0 ≤ usage.get kind) ∧ (∀ kind, 0 < weight.get kind) ∧ (0 : ℚ) ≤ 100 ∧ (0 : ℚ) ≤ 10 ∧
      max (100 / max 1 (1 / 1000)) (∑ kind : Kind, kind.price * 10) < (compute usage weight 100 1 10).limits.cost := by
  decide +kernel

end PodBudget.Plan
