import PodBudget.Monitor.Cycle
import PodBudget.Proofs.Plan.Optimum

/-!
More tokens never lower a limit. Whichever formula computes the raw limits, they rise from the usage by one common
push, the smaller of what the tokens are worth and what the budget has room for; both grow with the tokens. A longer
period brings more tokens at the same rate, so that a pass in the middle of a period plans no more than one at its end.
-/
namespace PodBudget

namespace Plan

structure Below (smaller larger : Plan ℚ) : Prop where
  raw : ∀ kind, smaller.raw.get kind ≤ larger.raw.get kind
  limits : ∀ kind, smaller.limits.get kind ≤ larger.limits.get kind

/-- What lifts raw limits above the usage, each kind by its price over its weight. -/
def push (usage weight : PerKind ℚ) (available span : ℚ) : ℚ :=
  min (available / 2) ((available / span - usage.cost) / spread weight)

variable {usage weight : PerKind ℚ} (positive : ∀ kind, 0 < weight.get kind)
include positive

variable (usage) in
/-- The two formulas meet where the budget starts to bind. -/
theorem constrained_iff_lt (available remaining minLimit : ℚ) :
    (compute usage weight available remaining minLimit).constrained = true ↔
      (available / max remaining (1 / 1000) - usage.cost) / spread weight < available / 2 := by
  rw [constrained_iff, cost_unconstrained, div_lt_iff₀ (spread_pos positive), sub_lt_iff_lt_add',
    div_lt_iff₀' (span_pos remaining)]

theorem get_raw (available remaining minLimit : ℚ) (kind : Kind) :
    (compute usage weight available remaining minLimit).raw.get kind = usage.get kind +
      kind.price / weight.get kind * push usage weight available (max remaining (1 / 1000)) := by
  have nonzero := (positive kind).ne'
  have whole := (spread_pos positive).ne'
  have binds := constrained_iff_lt usage positive available remaining minLimit
  rw [raw_eq, push]
  split
  · next bound =>
    rw [min_eq_right (binds.mp bound).le, get_budgeted]
    field_simp
  · next slack =>
    rw [min_eq_left (not_lt.mp (slack ∘ binds.mpr)), unconstrained, PerKind.get_of]
    field_simp

theorem below_of_push_le {available more remaining longer : ℚ} (minLimit : ℚ)
    (rises : push usage weight available (max remaining (1 / 1000)) ≤ push usage weight more (max longer (1 / 1000))) :
    (compute usage weight available remaining minLimit).Below (compute usage weight more longer minLimit) := by
  have raw (kind : Kind) : (compute usage weight available remaining minLimit).raw.get kind ≤
      (compute usage weight more longer minLimit).raw.get kind := by
    rw [get_raw positive, get_raw positive]
    exact add_le_add_right (mul_le_mul_of_nonneg_left rises (div_pos kind.price_pos (positive kind)).le) _
  refine ⟨raw, fun kind => ?_⟩
  rw [get_limits, get_limits]
  exact max_le_max_right minLimit (raw kind)

theorem below_of_available_le {available more : ℚ} (richer : available ≤ more) (remaining minLimit : ℚ) :
    (compute usage weight available remaining minLimit).Below (compute usage weight more remaining minLimit) := by
  refine below_of_push_le positive minLimit (min_le_min ?_ ?_)
  · exact div_le_div_of_nonneg_right richer (by norm_num)
  · have rate := div_le_div_of_nonneg_right richer (span_pos remaining).le
    exact div_le_div_of_nonneg_right (sub_le_sub_right rate _) (spread_pos positive).le

end Plan

namespace Pod

variable (pod : Pod ℚ) {policy : Policy ℚ} (fixed : policy.carryOver = 0)
include fixed

theorem available_eq (remaining : ℚ) : pod.available remaining policy = pod.reservation * remaining := by
  rw [available, Tokens.available, fixed, zero_mul, add_zero]

theorem available_div {remaining : ℚ} (spans : 1 / 1000 ≤ remaining) :
    pod.available remaining policy / max remaining (1 / 1000) = pod.reservation := by
  have positive : 0 < remaining := lt_of_lt_of_le (by norm_num) spans
  rw [available_eq pod fixed, max_eq_left spans, mul_div_cancel_right₀ _ positive.ne']

variable {pod} (positive : ∀ kind, 0 < pod.weights.get kind)
include positive

theorem plan_below (reserved : 0 ≤ pod.reservation) {shorter longer : ℚ} (spans : 1 / 1000 ≤ shorter)
    (lasts : shorter ≤ longer) : (pod.plan shorter policy).Below (pod.plan longer policy) := by
  refine Plan.below_of_push_le positive policy.minLimit (min_le_min ?_ ?_)
  · rw [available_eq pod fixed, available_eq pod fixed]
    exact div_le_div_of_nonneg_right (mul_le_mul_of_nonneg_left lasts reserved) (by norm_num)
  · rw [available_div pod fixed spans, available_div pod fixed (spans.trans lasts)]

theorem cost_plan_le {remaining : ℚ} (spans : 1 / 1000 ≤ remaining) :
    (pod.plan remaining policy).raw.pricedSum ≤ pod.reservation := by
  rw [PerKind.pricedSum_eq, ← available_div pod fixed spans]
  exact Plan.cost_raw_le positive

end Pod

namespace Monitor

theorem minRemainingFraction_eq : (minRemainingFraction : ℚ) = 1 / 10 := by decide +kernel

variable (monitor : Monitor ℚ) (now : Nat)

theorem remaining_tick : monitor.remaining .tick now = (monitor.config.period / 1000000000 : ℚ) :=
  Number.seconds_eq _

theorem remaining_pulse : monitor.remaining .pulse now =
    max (((monitor.config.period - (now - monitor.lastExpired) : Nat) : ℚ) / 1000000000)
      (monitor.config.period / 1000000000 * (1 / 10)) := by
  simp only [remaining, Number.max_eq, Number.seconds_eq, minRemainingFraction_eq]

theorem remaining_pulse_le : monitor.remaining .pulse now ≤ monitor.remaining .tick now := by
  have left : ((monitor.config.period - (now - monitor.lastExpired) : Nat) : ℚ) ≤ monitor.config.period :=
    Nat.cast_le.mpr (Nat.sub_le _ _)
  rw [remaining_pulse, remaining_tick]
  refine max_le (div_le_div_of_nonneg_right left (by norm_num)) ?_
  exact mul_le_of_le_one_right (div_nonneg (Nat.cast_nonneg _) (by norm_num)) (by norm_num)

theorem le_remaining (lasts : 1000000000 ≤ monitor.config.period) (trigger : Trigger) :
    1 / 10 ≤ monitor.remaining trigger now := by
  have second : 1 ≤ (monitor.config.period / 1000000000 : ℚ) := by
    rw [le_div_iff₀ (by norm_num), one_mul]
    exact_mod_cast lasts
  have least : 1 / 10 ≤ monitor.remaining .pulse now := by
    rw [remaining_pulse]
    exact le_max_of_le_right (le_mul_of_one_le_left (by norm_num) second)
  cases trigger with
  | pulse => exact least
  | tick => exact least.trans (monitor.remaining_pulse_le now)

end Monitor

namespace Plan

/-- More tokens for the same period, and with a fixed reservation a longer period, never lower a limit. So a pulse
plans no more of any kind than a tick at the same instant, and neither spends more than the reservation. -/
theorem rising_of_tokens (usage weight : PerKind ℚ) (positive : ∀ kind, 0 < weight.get kind) :
    (∀ remaining minLimit available more, available ≤ more →
      (compute usage weight available remaining minLimit).Below (compute usage weight more remaining minLimit)) ∧
      ∀ (pod : Pod ℚ) (policy : Policy ℚ), pod.usage = usage → pod.weights = weight → 0 ≤ pod.reservation →
        policy.carryOver = 0 →
        (∀ shorter longer, 1 / 1000 ≤ shorter → shorter ≤ longer →
          (pod.plan shorter policy).Below (pod.plan longer policy)) ∧
        ∀ (monitor : Monitor ℚ) (now : Nat), 1000000000 ≤ monitor.config.period →
          (pod.plan (monitor.remaining .pulse now) policy).Below (pod.plan (monitor.remaining .tick now) policy) ∧
          ∀ trigger, (pod.plan (monitor.remaining trigger now) policy).raw.pricedSum ≤ pod.reservation := by
  refine ⟨fun remaining minLimit _ _ richer => below_of_available_le positive richer remaining minLimit, ?_⟩
  rintro pod policy rfl rfl reserved fixed
  refine ⟨fun _ _ => Pod.plan_below fixed positive reserved, fun monitor now lasts => ?_⟩
  have spans (trigger : Trigger) : 1 / 1000 ≤ monitor.remaining trigger now :=
    le_trans (by norm_num) (monitor.le_remaining now lasts trigger)
  refine ⟨?_, fun trigger => Pod.cost_plan_le fixed positive (spans trigger)⟩
  exact Pod.plan_below fixed positive reserved (spans .pulse) (monitor.remaining_pulse_le now)

private def halfway : Monitor ℚ := .new ⟨"node", 1000000000, false, .default⟩ none 0

private def busy : Pod ℚ := { Pod.new "web" 200 with
  cpu := { Resource.new .cpu with usage := 40, weight := 10 }
  gpu := { Resource.new .gpu with usage := 5, weight := 5 } }

/-- In the middle of a period the budget does not bind yet, and at its end it does. -/
theorem rising_of_tokens_halfway :
    (∀ kind, 0 < busy.weights.get kind) ∧ halfway.remaining .pulse 500000000 = 1 / 2 ∧
      (busy.plan (1 / 2) .default).constrained = false ∧ (busy.plan 1 .default).constrained = true ∧
      (busy.plan (halfway.remaining .pulse 500000000) .default).Below
        (busy.plan (halfway.remaining .tick 500000000) .default) := by
  have positive : ∀ kind, 0 < busy.weights.get kind := by decide +kernel
  have rising := (rising_of_tokens busy.usage busy.weights positive).2 busy .default rfl rfl
    (by decide +kernel) (by decide +kernel)
  exact ⟨positive, by decide +kernel, by decide +kernel, by decide +kernel,
    (rising.2 halfway 500000000 (by decide)).1⟩

end Plan
end PodBudget
