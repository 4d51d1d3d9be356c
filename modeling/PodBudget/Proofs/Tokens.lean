import PodBudget.Pod
import PodBudget.Proofs.Plan.Conservation

/-!
Charging a pod bit by bit. A queue grows or shrinks at one rate while the limits stay, so it can run against one of its
two bounds only; therefore it does not matter into which parts the time is split.
-/
namespace PodBudget

def QueueCap.trim (reservation : ℚ) : QueueCap → ℚ → ℚ
  | .unbounded, queue => queue
  | .reservation, queue => min queue reservation

namespace Tokens

/-- A queue that is no debt and that the cap allows. -/
structure IsWithin (cap : QueueCap) (reservation queue : ℚ) : Prop where
  owned : 0 ≤ queue
  capped : cap = .reservation → queue ≤ reservation

variable {cap : QueueCap} {reservation queue span next : ℚ} {limits : PerKind ℚ}

/-- What a span brings a queue. It is less than nothing where the limits cost more than the reservation. -/
def gain (reservation : ℚ) (limits : PerKind ℚ) (span : ℚ) : ℚ := (reservation - limits.pricedSum) * span

theorem gain_add :
    gain reservation limits (span + next) = gain reservation limits span + gain reservation limits next :=
  mul_add ..

theorem gain_nonneg (saving : limits.pricedSum ≤ reservation) (forward : 0 ≤ span) : 0 ≤ gain reservation limits span :=
  mul_nonneg (sub_nonneg.mpr saving) forward

theorem gain_nonpos (spending : reservation ≤ limits.pricedSum) (forward : 0 ≤ span) :
    gain reservation limits span ≤ 0 :=
  mul_nonpos_of_nonpos_of_nonneg (sub_nonpos.mpr spending) forward

theorem settle_eq : settle queue reservation limits span cap =
    cap.trim reservation (max (queue + gain reservation limits span) 0) := by
  have sum : queue + reservation * span - limits.pricedSum * span = queue + gain reservation limits span := by
    rw [gain]
    ring
  cases cap
  · rw [settle_unbounded, sum, QueueCap.trim]
  · rw [settle, Number.max_eq, Number.min_rat, sum, QueueCap.trim, min_def]

theorem IsWithin.trim (within : IsWithin cap reservation queue) : cap.trim reservation queue = queue := by
  cases cap
  · rfl
  · exact min_eq_left (within.capped rfl)

section settle

variable (within : IsWithin cap reservation queue) (forward : 0 ≤ span)
include within

theorem IsWithin.settle : IsWithin cap reservation (settle queue reservation limits span cap) := by
  rw [settle_eq]
  cases cap
  · exact ⟨le_max_right _ _, by rintro ⟨⟩⟩
  · have reserved : 0 ≤ reservation := within.owned.trans (within.capped rfl)
    exact ⟨le_min (le_max_right _ _) reserved, fun _ => min_le_right _ _⟩

include forward

theorem settle_of_saving (saving : limits.pricedSum ≤ reservation) :
    settle queue reservation limits span cap = cap.trim reservation (queue + gain reservation limits span) := by
  rw [settle_eq, max_eq_left (add_nonneg within.owned (gain_nonneg saving forward))]

theorem settle_of_spending (spending : reservation ≤ limits.pricedSum) :
    settle queue reservation limits span cap = max (queue + gain reservation limits span) 0 := by
  have smaller : max (queue + gain reservation limits span) 0 ≤ queue :=
    max_le (add_le_of_nonpos_right (gain_nonpos spending forward)) within.owned
  have kept : IsWithin cap reservation (max (queue + gain reservation limits span) 0) :=
    ⟨le_max_right _ _, fun capped => smaller.trans (within.capped capped)⟩
  rw [settle_eq, kept.trim]

theorem le_settle (saving : limits.pricedSum ≤ reservation) : queue ≤ settle queue reservation limits span cap := by
  have grown : queue ≤ queue + gain reservation limits span := le_add_of_nonneg_right (gain_nonneg saving forward)
  rw [settle_of_saving within forward saving]
  cases cap
  · exact grown
  · exact le_min grown (within.capped rfl)

theorem settle_le (spending : reservation ≤ limits.pricedSum) : settle queue reservation limits span cap ≤ queue := by
  rw [settle_of_spending within forward spending]
  exact max_le (add_le_of_nonpos_right (gain_nonpos spending forward)) within.owned

/-- Two spans are charged as one. -/
theorem settle_settle (onward : 0 ≤ next) :
    settle (settle queue reservation limits span cap) reservation limits next cap =
      settle queue reservation limits (span + next) cap := by
  have whole := add_nonneg forward onward
  have middle : IsWithin cap reservation (settle queue reservation limits span cap) := within.settle
  rcases le_total limits.pricedSum reservation with saving | spending
  · have more := gain_nonneg saving onward
    rw [settle_of_saving middle onward saving, settle_of_saving within whole saving,
      settle_of_saving within forward saving, gain_add, ← add_assoc]
    cases cap
    · rfl
    · -- A queue cut off at the reservation stays there, since it only grows.
      simp only [QueueCap.trim]
      rcases le_total (queue + gain reservation limits span) reservation with below | full
      · rw [min_eq_left below]
      · have fuller : reservation ≤ reservation + gain reservation limits next := le_add_of_nonneg_right more
        rw [min_eq_right full, min_eq_right fuller, min_eq_right (le_add_of_le_of_nonneg full more)]
  · have less := gain_nonpos spending onward
    rw [settle_of_spending middle onward spending, settle_of_spending within whole spending,
      settle_of_spending within forward spending, gain_add, ← add_assoc]
    -- A queue cut off at 0 stays there, since it only shrinks.
    rcases le_total 0 (queue + gain reservation limits span) with left | empty
    · rw [max_eq_left left]
    · rw [max_eq_right empty, zero_add, max_eq_right less, max_eq_right (add_nonpos empty less)]

end settle

def settleEach (queue reservation : ℚ) (limits : PerKind ℚ) (cap : QueueCap) (spans : List ℚ) : ℚ :=
  spans.foldl (fun queue span => settle queue reservation limits span cap) queue

theorem settleEach_append (earlier later : List ℚ) : settleEach queue reservation limits cap (earlier ++ later) =
    settleEach (settleEach queue reservation limits cap earlier) reservation limits cap later :=
  List.foldl_append

theorem IsWithin.settleEach (within : IsWithin cap reservation queue) (spans : List ℚ) :
    IsWithin cap reservation (settleEach queue reservation limits cap spans) := by
  induction spans generalizing queue with
  | nil => exact within
  | cons span rest ih => exact ih within.settle

theorem settleEach_eq (within : IsWithin cap reservation queue) {spans : List ℚ} (forward : ∀ span ∈ spans, 0 ≤ span) :
    settleEach queue reservation limits cap spans = settle queue reservation limits spans.sum cap := by
  induction spans generalizing queue with
  | nil =>
    rw [List.sum_nil, settle_eq, gain, mul_zero, add_zero, max_eq_left within.owned, within.trim]
    rfl
  | cons span rest ih =>
    obtain ⟨first, others⟩ := List.forall_mem_cons.mp forward
    rw [List.sum_cons, ← settle_settle within first (List.sum_nonneg others)]
    exact ih within.settle others

theorem foldl_settleQueue (pod : Pod ℚ) (spans : List ℚ) : spans.foldl (fun pod span => pod.settleQueue span cap) pod =
    { pod with queue := settleEach pod.queue pod.reservation pod.limits cap spans } := by
  induction spans generalizing pod with
  | nil => rfl
  | cons span rest ih => exact ih (pod.settleQueue span cap)

/-- However a time is split into spans, a queue that is charged span by span ends up as if it had been charged once.
On the way it keeps within its bounds, and moves in one direction only: up while the limits cost no more than the
reservation, and down while they cost no less. -/
theorem seamless_of_split (queue reservation : ℚ) (limits : PerKind ℚ) (cap : QueueCap) (spans : List ℚ)
    (within : IsWithin cap reservation queue) (forward : ∀ span ∈ spans, 0 ≤ span) :
    settleEach queue reservation limits cap spans = settle queue reservation limits spans.sum cap ∧
      (∀ taken, taken <+: spans → IsWithin cap reservation (settleEach queue reservation limits cap taken)) ∧
      (∀ earlier later, earlier <+: later → later <+: spans →
        (limits.pricedSum ≤ reservation →
          settleEach queue reservation limits cap earlier ≤ settleEach queue reservation limits cap later) ∧
        (reservation ≤ limits.pricedSum →
          settleEach queue reservation limits cap later ≤ settleEach queue reservation limits cap earlier)) ∧
      ∀ pod : Pod ℚ, pod.queue = queue → pod.reservation = reservation → pod.limits = limits →
        spans.foldl (fun pod span => pod.settleQueue span cap) pod = pod.settleQueue spans.sum cap := by
  have whole : settleEach queue reservation limits cap spans = _ := settleEach_eq within forward
  refine ⟨whole, fun taken _ => within.settleEach taken, ?_, ?_⟩
  · rintro earlier _ ⟨extra, rfl⟩ part
    have onward : ∀ span ∈ extra, 0 ≤ span :=
      fun span member => forward span (part.subset (List.mem_append_right _ member))
    have before : IsWithin cap reservation (settleEach queue reservation limits cap earlier) :=
      within.settleEach earlier
    rw [settleEach_append, settleEach_eq before onward]
    exact ⟨le_settle before (List.sum_nonneg onward), settle_le before (List.sum_nonneg onward)⟩
  · rintro pod rfl rfl rfl
    rw [foldl_settleQueue, whole]
    rfl

/-- A queue that fills up to its cap within the second of four spans. -/
theorem seamless_of_split_capped :
    let limits : PerKind ℚ := ⟨20, 10⟩
    IsWithin .reservation 100 40 ∧ (∀ span ∈ [(1 / 2 : ℚ), 3, 0, 1 / 4], 0 ≤ span) ∧
      settleEach 40 100 limits .reservation [1 / 2, 3, 0, 1 / 4] = settle 40 100 limits (15 / 4) .reservation ∧
      settle 40 100 limits (15 / 4) .reservation = 100 := by
  intro limits
  have within : IsWithin .reservation 100 40 := ⟨by norm_num, fun _ => by norm_num⟩
  have forward : ∀ span ∈ [(1 / 2 : ℚ), 3, 0, 1 / 4], 0 ≤ span := by decide +kernel
  have charged := (seamless_of_split 40 100 limits .reservation _ within forward).1
  have sum : [(1 / 2 : ℚ), 3, 0, 1 / 4].sum = 15 / 4 := by decide +kernel
  rw [sum] at charged
  exact ⟨within, forward, charged, by decide +kernel⟩

end Tokens
end PodBudget
