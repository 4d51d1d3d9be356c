import Mathlib.Algebra.BigOperators.Group.Finset.Basic
import Mathlib.Algebra.BigOperators.Fin
import Mathlib.Algebra.Order.AbsoluteValue.Basic
import Mathlib.Data.Fintype.Prod
import Mathlib.Tactic.NormNum.OfScientific
import PodBudget.Kind

/-! Arithmetic over the rationals, where every formula of the library is exact. -/
namespace PodBudget

open scoped BigOperators

namespace Number

theorem max_eq (a b : ℚ) : Number.max a b = max a b := by
  rw [max_rat, max_def]

theorem abs_eq (a : ℚ) : Number.abs a = |a| := by
  unfold Number.abs
  split
  · next negative => exact (abs_of_neg negative).symm
  · next positive => exact (abs_of_nonneg (not_lt.mp positive)).symm

private theorem foldl_add (values : List ℚ) (first : ℚ) :
    values.foldl (· + ·) first = first + values.sum := by
  induction values generalizing first with
  | nil => simp
  | cons value rest ih => rw [List.foldl_cons, ih, List.sum_cons, add_assoc]

theorem total_eq (values : List ℚ) : Number.total values = values.sum := by
  unfold Number.total
  rw [foldl_add]
  simp

theorem seconds_eq (nanos : Nat) : (Number.seconds nanos : ℚ) = nanos / 1000000000 := by
  have whole : (1000000000 * (nanos / 1000000000 : Nat) + (nanos % 1000000000 : Nat) : ℚ) = nanos := by
    exact_mod_cast Nat.div_add_mod nanos 1000000000
  unfold Number.seconds
  rw [ofNat_rat, ofNat_rat, ofNat_rat, Nat.cast_ofNat, eq_div_iff (by norm_num), add_mul,
    div_mul_cancel₀ _ (by norm_num), mul_comm]
  exact whole

theorem le_foldl_max {ι : Type} (size : ι → ℚ) (items : List ι) (first : ℚ) :
    first ≤ items.foldl (fun most item => Number.max most (size item)) first := by
  induction items generalizing first with
  | nil => exact le_rfl
  | cons item rest ih =>
    refine le_trans ?_ (ih _)
    exact (le_max_left _ _).trans_eq (max_eq _ _).symm

theorem le_foldl_max_of_mem {ι : Type} (size : ι → ℚ) {items : List ι} {item : ι} (member : item ∈ items)
    (first : ℚ) : size item ≤ items.foldl (fun most item => Number.max most (size item)) first := by
  induction items generalizing first with
  | nil => cases member
  | cons other rest ih =>
    rcases List.mem_cons.mp member with rfl | inside
    · refine le_trans ?_ (le_foldl_max size rest _)
      exact (le_max_right _ _).trans_eq (max_eq _ _).symm
    · exact ih inside _

end Number

namespace Kind

instance : Fintype Kind := ⟨{.cpu, .gpu}, fun kind => by cases kind <;> decide⟩

theorem sum_eq {β : Type} [AddCommMonoid β] (f : Kind → β) : ∑ kind, f kind = f .cpu + f .gpu :=
  Finset.sum_pair (by decide)

theorem sum_all (f : Kind → ℚ) : (Kind.all.map f).sum = ∑ kind, f kind := by
  rw [sum_eq]
  simp [Kind.all]

theorem price_pos (kind : Kind) : (0 : ℚ) < kind.price := by
  cases kind <;> simp [price]

end Kind
end PodBudget
