import Mathlib.Logic.Equiv.Fintype
import PodBudget.Proofs.Linear

/-!
The search for a pivot, and one step of the elimination. The entry that is chosen is 0 only where the whole column is 0
from its row on; and the rows that a step leaves have the same solutions.
-/
namespace PodBudget.Linear

variable {n : Nat}

theorem mem_indicesFrom (k : Nat) (i : Fin n) : i ∈ indicesFrom n k ↔ k ≤ i.val := by
  rw [indicesFrom, List.mem_drop_iff_getElem]
  simp only [List.getElem_finRange, List.length_finRange]
  constructor
  · rintro ⟨j, _, rfl⟩
    exact Nat.le_add_right k j
  · intro above
    refine ⟨i.val - k, by omega, ?_⟩
    ext
    simp only [Fin.val_cast]
    omega

theorem pivotTolerance_pos : (0 : ℚ) < pivotTolerance := by norm_num [pivotTolerance]

theorem residualTolerance_pos : (0 : ℚ) < residualTolerance := by norm_num [residualTolerance]

theorem ne_zero_of_pivotTolerance_lt {entry : ℚ} (large : pivotTolerance < |entry|) : entry ≠ 0 :=
  abs_pos.mp (pivotTolerance_pos.trans large)

namespace Equations

variable (system : Equations ℚ n)

def chosenEntry (k : Fin n) : ℚ := system.coefficient (system.choosePivot k) k

theorem abs_le_rowScale (k : Fin n) (row : Fin n) : |system.coefficient row k| ≤ system.rowScale k row := by
  have member : k ∈ indicesFrom n k := (mem_indicesFrom ..).mpr le_rfl
  rw [← Number.abs_eq]
  exact Number.le_foldl_max_of_mem (fun col => Number.abs (system.coefficient row col)) member 0

theorem betterPivot_spec (k : Fin n) (best : Fin n × ℚ) (row : Fin n) :
    best.2 ≤ (system.betterPivot k best row).2 ∧
      (system.coefficient row k ≠ 0 → 0 < (system.betterPivot k best row).2) ∧
      (system.betterPivot k best row = best ∨ (system.betterPivot k best row).1 = row ∧
        (0 < (system.betterPivot k best row).2 → system.coefficient row k ≠ 0)) := by
  have entry := system.abs_le_rowScale k row
  have scale_nonneg : 0 ≤ system.rowScale k row := (abs_nonneg _).trans entry
  unfold betterPivot
  simp only [beq_iff_eq, Number.abs_eq]
  split_ifs with blank better
  · refine ⟨le_rfl, ?_, .inl rfl⟩
    intro present
    rw [blank] at entry
    exact absurd (abs_nonpos_iff.mp entry) present
  · refine ⟨better.le, ?_, .inr ⟨rfl, ?_⟩⟩
    · intro present
      exact div_pos (abs_pos.mpr present) (lt_of_le_of_ne scale_nonneg (Ne.symm blank))
    · intro positive absent
      rw [absent, abs_zero, zero_div] at positive
      exact lt_irrefl 0 positive
  · refine ⟨le_rfl, ?_, .inl rfl⟩
    intro present
    have ratio := div_pos (abs_pos.mpr present) (lt_of_le_of_ne scale_nonneg (Ne.symm blank))
    exact ratio.trans_le (not_lt.mp better)

theorem foldl_betterPivot (k : Fin n) (rows : List (Fin n)) (best : Fin n × ℚ)
    (sound : 0 < best.2 → system.coefficient best.1 k ≠ 0) :
    let found := rows.foldl (system.betterPivot k) best
    best.2 ≤ found.2 ∧ (found.1 = best.1 ∨ found.1 ∈ rows) ∧
      (∀ row ∈ rows, system.coefficient row k ≠ 0 → 0 < found.2) ∧
      (0 < found.2 → system.coefficient found.1 k ≠ 0) := by
  induction rows generalizing best with
  | nil => exact ⟨le_rfl, .inl rfl, nofun, sound⟩
  | cons row rest ih =>
    obtain ⟨rises, positive, step⟩ := system.betterPivot_spec k best row
    have still : 0 < (system.betterPivot k best row).2 →
        system.coefficient (system.betterPivot k best row).1 k ≠ 0 := by
      rcases step with same | ⟨here, entry⟩
      · rwa [same]
      · rwa [here]
    obtain ⟨later, place, others, final⟩ := ih _ still
    refine ⟨rises.trans later, ?_, ?_, final⟩
    · rcases place with place | inside
      · rcases step with same | ⟨here, _⟩
        · exact .inl (place.trans (congrArg Prod.fst same))
        · exact .inr (List.mem_cons.mpr (.inl (place.trans here)))
      · exact .inr (List.mem_cons_of_mem _ inside)
    · intro other member present
      rcases List.mem_cons.mp member with rfl | inside
      · exact (positive present).trans_le later
      · exact others other inside present

theorem choosePivot_spec (k : Fin n) :
    k ≤ system.choosePivot k ∧ (system.chosenEntry k = 0 → ∀ row, k ≤ row → system.coefficient row k = 0) := by
  have sound : 0 < ((k, -1) : Fin n × ℚ).2 → system.coefficient k k ≠ 0 :=
    fun positive => absurd positive (by norm_num)
  obtain ⟨_, place, found, entry⟩ := system.foldl_betterPivot k (indicesFrom n k) (k, -1) sound
  constructor
  · rcases place with same | inside
    · exact same.ge
    · exact (mem_indicesFrom ..).mp inside
  · intro zero row below
    by_contra present
    exact entry (found row ((mem_indicesFrom ..).mpr below) present) zero

end Equations
end PodBudget.Linear
