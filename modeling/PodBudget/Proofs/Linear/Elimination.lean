import Mathlib.Tactic.FieldSimp
import Mathlib.Tactic.LinearCombination
import PodBudget.Proofs.Linear.Pivot

/-!
The elimination. Each step clears a column below its diagonal and keeps the solutions, as long as a chosen entry that
counts as 0 is 0. In the end the system is triangular, and its diagonal holds the chosen entries.
-/
namespace PodBudget.Linear.Equations

variable {n : Nat}

def excess (row : Vector ℚ (n + 1)) (x : Vector ℚ n) : ℚ :=
  ∑ col : Fin n, row.get col.castSucc * x.get col - row.get (Fin.last n)

theorem solves_iff_excess (system : Equations ℚ n) (x : Vector ℚ n) :
    system.Solves x ↔ ∀ row, excess (system.rows.get row) x = 0 :=
  forall_congr' fun _ => sub_eq_zero.symm

def IsCleared (system : Equations ℚ n) (k : Nat) : Prop :=
  ∀ row col : Fin n, col.val < k → col < row → system.coefficient row col = 0

theorem get_clearColumn {k : Fin n} {pivot row : Vector ℚ (n + 1)} (present : pivot.get k.castSucc ≠ 0)
    (cleared : ∀ col : Fin n, col < k → pivot.get col.castSucc = 0) (col : Fin (n + 1)) :
    (clearColumn k pivot row).get col =
      row.get col - row.get k.castSucc / pivot.get k.castSucc * pivot.get col := by
  unfold clearColumn
  simp only [beq_iff_eq]
  split_ifs with none
  · rw [none, zero_mul, sub_zero]
  · rw [vector_get, Vector.getElem_ofFn]
    simp only [Fin.eta]
    split_ifs with before here
    · have small : col.val < n := lt_trans (Fin.lt_def.mp before) k.isLt
      have zero : pivot.get col = 0 := cleared ⟨col.val, small⟩ (Fin.lt_def.mp before)
      rw [zero, mul_zero, sub_zero]
    · rw [here, div_mul_cancel₀ _ present, sub_self]
    · rfl

theorem excess_clearColumn {k : Fin n} {pivot row : Vector ℚ (n + 1)} (present : pivot.get k.castSucc ≠ 0)
    (cleared : ∀ col : Fin n, col < k → pivot.get col.castSucc = 0) (x : Vector ℚ n) :
    excess (clearColumn k pivot row) x =
      excess row x - row.get k.castSucc / pivot.get k.castSucc * excess pivot x := by
  simp only [excess, get_clearColumn present cleared, sub_mul, Finset.sum_sub_distrib, mul_assoc, ← Finset.mul_sum]
  ring

section

variable (system : Equations ℚ n) (k : Fin n)

def swapped (row : Fin n) : Fin n := Equiv.swap k (system.choosePivot k) row

theorem lt_swapped {row col : Fin n} (early : col < k) (below : col < row) : col < system.swapped k row := by
  have chosen := (system.choosePivot_spec k).1
  rw [swapped, Equiv.swap_apply_def]
  split_ifs
  · exact early.trans_le chosen
  · exact early
  · exact below

theorem eliminateColumn_of_negligible (negligible : |system.chosenEntry k| ≤ pivotTolerance) :
    system.eliminateColumn k = system := by
  have small : Number.abs (system.coefficient (system.choosePivot k) k) ≤ pivotTolerance := by
    rwa [Number.abs_eq]
  unfold eliminateColumn
  exact if_pos small

variable {k} (pivoted : pivotTolerance < |system.chosenEntry k|)
include pivoted

theorem rows_eliminateColumn (row : Fin n) :
    (system.eliminateColumn k).rows.get row =
      if row ≤ k then system.rows.get (system.swapped k row)
      else clearColumn k (system.rows.get (system.choosePivot k)) (system.rows.get (system.swapped k row)) := by
  have swap (i : Fin n) : (system.rows.swap k (system.choosePivot k) k.isLt (system.choosePivot k).isLt).get i =
      system.rows.get (system.swapped k i) := by
    simp only [vector_get, swapped, Vector.getElem_swap, Equiv.swap_apply_def, Fin.ext_iff]
    split_ifs <;> rfl
  have first : system.swapped k k = system.choosePivot k := Equiv.swap_apply_left ..
  have large : ¬ Number.abs (system.coefficient (system.choosePivot k) k) ≤ pivotTolerance := by
    rw [Number.abs_eq]
    exact not_le.mpr pivoted
  unfold eliminateColumn
  dsimp only
  rw [if_neg large, vector_get, Vector.getElem_mapFinIdx, swap k, first]
  exact if_congr Fin.le_def.symm (swap row) (congrArg _ (swap row))

end

section

variable {system : Equations ℚ n} {k : Fin n} (cleared : system.IsCleared k)
include cleared

/-- Bringing up a row and subtracting it from others keeps the solutions. -/
theorem solves_eliminateColumn (x : Vector ℚ n) : (system.eliminateColumn k).Solves x ↔ system.Solves x := by
  by_cases negligible : |system.chosenEntry k| ≤ pivotTolerance
  · rw [system.eliminateColumn_of_negligible k negligible]
  · have pivoted := not_le.mp negligible
    have present := ne_zero_of_pivotTolerance_lt pivoted
    have blank (col : Fin n) (before : col < k) : system.coefficient (system.choosePivot k) col = 0 :=
      cleared _ _ before (before.trans_le (system.choosePivot_spec k).1)
    have first : system.swapped k k = system.choosePivot k := Equiv.swap_apply_left ..
    simp only [solves_iff_excess, system.rows_eliminateColumn pivoted]
    constructor
    · intro solves row
      have pivot : excess (system.rows.get (system.choosePivot k)) x = 0 := by
        have top := solves k
        rwa [if_pos le_rfl, first] at top
      have all (other : Fin n) : excess (system.rows.get (system.swapped k other)) x = 0 := by
        have here := solves other
        split_ifs at here
        · exact here
        · rwa [excess_clearColumn present blank, pivot, mul_zero, sub_zero] at here
      have back : system.swapped k (system.swapped k row) = row := Equiv.swap_apply_self ..
      rw [← back]
      exact all _
    · intro solves row
      split_ifs
      · exact solves _
      · rw [excess_clearColumn present blank, solves, solves, mul_zero, sub_zero]

theorem isCleared_eliminateColumn
    (crisp : system.chosenEntry k = 0 ∨ pivotTolerance < |system.chosenEntry k|) :
    (system.eliminateColumn k).IsCleared (k + 1) := by
  intro row col early below
  by_cases negligible : |system.chosenEntry k| ≤ pivotTolerance
  · rw [system.eliminateColumn_of_negligible k negligible]
    have zero := crisp.resolve_right (not_lt.mpr negligible)
    rcases lt_or_eq_of_le (Nat.lt_succ_iff.mp early) with before | here
    · exact cleared row col before below
    · obtain rfl : col = k := Fin.ext here
      exact (system.choosePivot_spec col).2 zero row below.le
  · have pivoted := not_le.mp negligible
    have present := ne_zero_of_pivotTolerance_lt pivoted
    have blank (col : Fin n) (before : col < k) : system.coefficient (system.choosePivot k) col = 0 :=
      cleared _ _ before (before.trans_le (system.choosePivot_spec k).1)
    have moved (before : col < k) : system.coefficient (system.swapped k row) col = 0 :=
      cleared _ _ before (system.lt_swapped k before below)
    unfold coefficient at moved ⊢
    rw [system.rows_eliminateColumn pivoted]
    split_ifs with above
    · exact moved (below.trans_le above)
    · rw [get_clearColumn present blank]
      rcases lt_or_eq_of_le (Nat.lt_succ_iff.mp early) with before | here
      · have zero : (system.rows.get (system.choosePivot k)).get col.castSucc = 0 := blank col before
        rw [moved before, zero, mul_zero, sub_zero]
      · obtain rfl : col = k := Fin.ext here
        exact sub_eq_zero.mpr (div_mul_cancel₀ _ present).symm

end

theorem coefficient_eliminateColumn_of_lt (system : Equations ℚ n) {k row : Fin n} (above : row < k) (col : Fin n) :
    (system.eliminateColumn k).coefficient row col = system.coefficient row col := by
  by_cases negligible : |system.chosenEntry k| ≤ pivotTolerance
  · rw [system.eliminateColumn_of_negligible k negligible]
  · have apart : row ≠ system.choosePivot k := (above.trans_le (system.choosePivot_spec k).1).ne
    have still : system.swapped k row = row := Equiv.swap_apply_of_ne_of_ne above.ne apart
    unfold coefficient
    rw [system.rows_eliminateColumn (not_le.mp negligible), if_pos above.le, still]

theorem coefficient_eliminateColumn_self (system : Equations ℚ n) {k : Fin n}
    (crisp : system.chosenEntry k = 0 ∨ pivotTolerance < |system.chosenEntry k|) :
    (system.eliminateColumn k).coefficient k k = system.chosenEntry k := by
  by_cases negligible : |system.chosenEntry k| ≤ pivotTolerance
  · have zero := crisp.resolve_right (not_lt.mpr negligible)
    rw [system.eliminateColumn_of_negligible k negligible, zero]
    exact (system.choosePivot_spec k).2 zero k le_rfl
  · have first : system.swapped k k = system.choosePivot k := Equiv.swap_apply_left ..
    unfold coefficient
    rw [system.rows_eliminateColumn (not_le.mp negligible), if_pos le_rfl, first]
    rfl

variable (system : Equations ℚ n)

/-- The system when the columns before the `k`-th have been dealt with. -/
def before (k : Nat) : Equations ℚ n := ((List.finRange n).take k).foldl eliminateColumn system

theorem before_succ (k : Fin n) : system.before (k + 1) = (system.before k).eliminateColumn k := by
  have longer : (List.finRange n).take (k + 1) = (List.finRange n).take k ++ [k] := by
    rw [← List.take_concat_get' _ _ (by simp)]
    simp
  rw [before, longer, List.foldl_append]
  rfl

theorem before_last : system.before n = system.eliminate := by
  rw [before, List.take_of_length_le (by simp)]
  rfl

def pivot (k : Fin n) : ℚ := (system.before k).chosenEntry k

/-- Every entry that is chosen and counts as 0 is 0. -/
def IsCrisp : Prop := ∀ k, system.pivot k = 0 ∨ pivotTolerance < |system.pivot k|

section

variable {system} (crisp : system.IsCrisp)
include crisp

theorem isCleared_before (k : Nat) (bound : k ≤ n) : (system.before k).IsCleared k := by
  induction k with
  | zero => exact fun _ _ early => absurd early (Nat.not_lt_zero _)
  | succ k ih =>
    have step := system.before_succ ⟨k, bound⟩
    rw [step]
    exact isCleared_eliminateColumn (ih (Nat.le_of_succ_le bound)) (crisp ⟨k, bound⟩)

theorem solves_before (k : Nat) (bound : k ≤ n) (x : Vector ℚ n) :
    (system.before k).Solves x ↔ system.Solves x := by
  induction k with
  | zero => exact Iff.rfl
  | succ k ih =>
    have step := system.before_succ ⟨k, bound⟩
    have cleared := isCleared_before crisp k (Nat.le_of_succ_le bound)
    rw [step]
    exact (solves_eliminateColumn (k := ⟨k, bound⟩) cleared x).trans (ih (Nat.le_of_succ_le bound))

theorem coefficient_before_self (row : Fin n) (k : Nat) (late : row < k) (bound : k ≤ n) :
    (system.before k).coefficient row row = system.pivot row := by
  induction k with
  | zero => exact absurd late (Nat.not_lt_zero _)
  | succ k ih =>
    have step := system.before_succ ⟨k, bound⟩
    rw [step]
    rcases lt_or_eq_of_le (Nat.lt_succ_iff.mp late) with above | here
    · rw [coefficient_eliminateColumn_of_lt _ (k := ⟨k, bound⟩) above]
      exact ih above (Nat.le_of_succ_le bound)
    · obtain rfl : row = ⟨k, bound⟩ := Fin.ext here
      exact coefficient_eliminateColumn_self _ (crisp ⟨k, bound⟩)

theorem isCleared_eliminate : system.eliminate.IsCleared n :=
  system.before_last ▸ isCleared_before crisp n le_rfl

theorem solves_eliminate (x : Vector ℚ n) : system.eliminate.Solves x ↔ system.Solves x :=
  system.before_last ▸ solves_before crisp n le_rfl x

theorem diagonal_eliminate (row : Fin n) : system.eliminate.coefficient row row = system.pivot row :=
  system.before_last ▸ coefficient_before_self crisp row n row.isLt le_rfl

end

end PodBudget.Linear.Equations
