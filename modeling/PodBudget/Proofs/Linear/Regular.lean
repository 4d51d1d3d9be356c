import Mathlib.LinearAlgebra.Matrix.Block
import Mathlib.LinearAlgebra.Matrix.ToLinearEquiv
import PodBudget.Proofs.Linear.Solutions

/-!
Systems with exactly one solution. Their elimination finds a pivot in every column, so the solver does not refuse them
as long as no pivot that is not 0 is negligible.
-/
namespace PodBudget.Linear.Equations

variable {n : Nat} {system : Equations ℚ n} (crisp : system.IsCrisp)
include crisp

theorem det_eliminate : system.eliminate.matrix.det = ∏ k, system.pivot k := by
  have upper : system.eliminate.matrix.IsUpperTriangular :=
    fun row col below => isCleared_eliminate crisp row col col.isLt below
  rw [Matrix.det_of_isUpperTriangular upper]
  exact Finset.prod_congr rfl fun k _ => diagonal_eliminate crisp k

theorem pivot_ne_zero (unique : ∃! x, system.Solves x) (k : Fin n) : system.pivot k ≠ 0 := by
  intro missing
  have singular : system.eliminate.matrix.det = 0 := by
    rw [det_eliminate crisp]
    exact Finset.prod_eq_zero (Finset.mem_univ k) missing
  obtain ⟨z, nonzero, kernel⟩ := Matrix.exists_mulVec_eq_zero_iff.mpr singular
  obtain ⟨x, solves, only⟩ := unique
  -- moved along the kernel, the solution stays a solution
  have moved : system.Solves (Vector.ofFn (x.get + z)) := by
    apply (solves_eliminate crisp _).mp
    have here := (solves_iff _ _).mp ((solves_eliminate crisp x).mpr solves)
    apply (solves_iff _ _).mpr
    rw [vector_get_ofFn, Matrix.mulVec_add, kernel, add_zero, here]
  have same := congrArg Vector.get (only _ moved)
  rw [vector_get_ofFn] at same
  exact nonzero (left_eq_add.mp same.symm)

theorem solve_of_existsUnique (unique : ∃! x, system.Solves x) :
    ∃ x, system.solve = .ok x ∧ system.Solves x := by
  have pivots := pivot_ne_zero crisp unique
  obtain ⟨x, solves, -⟩ := unique
  exact ⟨x, solve_of_solves crisp solves fun row none => absurd none (pivots row), solves⟩

end PodBudget.Linear.Equations
