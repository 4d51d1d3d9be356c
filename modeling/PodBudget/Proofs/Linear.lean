import Mathlib.LinearAlgebra.Matrix.ToLin
import Mathlib.LinearAlgebra.FiniteDimensional.Basic
import PodBudget.Linear.Elimination
import PodBudget.Proofs.Rational

/-! Solutions of square systems over the rationals. -/
namespace PodBudget.Linear.Equations

variable {n : Nat}

def Solves (system : Equations ℚ n) (x : Vector ℚ n) : Prop :=
  ∀ row, ∑ col, system.coefficient row col * x.get col = system.bound row

instance (system : Equations ℚ n) (x : Vector ℚ n) : Decidable (system.Solves x) :=
  inferInstanceAs (Decidable (∀ _, _))

def matrix (system : Equations ℚ n) : Matrix (Fin n) (Fin n) ℚ := system.coefficient

theorem vector_ofFn_get (x : Vector ℚ n) : Vector.ofFn x.get = x := by
  ext i bound
  simp [vector_get]

theorem vector_get_ofFn (f : Fin n → ℚ) : (Vector.ofFn f).get = f := by
  funext i
  simp [vector_get]

theorem solves_iff (system : Equations ℚ n) (x : Vector ℚ n) :
    system.Solves x ↔ system.matrix.mulVec x.get = system.bound :=
  funext_iff.symm

theorem existsUnique_solves (system : Equations ℚ n)
    (regular : ∀ z, system.matrix.mulVec z = 0 → z = 0) : ∃! x, system.Solves x := by
  have injective : Function.Injective system.matrix.mulVecLin := by
    rw [← LinearMap.ker_eq_bot, LinearMap.ker_eq_bot']
    exact regular
  obtain ⟨z, hits⟩ := LinearMap.injective_iff_surjective.mp injective system.bound
  refine ⟨Vector.ofFn z, ?_, ?_⟩
  · refine (solves_iff system _).mpr ?_
    rw [vector_get_ofFn]
    exact hits
  · intro x solves
    have same : x.get = z := injective (((solves_iff system x).mp solves).trans hits.symm)
    rw [← same, vector_ofFn_get]

end PodBudget.Linear.Equations
