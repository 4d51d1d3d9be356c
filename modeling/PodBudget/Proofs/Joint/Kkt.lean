import PodBudget.Proofs.Joint.Objective
import PodBudget.Proofs.Linear

/-!
The stationarity system states the conditions of Karush, Kuhn and Tucker: the slope of the objective is balanced by
the multipliers of the working constraints, and these hold with equality.
-/
namespace PodBudget.Joint

variable {n : Nat} (demands : Vector (Demand ℚ) n) (policy : Policy ℚ) (working : List (Constraint n))

/-- The slope at a point, balanced by multipliers, at a point where every working constraint is tight. -/
structure Stationary.Balances (target : Stationary ℚ n working.length) : Prop where
  slope : ∀ unknown, slopeAt demands target.point unknown +
    ∑ i : Fin working.length, (working.get i).row unknown * target.multipliers.get i = 0
  tight : ∀ constraint ∈ working, constraint.apply target.point = constraint.bound demands policy

theorem column_lt (unknown : Unknown n) : unknown.column < n * 2 := by
  obtain ⟨pod, kind⟩ := unknown
  cases kind <;> simp only [Unknown.column, Kind.index] <;> omega

def columns : Unknown n ≃ Fin (n * 2) where
  toFun unknown := ⟨unknown.column, column_lt unknown⟩
  invFun column := unknownAt column.val column.isLt
  left_inv unknown := unknownAt_column unknown (column_lt unknown)
  right_inv column := Fin.ext (column_unknownAt column.val column.isLt)

section entries

variable (unknown other : Unknown n) (i j : Fin working.length)

theorem get_unknown_row (col : Fin (n * 2 + working.length + 1)) :
    (stationarySystem demands working policy).get (Fin.castAdd _ (columns unknown)) col =
      unknownEntry demands working unknown col := by
  rw [stationarySystem, Linear.Equations.get_of]
  refine (dif_pos (column_lt unknown)).trans ?_
  exact congrArg (unknownEntry demands working · col) (unknownAt_column unknown (column_lt unknown))

theorem get_working_row (col : Fin (n * 2 + working.length + 1)) :
    (stationarySystem demands working policy).get (Fin.natAdd _ i) col =
      constraintEntry demands policy (n * 2 + working.length) (working.get i) col.val := by
  rw [stationarySystem, Linear.Equations.get_of, dif_neg (by simp)]
  congr 1
  simp

theorem coefficient_unknown_unknown :
    (stationarySystem demands working policy).coefficient (Fin.castAdd _ (columns unknown))
      (Fin.castAdd _ (columns other)) = if other = unknown then 2 * weightAt demands unknown else 0 := by
  refine (get_unknown_row demands policy working unknown _).trans ?_
  refine (if_pos (column_lt other)).trans ?_
  by_cases same : other = unknown
  · rw [if_pos same]
    exact if_pos (congrArg Unknown.column same)
  · rw [if_neg same]
    refine if_neg ?_
    intro equal
    exact same (columns.injective (Fin.ext equal))

theorem coefficient_unknown_working :
    (stationarySystem demands working policy).coefficient (Fin.castAdd _ (columns unknown)) (Fin.natAdd _ i) =
      (working.get i).row unknown := by
  refine (get_unknown_row demands policy working unknown _).trans ?_
  rw [unknownEntry, if_neg (by simp), dif_pos (by simp)]
  simp [Constraint.row]

theorem coefficient_working_unknown :
    (stationarySystem demands working policy).coefficient (Fin.natAdd _ i) (Fin.castAdd _ (columns unknown)) =
      (working.get i).row unknown := by
  refine (get_working_row demands policy working i _).trans ?_
  refine (dif_pos (column_lt unknown)).trans ?_
  exact congrArg (working.get i).coefficient (unknownAt_column unknown (column_lt unknown))

theorem coefficient_working_working :
    (stationarySystem demands working policy).coefficient (Fin.natAdd _ i) (Fin.natAdd _ j) = 0 := by
  refine (get_working_row demands policy working i _).trans ?_
  rw [constraintEntry, dif_neg (by simp), if_pos (by simp)]

theorem bound_unknown :
    (stationarySystem demands working policy).bound (Fin.castAdd _ (columns unknown)) =
      2 * weightAt demands unknown * usageAt demands unknown + worthAt demands unknown := by
  refine (get_unknown_row demands policy working unknown _).trans ?_
  rw [unknownEntry, if_neg (by simp), dif_neg (by simp)]
  rfl

theorem bound_working :
    (stationarySystem demands working policy).bound (Fin.natAdd _ i) = (working.get i).bound demands policy := by
  refine (get_working_row demands policy working i _).trans ?_
  rw [constraintEntry, dif_neg (by simp), if_neg (by simp)]

private theorem sum_columns {m : Nat} (f : Fin (n * 2 + m) → ℚ) :
    ∑ col, f col = ∑ unknown, f (Fin.castAdd m (columns unknown)) + ∑ i, f (Fin.natAdd (n * 2) i) := by
  rw [Fin.sum_univ_add]
  congr 1
  exact (columns.sum_comp fun col => f (Fin.castAdd m col)).symm

theorem sum_unknown_row (z : Fin (n * 2 + working.length) → ℚ) :
    ∑ col, (stationarySystem demands working policy).coefficient (Fin.castAdd _ (columns unknown)) col * z col =
      2 * weightAt demands unknown * z (Fin.castAdd _ (columns unknown)) +
        ∑ i : Fin working.length, (working.get i).row unknown * z (Fin.natAdd _ i) := by
  rw [sum_columns]
  congr 1
  · simp only [coefficient_unknown_unknown, ite_mul, zero_mul]
    rw [Finset.sum_ite_eq' Finset.univ unknown, if_pos (Finset.mem_univ _)]
  · exact Finset.sum_congr rfl fun i _ => by rw [coefficient_unknown_working]

theorem sum_working_row (z : Fin (n * 2 + working.length) → ℚ) :
    ∑ col, (stationarySystem demands working policy).coefficient (Fin.natAdd _ i) col * z col =
      (working.get i).row ⬝ᵥ fun unknown => z (Fin.castAdd _ (columns unknown)) := by
  have vanish : ∑ j, (stationarySystem demands working policy).coefficient (Fin.natAdd _ i) (Fin.natAdd _ j) *
      z (Fin.natAdd _ j) = 0 := by
    refine Finset.sum_eq_zero fun j _ => ?_
    rw [coefficient_working_working, zero_mul]
  rw [sum_columns, vanish, add_zero]
  exact Finset.sum_congr rfl fun u _ => by rw [coefficient_working_unknown]

end entries

theorem limit_ofSolution {m : Nat} (x : Vector ℚ (n * 2 + m)) (unknown : Unknown n) :
    (Stationary.ofSolution x).point.limit unknown = x.get (Fin.castAdd m (columns unknown)) := by
  simp only [Stationary.ofSolution, Point.limit, Linear.Equations.vector_get, Vector.getElem_ofFn, PerKind.get_of]
  rfl

theorem multiplier_ofSolution {m : Nat} (x : Vector ℚ (n * 2 + m)) (i : Fin m) :
    (Stationary.ofSolution x).multipliers.get i = x.get (Fin.natAdd _ i) := by
  simp [Stationary.ofSolution, Linear.Equations.vector_get]

theorem solves_iff_balances (x : Vector ℚ (n * 2 + working.length)) :
    (stationarySystem demands working policy).Solves x ↔
      (Stationary.ofSolution x).Balances demands policy working := by
  have slope_iff (unknown : Unknown n) :
      ∑ col, (stationarySystem demands working policy).coefficient (Fin.castAdd _ (columns unknown)) col *
          x.get col =
        (stationarySystem demands working policy).bound (Fin.castAdd _ (columns unknown)) ↔
      slopeAt demands (Stationary.ofSolution x).point unknown + ∑ i : Fin working.length,
        (working.get i).row unknown * (Stationary.ofSolution x).multipliers.get i = 0 := by
    simp only [sum_unknown_row, bound_unknown, slopeAt, limit_ofSolution, multiplier_ofSolution]
    constructor
    · intro balanced
      linarith
    · intro balanced
      linarith
  have tight_iff (i : Fin working.length) :
      ∑ col, (stationarySystem demands working policy).coefficient (Fin.natAdd _ i) col * x.get col =
        (stationarySystem demands working policy).bound (Fin.natAdd _ i) ↔
      (working.get i).apply (Stationary.ofSolution x).point = (working.get i).bound demands policy := by
    rw [sum_working_row, bound_working, Constraint.apply_eq, funext (limit_ofSolution x)]
  constructor
  · intro solves
    refine ⟨fun unknown => (slope_iff unknown).mp (solves _), fun constraint member => ?_⟩
    obtain ⟨i, bound, rfl⟩ := List.getElem_of_mem member
    exact (tight_iff ⟨i, bound⟩).mp (solves _)
  · rintro ⟨slope, tight⟩ row
    induction row using Fin.addCases with
    | left column =>
      obtain ⟨unknown, rfl⟩ := columns.surjective column
      exact (slope_iff unknown).mpr (slope unknown)
    | right i => exact (tight_iff i).mpr (tight _ (List.getElem_mem i.isLt))

variable {demands policy working}

namespace Stationary.Balances

variable {target : Stationary ℚ n working.length} (balances : target.Balances demands policy working)
include balances

theorem slope_dot (point : Point ℚ n) :
    slopeAt demands target.point ⬝ᵥ (point.limit - target.point.limit) =
      ∑ i : Fin working.length, target.multipliers.get i * (working.get i).slack demands policy point := by
  have turned (unknown : Unknown n) : slopeAt demands target.point unknown =
      -∑ i : Fin working.length, (working.get i).row unknown * target.multipliers.get i :=
    eq_neg_of_add_eq_zero_left (balances.slope unknown)
  have along (i : Fin working.length) : (working.get i).slack demands policy point =
      -((working.get i).row ⬝ᵥ (point.limit - target.point.limit)) := by
    have tight : (working.get i).apply target.point = (working.get i).bound demands policy :=
      balances.tight _ (List.getElem_mem i.isLt)
    rw [Constraint.slack, ← tight, dotProduct_sub, ← Constraint.apply_eq, ← Constraint.apply_eq, neg_sub]
  simp only [along, dotProduct, turned, neg_mul, Finset.sum_neg_distrib, mul_neg, Finset.sum_mul, Finset.mul_sum]
  rw [Finset.sum_comm]
  refine congrArg Neg.neg (Finset.sum_congr rfl fun i _ => Finset.sum_congr rfl fun u _ => ?_)
  ring

/-- The objective of any point, measured from a stationary one: the multipliers price what the working constraints
leave unused, and the rest is the weighted distance. -/
theorem objective_eq (point : Point ℚ n) :
    objective demands point = objective demands target.point +
      ∑ i : Fin working.length, target.multipliers.get i * (working.get i).slack demands policy point +
      gap demands target.point point := by
  rw [objective_expand demands target.point point, balances.slope_dot]

theorem objective_of_tight {point : Point ℚ n}
    (tight : ∀ constraint ∈ working, constraint.apply point = constraint.bound demands policy) :
    objective demands point = objective demands target.point + gap demands target.point point := by
  have unused : ∑ i : Fin working.length,
      target.multipliers.get i * (working.get i).slack demands policy point = 0 := by
    refine Finset.sum_eq_zero fun i _ => ?_
    have bound : (working.get i).apply point = (working.get i).bound demands policy :=
      tight _ (List.getElem_mem i.isLt)
    rw [Constraint.slack, bound, sub_self, mul_zero]
  rw [balances.objective_eq point, unused, add_zero]

end Stationary.Balances

variable (demands policy working)

/-- Independent working constraints and positive weights leave the system exactly one solution. -/
theorem existsUnique_stationary (positive : ∀ pod kind, 0 < (demands.get pod).weight.get kind)
    (independent : LinearIndependent ℚ fun i : Fin working.length => (working.get i).row) :
    ∃! x, (stationarySystem demands working policy).Solves x := by
  refine Linear.Equations.existsUnique_solves _ fun z kernel => ?_
  let x (unknown : Unknown n) : ℚ := z (Fin.castAdd _ (columns unknown))
  have across (i : Fin working.length) : (working.get i).row ⬝ᵥ x = 0 := by
    rw [← sum_working_row demands policy]
    exact congrFun kernel (Fin.natAdd _ i)
  have balanced (unknown : Unknown n) : 2 * weightAt demands unknown * x unknown +
      ∑ i : Fin working.length, (working.get i).row unknown * z (Fin.natAdd _ i) = 0 := by
    rw [← sum_unknown_row demands policy]
    exact congrFun kernel (Fin.castAdd _ (columns unknown))
  -- multiplied by `x`, the multipliers drop out, and a weighted sum of squares is left
  have cross : ∑ unknown, (∑ i : Fin working.length, (working.get i).row unknown * z (Fin.natAdd _ i)) *
      x unknown = 0 := by
    simp only [Finset.sum_mul]
    rw [Finset.sum_comm]
    refine Finset.sum_eq_zero fun i _ => ?_
    rw [← mul_zero (z (Fin.natAdd _ i)), ← across i, dotProduct, Finset.mul_sum]
    exact Finset.sum_congr rfl fun u _ => by ring
  have energy : ∑ unknown, 2 * weightAt demands unknown * x unknown ^ 2 = 0 := by
    have whole := Finset.sum_eq_zero fun unknown (_ : unknown ∈ Finset.univ) =>
      (congrArg (· * x unknown) (balanced unknown)).trans (zero_mul _)
    simp only [add_mul, Finset.sum_add_distrib, cross, add_zero] at whole
    rw [← whole]
    exact Finset.sum_congr rfl fun u _ => by ring
  have weight_pos (unknown : Unknown n) : 0 < 2 * weightAt demands unknown :=
    mul_pos two_pos (positive unknown.1 unknown.2)
  have still (unknown : Unknown n) : x unknown = 0 := by
    have term := (Finset.sum_eq_zero_iff_of_nonneg fun u _ =>
      mul_nonneg (weight_pos u).le (sq_nonneg (x u))).mp energy unknown (Finset.mem_univ _)
    exact pow_eq_zero_iff two_ne_zero |>.mp ((mul_eq_zero_iff_left (weight_pos unknown).ne').mp term)
  have unloaded : ∀ i : Fin working.length, z (Fin.natAdd _ i) = 0 := by
    refine Fintype.linearIndependent_iff.mp independent _ ?_
    ext unknown
    have balance := balanced unknown
    rw [still unknown, mul_zero, zero_add] at balance
    rw [Finset.sum_apply, Pi.zero_apply, ← balance]
    exact Finset.sum_congr rfl fun i _ => mul_comm _ _
  ext col
  induction col using Fin.addCases with
  | left column =>
    obtain ⟨unknown, rfl⟩ := columns.surjective column
    exact still unknown
  | right i => exact unloaded i

end PodBudget.Joint
