import PodBudget.Proofs.Linear.Substitution

/-!
What the solver says of a system whose negligible pivots are 0. A result that left nothing of the rows without a pivot is
a solution, and with a pivot in every column it is the only one. A refusal says less than it seems to: the unknowns of
the columns without a pivot have been fixed at 0 by then, and the system may have solutions where they are not.
-/
namespace PodBudget.Linear.Equations

variable {n : Nat}

instance (system : Equations ℚ n) : Decidable system.IsCrisp := inferInstanceAs (Decidable (∀ _, _))

/-- What was left of the rows without a pivot when the result was found, which the later unknowns decide, was 0. -/
def LeavesNothing (system : Equations ℚ n) (x : Vector ℚ n) : Prop :=
  ∀ row, |system.coefficient row row| ≤ pivotTolerance → system.residual x row = 0

instance (system : Equations ℚ n) (x : Vector ℚ n) : Decidable (system.LeavesNothing x) :=
  inferInstanceAs (Decidable (∀ _, _))

section

variable {system : Equations ℚ n} (crisp : system.IsCrisp)
include crisp

theorem solves_iff_balanced (x : Vector ℚ n) :
    system.Solves x ↔ ∀ row, system.eliminate.coefficient row row * x.get row = system.eliminate.residual x row :=
  (solves_eliminate crisp x).symm.trans (solves_iff_residual (isCleared_eliminate crisp) x)

/-- A solution that is 0 wherever there is no pivot is what the solver finds. -/
theorem isSettled_of_solves {x : Vector ℚ n} (solves : system.Solves x) {row : Fin n}
    (free : system.pivot row = 0 → x.get row = 0) : system.eliminate.IsSettled x row := by
  apply isSettled_of_balanced _ ((solves_iff_balanced crisp x).mp solves row)
  rw [diagonal_eliminate crisp]
  exact (crisp row).imp_left fun zero => ⟨zero, free zero⟩

theorem solve_of_solves {x : Vector ℚ n} (solves : system.Solves x)
    (free : ∀ row, system.pivot row = 0 → x.get row = 0) : system.solve = .ok x :=
  system.eliminate.backSubstitute_of_isSettled fun row => isSettled_of_solves crisp solves (free row)

end

/-- Whatever rows were swapped and columns skipped, a result that left nothing of the rows without a pivot solves the
system. Where every column has a pivot there is a result, and no other solution. -/
theorem exact_of_isCrisp (system : Equations ℚ n) (crisp : system.IsCrisp) :
    (∀ x, system.solve = .ok x → system.eliminate.LeavesNothing x → system.Solves x) ∧
    ((∀ k, pivotTolerance < |system.pivot k|) →
      ∃ x, system.solve = .ok x ∧ system.Solves x ∧ ∀ y, system.Solves y → y = x) := by
  have sound (x : Vector ℚ n) (found : system.solve = .ok x) (nothing : system.eliminate.LeavesNothing x) :
      system.Solves x := by
    rw [solves_iff_balanced crisp]
    intro row
    exact (system.eliminate.isSettled_of_backSubstitute found row).balanced _ (nothing row)
  refine ⟨sound, ?_⟩
  intro regular
  have pivoted (row : Fin n) : pivotTolerance < |system.eliminate.coefficient row row| := by
    rw [diagonal_eliminate crisp]
    exact regular row
  cases outcome : system.solve with
  | error error =>
    obtain ⟨row, x, stuck, _⟩ := system.eliminate.stuck_of_backSubstitute outcome
    have small := (system.eliminate.of_unknown_error stuck).1
    exact absurd small (not_le.mpr (pivoted row))
  | ok x =>
    refine ⟨x, rfl, sound x outcome fun row small => absurd small (not_le.mpr (pivoted row)), ?_⟩
    intro y solves
    have free (row : Fin n) (zero : system.pivot row = 0) : y.get row = 0 :=
      absurd zero (ne_zero_of_pivotTolerance_lt (regular row))
    exact Except.ok.inj ((solve_of_solves crisp solves free).symm.trans outcome)

/-- The rows have to be swapped, the second column has no pivot, and one row follows from the others. -/
def dependent : Equations ℚ 3 := .of ![![0, 0, 3, 6], ![1, 2, 1, 4], ![2, 4, 5, 14]]

def regular : Equations ℚ 2 := .of ![![0, 2, 4], ![1, 1, 5]]

theorem exact_of_isCrisp_dependent :
    dependent.IsCrisp ∧ dependent.choosePivot 0 = 1 ∧ dependent.pivot 1 = 0 ∧ dependent.solve = .ok #v[2, 0, 2] ∧
    dependent.Solves #v[2, 0, 2] ∧
    regular.IsCrisp ∧ (∃ x, regular.solve = .ok x ∧ regular.Solves x ∧ ∀ y, regular.Solves y → y = x) := by
  have crisp : dependent.IsCrisp := by decide +kernel
  have found : dependent.solve = .ok #v[2, 0, 2] := by decide +kernel
  have nothing : dependent.eliminate.LeavesNothing #v[2, 0, 2] := by decide +kernel
  have solves := (exact_of_isCrisp dependent crisp).1 _ found nothing
  have firm : regular.IsCrisp := by decide +kernel
  have pivoted : ∀ k, pivotTolerance < |regular.pivot k| := by decide +kernel
  exact ⟨crisp, by decide +kernel, by decide +kernel, found, solves, firm, (exact_of_isCrisp regular firm).2 pivoted⟩

/-- A refusal names a row without a pivot. Every solution the system may have all the same is not 0 at a later column
without a pivot; so a refusal is right where the row is the last one without a pivot. -/
theorem skipped_of_refused (system : Equations ℚ n) (crisp : system.IsCrisp) {error : SolveError}
    (refused : system.solve = .error error) :
    ∃ row : Fin n, error = .inconsistent row ∧ system.pivot row = 0 ∧
      (∀ x, system.Solves x → ∃ col, row < col ∧ system.pivot col = 0 ∧ x.get col ≠ 0) ∧
      ((∀ col, row < col → system.pivot col ≠ 0) → ∀ x, ¬ system.Solves x) := by
  obtain ⟨row, y, stuck, settled⟩ := system.eliminate.stuck_of_backSubstitute refused
  obtain ⟨small, _, rfl⟩ := system.eliminate.of_unknown_error stuck
  rw [diagonal_eliminate crisp] at small
  have skipped : system.pivot row = 0 := (crisp row).resolve_right (not_lt.mpr small)
  have elsewhere (x : Vector ℚ n) (solves : system.Solves x) :
      ∃ col, row < col ∧ system.pivot col = 0 ∧ x.get col ≠ 0 := by
    by_contra none
    push Not at none
    -- Were the later unknowns without a pivot 0, the later rows would be settled as they were found.
    have found (later : Fin n) (below : row < later) : system.eliminate.IsSettled x later :=
      isSettled_of_solves crisp solves (none later below)
    have same (col : Fin n) (after : row < col) : y.get col = x.get col :=
      system.eliminate.eq_of_isSettled settled found after
    have balanced := (solves_iff_balanced crisp x).mp solves row
    rw [diagonal_eliminate crisp, skipped, zero_mul] at balanced
    obtain ⟨_, left, _⟩ := system.eliminate.of_unknown_error stuck
    rw [system.eliminate.residual_congr same, ← balanced, abs_zero] at left
    exact lt_asymm left residualTolerance_pos
  refine ⟨row, rfl, skipped, elsewhere, ?_⟩
  intro last x solves
  obtain ⟨col, below, zero, _⟩ := elsewhere x solves
  exact last col below zero

def contradictory : Equations ℚ 2 := .of ![![1, 2, 3], ![2, 4, 7]]

theorem skipped_of_refused_contradictory :
    contradictory.IsCrisp ∧ contradictory.solve = .error (.inconsistent 1) ∧ ∀ x, ¬ contradictory.Solves x := by
  have crisp : contradictory.IsCrisp := by decide +kernel
  have refused : contradictory.solve = .error (.inconsistent 1) := by decide +kernel
  obtain ⟨row, same, _, _, last⟩ := skipped_of_refused contradictory crisp refused
  have here : row = 1 := Fin.ext (SolveError.inconsistent.inj same).symm
  refine ⟨crisp, refused, last ?_⟩
  intro col below
  rw [here] at below
  omega

/-- One row fixes the second unknown, and the first occurs nowhere. -/
def hidden : Equations ℚ 2 := .of ![![0, 1, 1], ![0, 0, 0]]

/-- The row is used up by the first column, which has no pivot, and the second column finds none below it; so the second
unknown is fixed at 0, and the row is refused. -/
theorem refused_with_solution :
    hidden.IsCrisp ∧ hidden.solve = .error (.inconsistent 0) ∧ hidden.Solves #v[0, 1] := by
  decide +kernel

end PodBudget.Linear.Equations
