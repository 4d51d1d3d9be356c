import PodBudget.Proofs.Linear.Elimination

/-!
Back substitution. What it comes to is settled row by row: each unknown is what its row makes of the later ones. So a
triangular system is solved where every row that has no pivot leaves nothing, and there is one way to settle the rows.
-/
namespace PodBudget.Linear.Equations

variable {n : Nat} (system : Equations ℚ n)

theorem indicesFrom_eq_cons (row : Fin n) : indicesFrom n row = row :: indicesFrom n (row + 1) := by
  rw [indicesFrom, List.drop_eq_getElem_cons (by simp)]
  simp [indicesFrom]

theorem residual_eq (x : Vector ℚ n) (row : Fin n) :
    system.residual x row =
      system.bound row - ((indicesFrom n (row + 1)).map fun col => system.coefficient row col * x.get col).sum := by
  unfold residual
  generalize system.bound row = left
  induction indicesFrom n (row + 1) generalizing left with
  | nil => simp
  | cons col rest ih => rw [List.foldl_cons, ih, List.map_cons, List.sum_cons, sub_sub]

theorem residual_congr {x y : Vector ℚ n} {row : Fin n} (same : ∀ col, row < col → x.get col = y.get col) :
    system.residual x row = system.residual y row := by
  rw [residual_eq, residual_eq]
  congr 2
  apply List.map_congr_left
  intro col member
  rw [same col ((mem_indicesFrom ..).mp member)]

theorem solves_iff_residual {system : Equations ℚ n} (cleared : system.IsCleared n) (x : Vector ℚ n) :
    system.Solves x ↔ ∀ row, system.coefficient row row * x.get row = system.residual x row := by
  refine forall_congr' fun row => ?_
  let term := fun col => system.coefficient row col * x.get col
  have early : (((List.finRange n).take row).map term).sum = 0 := by
    apply List.sum_eq_zero
    intro value member
    obtain ⟨col, inside, rfl⟩ := List.mem_map.mp member
    obtain ⟨i, bound, rfl⟩ := List.mem_take_iff_getElem.mp inside
    have small : i < row.val := (lt_min_iff.mp bound).1
    simp only [List.getElem_finRange, term]
    rw [cleared row _ (Fin.isLt _) small, zero_mul]
  have split : ∑ col, term col = term row + ((indicesFrom n (row + 1)).map term).sum := by
    have whole := List.take_append_drop row.val (List.finRange n)
    rw [Fin.sum_univ_def, ← whole, List.map_append, List.sum_append, early, zero_add]
    change ((indicesFrom n row).map term).sum = _
    rw [indicesFrom_eq_cons, List.map_cons, List.sum_cons]
  rw [residual_eq]
  change ∑ col, term col = _ ↔ term row = _
  rw [split, eq_sub_iff_add_eq]

/-- The unknown of a row is what the row makes of the later ones. -/
def IsSettled (x : Vector ℚ n) (row : Fin n) : Prop := system.unknown x row = .ok (x.get row)

theorem unknown_congr {x y : Vector ℚ n} {row : Fin n} (same : ∀ col, row < col → x.get col = y.get col) :
    system.unknown x row = system.unknown y row := by
  rw [unknown, unknown, system.residual_congr same]

theorem unknown_of_pivot {row : Fin n} (pivoted : pivotTolerance < |system.coefficient row row|) (x : Vector ℚ n) :
    system.unknown x row = .ok (system.residual x row / system.coefficient row row) := by
  rw [unknown, Number.abs_eq, if_neg (not_le.mpr pivoted)]

theorem unknown_of_negligible {row : Fin n} (negligible : |system.coefficient row row| ≤ pivotTolerance)
    (x : Vector ℚ n) :
    system.unknown x row =
      if residualTolerance < |system.residual x row| then .error (.inconsistent row) else .ok 0 := by
  rw [unknown, Number.abs_eq, Number.abs_eq, if_pos negligible]

theorem of_unknown_error {x : Vector ℚ n} {row : Fin n} {error : SolveError}
    (failed : system.unknown x row = .error error) :
    |system.coefficient row row| ≤ pivotTolerance ∧ residualTolerance < |system.residual x row| ∧
      error = .inconsistent row := by
  by_cases negligible : |system.coefficient row row| ≤ pivotTolerance
  · rw [system.unknown_of_negligible negligible] at failed
    split_ifs at failed with left
    cases failed
    exact ⟨negligible, left, rfl⟩
  · rw [system.unknown_of_pivot (not_le.mp negligible)] at failed
    cases failed

theorem IsSettled.balanced {x : Vector ℚ n} {row : Fin n} (settled : system.IsSettled x row)
    (exact_ : |system.coefficient row row| ≤ pivotTolerance → system.residual x row = 0) :
    system.coefficient row row * x.get row = system.residual x row := by
  unfold IsSettled at settled
  by_cases negligible : |system.coefficient row row| ≤ pivotTolerance
  · rw [system.unknown_of_negligible negligible] at settled
    split_ifs at settled
    have zero : x.get row = 0 := (Except.ok.inj settled).symm
    rw [zero, mul_zero, exact_ negligible]
  · have pivoted := not_le.mp negligible
    rw [system.unknown_of_pivot pivoted] at settled
    rw [← Except.ok.inj settled, mul_div_cancel₀ _ (ne_zero_of_pivotTolerance_lt pivoted)]

theorem isSettled_of_balanced {x : Vector ℚ n} {row : Fin n}
    (balanced : system.coefficient row row * x.get row = system.residual x row)
    (crisp : system.coefficient row row = 0 ∧ x.get row = 0 ∨ pivotTolerance < |system.coefficient row row|) :
    system.IsSettled x row := by
  unfold IsSettled
  rcases crisp with ⟨zero, free⟩ | pivoted
  · have small : |system.coefficient row row| ≤ pivotTolerance := by
      rw [zero, abs_zero]
      norm_num [pivotTolerance]
    have none : ¬ residualTolerance < |system.residual x row| := by
      rw [← balanced, zero, zero_mul, abs_zero]
      norm_num [residualTolerance]
    rw [system.unknown_of_negligible small, if_neg none, free]
  · rw [system.unknown_of_pivot pivoted, ← balanced, mul_div_cancel_left₀ _ (ne_zero_of_pivotTolerance_lt pivoted)]

theorem eq_of_isSettled {x y : Vector ℚ n} {row : Fin n} (first : ∀ later, row < later → system.IsSettled x later)
    (second : ∀ later, row < later → system.IsSettled y later) {later : Fin n} (below : row < later) :
    x.get later = y.get later := by
  induction later using WellFoundedGT.induction with
  | ind later ih =>
    have same : system.unknown x later = system.unknown y later :=
      system.unknown_congr fun col after => ih col after (below.trans after)
    have values := (first later below).symm.trans (same.trans (second later below))
    exact Except.ok.inj values

def substitute (rows : List (Fin n)) (x : Vector ℚ n) : Except SolveError (Vector ℚ n) :=
  rows.foldlM (fun x row => do return x.set row (← system.unknown x row) row.isLt) x

theorem substitute_cons (row : Fin n) (rest : List (Fin n)) (x : Vector ℚ n) :
    system.substitute (row :: rest) x =
      (system.unknown x row).bind fun value => system.substitute rest (x.set row value row.isLt) := by
  unfold substitute
  rw [List.foldlM_cons]
  cases system.unknown x row <;> rfl

theorem get_set_of_ne (x : Vector ℚ n) {row col : Fin n} (value : ℚ) (apart : col ≠ row) :
    (x.set row value row.isLt).get col = x.get col := by
  rw [vector_get, vector_get, Vector.getElem_set_ne]
  exact fun same => apart (Fin.ext same.symm)

theorem get_set_self (x : Vector ℚ n) (row : Fin n) (value : ℚ) : (x.set row value row.isLt).get row = value :=
  Vector.getElem_set_self _

theorem isSettled_of_substitute {rows : List (Fin n)} (descending : rows.Pairwise (· > ·)) {x y : Vector ℚ n}
    (done : system.substitute rows x = .ok y) :
    (∀ col ∉ rows, y.get col = x.get col) ∧ ∀ row ∈ rows, system.IsSettled y row := by
  induction rows generalizing x with
  | nil =>
    cases done
    exact ⟨fun _ _ => rfl, nofun⟩
  | cons row rest ih =>
    obtain ⟨above, descending⟩ := List.pairwise_cons.mp descending
    have fresh : row ∉ rest := fun member => lt_irrefl row (above row member)
    rw [substitute_cons] at done
    cases found : system.unknown x row with
    | error _ =>
      rw [found] at done
      cases done
    | ok value =>
      rw [found] at done
      obtain ⟨others, settled⟩ := ih descending done
      constructor
      · intro col absent
        obtain ⟨apart, absent⟩ := not_or.mp (mt List.mem_cons.mpr absent)
        rw [others col absent, get_set_of_ne x value apart]
      · intro other member
        rcases List.mem_cons.mp member with rfl | inside
        · have later (col : Fin n) (after : other < col) : y.get col = x.get col := by
            have absent : col ∉ rest := fun member => lt_asymm after (above col member)
            rw [others col absent, get_set_of_ne x value after.ne']
          unfold IsSettled
          rw [system.unknown_congr later, found, others other fresh, get_set_self]
        · exact settled other inside

theorem stuck_of_substitute {rows : List (Fin n)} {x : Vector ℚ n} {error : SolveError}
    (failed : system.substitute rows x = .error error) :
    ∃ early row late y, rows = early ++ row :: late ∧ system.substitute early x = .ok y ∧
      system.unknown y row = .error error := by
  induction rows generalizing x with
  | nil => cases failed
  | cons row rest ih =>
    rw [substitute_cons] at failed
    cases found : system.unknown x row with
    | error cause =>
      rw [found] at failed
      cases failed
      exact ⟨[], row, rest, x, rfl, rfl, found⟩
    | ok value =>
      rw [found] at failed
      obtain ⟨early, stuck, late, y, rfl, done, cause⟩ := ih failed
      refine ⟨row :: early, stuck, late, y, rfl, ?_, cause⟩
      rw [substitute_cons, found]
      exact done

theorem descending_rows : (List.finRange n).reverse.Pairwise (· > ·) :=
  List.pairwise_reverse.mpr (List.pairwise_lt_finRange n)

theorem isSettled_of_backSubstitute {x : Vector ℚ n} (done : system.backSubstitute = .ok x) (row : Fin n) :
    system.IsSettled x row :=
  (system.isSettled_of_substitute descending_rows done).2 row (List.mem_reverse.mpr (List.mem_finRange row))

theorem stuck_of_backSubstitute {error : SolveError} (failed : system.backSubstitute = .error error) :
    ∃ row x, system.unknown x row = .error error ∧ ∀ later, row < later → system.IsSettled x later := by
  obtain ⟨early, row, late, x, rows, done, cause⟩ := system.stuck_of_substitute failed
  have descending := rows ▸ descending_rows (n := n)
  obtain ⟨first, rest, _⟩ := List.pairwise_append.mp descending
  refine ⟨row, x, cause, ?_⟩
  intro later after
  have member : later ∈ early ++ row :: late := rows ▸ List.mem_reverse.mpr (List.mem_finRange later)
  refine (system.isSettled_of_substitute first done).2 later ((List.mem_append.mp member).resolve_right ?_)
  intro tail
  rcases List.mem_cons.mp tail with rfl | inside
  · exact lt_irrefl _ after
  · exact lt_asymm after ((List.pairwise_cons.mp rest).1 later inside)

/-- Back substitution finds the one way to settle all rows, if there is one. -/
theorem backSubstitute_of_isSettled {x : Vector ℚ n} (settled : ∀ row, system.IsSettled x row) :
    system.backSubstitute = .ok x := by
  cases outcome : system.backSubstitute with
  | ok y =>
    have found := system.isSettled_of_backSubstitute outcome
    congr 1
    ext i bound
    let row : Fin n := ⟨i, bound⟩
    -- Above the first row there is none to compare, so each row is compared by the rows after it.
    have later (col : Fin n) (after : row < col) : y.get col = x.get col :=
      system.eq_of_isSettled (fun other _ => found other) (fun other _ => settled other) after
    have values := (found row).symm.trans ((system.unknown_congr later).trans (settled row))
    exact Except.ok.inj values
  | error error =>
    obtain ⟨row, y, cause, found⟩ := system.stuck_of_backSubstitute outcome
    have later (col : Fin n) (after : row < col) : y.get col = x.get col :=
      system.eq_of_isSettled found (fun other _ => settled other) after
    have clash := cause.symm.trans ((system.unknown_congr later).trans (settled row))
    cases clash

end PodBudget.Linear.Equations
