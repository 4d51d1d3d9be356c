import PodBudget.Number

/-!
Square linear systems `A x = b`, kept as the rows of `[A | b]`. The size is part of the type, so a system
always has as many rows as unknowns and one bound in each.
-/
namespace PodBudget.Linear

inductive SolveError where
  | rowWidth (row expected actual : Nat)
  | inconsistent (row : Nat)
  deriving DecidableEq, Repr

def SolveError.message : SolveError → String
  | .rowWidth row expected actual => s!"row {row} has {actual} columns, expected {expected}"
  | .inconsistent row => s!"linear system has no solution (inconsistent row {row})"

/-- Row `i` holds the coefficients of the `n` unknowns and, in its last column, its bound. -/
structure Equations (α : Type) (n : Nat) where
  rows : Vector (Vector α (n + 1)) n

namespace Equations

variable {α : Type} {n : Nat}

def coefficient (system : Equations α n) (row col : Fin n) : α :=
  (system.rows.get row).get col.castSucc

def bound (system : Equations α n) (row : Fin n) : α :=
  (system.rows.get row).get (Fin.last n)

def get (system : Equations α n) (row : Fin n) (col : Fin (n + 1)) : α :=
  (system.rows.get row).get col

def set (system : Equations α n) (row : Fin n) (col : Fin (n + 1)) (value : α) : Equations α n :=
  ⟨system.rows.set row ((system.rows.get row).set col value col.isLt) row.isLt⟩

theorem vector_get (values : Vector α n) (i : Fin n) : values.get i = values[i.val] := rfl

theorem get_set (system : Equations α n) (row other : Fin n) (col spot : Fin (n + 1)) (value : α) :
    (system.set row col value).get other spot =
      if other = row ∧ spot = col then value else system.get other spot := by
  simp only [get, set, vector_get, Vector.getElem_set, Fin.ext_iff]
  by_cases h : row.val = other.val
  · simp only [h, ↓reduceIte, Vector.getElem_set, true_and]
    by_cases hc : col.val = spot.val
    · simp [hc]
    · simp [hc, Ne.symm hc]
  · simp [h, Ne.symm h]

def of (entry : Fin n → Fin (n + 1) → α) : Equations α n :=
  ⟨Vector.ofFn fun row => Vector.ofFn (entry row)⟩

@[simp] theorem get_of (entry : Fin n → Fin (n + 1) → α) (row : Fin n) (col : Fin (n + 1)) :
    (of entry).get row col = entry row col := by
  simp [of, get, vector_get]

variable [Number α]

def zeros (n : Nat) : Equations α n := of fun _ _ => 0

def ofRows (rows : List (List α)) : Except SolveError (Equations α rows.length) :=
  match rows.zipIdx.find? (fun entry => entry.1.length != rows.length + 1) with
  | some (values, row) => .error (.rowWidth row (rows.length + 1) values.length)
  | none => .ok (of fun row col => (rows.get row).getD col 0)

end Equations
end PodBudget.Linear
