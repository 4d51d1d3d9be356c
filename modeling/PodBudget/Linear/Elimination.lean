import PodBudget.Linear.Equations

/-!
Elimination with scaled partial pivoting, then back substitution. A column whose pivot is negligible is left
alone and settled at the end: its unknown is 0 where the row's residual is negligible too, and otherwise the
system has no solution.
-/
namespace PodBudget.Linear

variable {α : Type} [Number α] {n : Nat}

/-- Magnitude up to which a pivot counts as zero. -/
def pivotTolerance : α := 1e-12

/-- Magnitude above which what is left of a settled row makes it inconsistent. -/
def residualTolerance : α := 1e-9

def indicesFrom (n k : Nat) : List (Fin n) := (List.finRange n).drop k

namespace Equations

def rowScale (system : Equations α n) (k : Nat) (row : Fin n) : α :=
  (indicesFrom n k).foldl (fun most col => Number.max most (Number.abs (system.coefficient row col))) 0

def betterPivot (system : Equations α n) (k : Fin n) (best : Fin n × α) (row : Fin n) : Fin n × α :=
  let scale := system.rowScale k row
  if scale == 0 then best
  else
    let ratio := Number.abs (system.coefficient row k) / scale
    if best.2 < ratio then (row, ratio) else best

/-- The first row from `k` on whose entry in column `k` is largest relative to the row. -/
def choosePivot (system : Equations α n) (k : Fin n) : Fin n :=
  ((indicesFrom n k).foldl (system.betterPivot k) (k, -1)).1

def clearColumn (k : Fin n) (pivot row : Vector α (n + 1)) : Vector α (n + 1) :=
  let factor := row.get k.castSucc / pivot.get k.castSucc
  if factor == 0 then row
  else Vector.ofFn fun col =>
    if col < k.castSucc then row.get col
    else if col = k.castSucc then 0
    else row.get col - factor * pivot.get col

/-- Brings the chosen pivot to row `k` and clears column `k` below it. -/
def eliminateColumn (system : Equations α n) (k : Fin n) : Equations α n :=
  let chosen := system.choosePivot k
  if Number.abs (system.coefficient chosen k) ≤ pivotTolerance then system
  else
    let rows := system.rows.swap k chosen k.isLt chosen.isLt
    let pivot := rows.get k
    ⟨rows.mapFinIdx fun index row _ => if index ≤ k then row else clearColumn k pivot row⟩

def eliminate (system : Equations α n) : Equations α n :=
  (List.finRange n).foldl eliminateColumn system

def residual (system : Equations α n) (x : Vector α n) (row : Fin n) : α :=
  (indicesFrom n (row + 1)).foldl (fun left col => left - system.coefficient row col * x.get col) (system.bound row)

def unknown (system : Equations α n) (x : Vector α n) (row : Fin n) : Except SolveError α :=
  let left := system.residual x row
  if Number.abs (system.coefficient row row) ≤ pivotTolerance then
    if residualTolerance < Number.abs left then .error (.inconsistent row) else .ok 0
  else .ok (left / system.coefficient row row)

def backSubstitute (system : Equations α n) : Except SolveError (Vector α n) :=
  (List.finRange n).reverse.foldlM
    (fun x row => do return x.set row (← system.unknown x row) row.isLt) (Vector.replicate n 0)

def solve (system : Equations α n) : Except SolveError (Vector α n) :=
  system.eliminate.backSubstitute

end Equations
end PodBudget.Linear
