import PodBudget.Joint.Constraint
import PodBudget.Linear.Elimination

/-!
The stationarity system of a working set: one row for each unknown, `2 w L + Σ aᵢ λᵢ = 2 w u + p A`, and one
for each working constraint, which holds with equality. Its solution lists the limits first and then the
multipliers.
-/
namespace PodBudget.Joint

variable {α : Type} [Number α] {n : Nat}

/-- Column of an unknown: pods in order, and the kinds of a pod side by side. -/
def Unknown.column (unknown : Unknown n) : Nat :=
  unknown.1.val * 2 + unknown.2.index

def unknownAt (column : Nat) (small : column < n * 2) : Unknown n :=
  (⟨column / 2, by omega⟩, if column % 2 = 0 then .cpu else .gpu)

theorem unknownAt_column (unknown : Unknown n) (small : unknown.column < n * 2) :
    unknownAt unknown.column small = unknown := by
  obtain ⟨pod, kind⟩ := unknown
  cases kind
  · have half : pod.val * 2 / 2 = pod.val := by omega
    simp [unknownAt, Unknown.column, Kind.index, half]
  · have half : (pod.val * 2 + 1) / 2 = pod.val := by omega
    simp [unknownAt, Unknown.column, Kind.index, half]

theorem column_unknownAt (column : Nat) (small : column < n * 2) :
    (unknownAt column small).column = column := by
  rcases Nat.mod_two_eq_zero_or_one column with even | odd
  · simp only [Unknown.column, unknownAt, even, ↓reduceIte, Kind.index]; omega
  · simp only [Unknown.column, unknownAt, odd, Nat.one_ne_zero, ↓reduceIte, Kind.index]; omega

def unknownEntry (demands : Vector (Demand α) n) (working : List (Constraint n)) (unknown : Unknown n)
    (col : Fin (n * 2 + working.length + 1)) : α :=
  let demand := demands.get unknown.1
  let weight := demand.weight.get unknown.2
  if col.val < n * 2 then
    if col.val = unknown.column then 2 * weight else 0
  else if h : col.val - n * 2 < working.length then
    working[col.val - n * 2].coefficient unknown
  else 2 * weight * demand.usage.get unknown.2 + unknown.2.price * demand.available

def constraintEntry (demands : Vector (Demand α) n) (policy : Policy α) (size : Nat) (constraint : Constraint n)
    (col : Nat) : α :=
  if small : col < n * 2 then constraint.coefficient (unknownAt col small)
  else if col < size then 0
  else constraint.bound demands policy

def stationarySystem (demands : Vector (Demand α) n) (working : List (Constraint n)) (policy : Policy α) :
    Linear.Equations α (n * 2 + working.length) :=
  .of fun row col =>
    if small : row.val < n * 2 then unknownEntry demands working (unknownAt row.val small) col
    else constraintEntry demands policy (n * 2 + working.length) working[row.val - n * 2] col.val

/-- The limits and the multipliers at which the working constraints hold and the objective is stationary. -/
structure Stationary (α : Type) (n m : Nat) where
  point : Point α n
  multipliers : Vector α m

def Stationary.ofSolution {m : Nat} (solution : Vector α (n * 2 + m)) : Stationary α n m where
  point := Vector.ofFn fun pod => .of fun kind =>
    solution.get ⟨pod.val * 2 + kind.index, by cases kind <;> simp only [Kind.index] <;> omega⟩
  multipliers := Vector.ofFn fun i => solution[n * 2 + i.val]

def stationary (demands : Vector (Demand α) n) (working : List (Constraint n)) (policy : Policy α) :
    Except Linear.SolveError (Stationary α n working.length) :=
  (stationarySystem demands working policy).solve.map .ofSolution

end PodBudget.Joint
