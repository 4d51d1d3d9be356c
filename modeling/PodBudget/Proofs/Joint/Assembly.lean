import Mathlib.LinearAlgebra.Matrix.Symmetric
import PodBudget.Proofs.Joint.Kkt

/-!
The stationarity system as it is put together, entry by entry. Each unknown has its weight on the diagonal, each working
constraint puts its coefficients into a row and the column across from it, and no write undoes another. What results is
symmetric, and its solutions are the limits and multipliers that meet the conditions of Karush, Kuhn and Tucker.
-/
namespace PodBudget

namespace Linear.Equations

structure Write (α : Type) (n : Nat) where
  row : Fin n
  col : Fin (n + 1)
  value : α

variable {α : Type} {n : Nat}

def writeAll (system : Equations α n) (writes : List (Write α n)) : Equations α n :=
  writes.foldl (fun system write => system.set write.row write.col write.value) system

theorem eq_of_get {system other : Equations α n} (same : ∀ row col, system.get row col = other.get row col) :
    system = other := by
  obtain ⟨rows⟩ := system
  obtain ⟨others⟩ := other
  congr 1
  ext i rowBound j colBound
  exact same ⟨i, rowBound⟩ ⟨j, colBound⟩

/-- An entry has a value if all writes to it agree on that value, and one of them puts it there, or it was there before. -/
theorem get_writeAll {row : Fin n} {col : Fin (n + 1)} {value : α} {writes : List (Write α n)}
    (agree : ∀ write ∈ writes, write.row = row → write.col = col → write.value = value) (system : Equations α n)
    (there : (∃ write ∈ writes, write.row = row ∧ write.col = col) ∨ system.get row col = value) :
    (system.writeAll writes).get row col = value := by
  induction writes generalizing system with
  | nil => simpa [writeAll] using there
  | cons first rest ih =>
    obtain ⟨head, tail⟩ := List.forall_mem_cons.mp agree
    refine ih tail (system.set first.row first.col first.value) ?_
    rw [get_set]
    by_cases hit : row = first.row ∧ col = first.col
    · rw [if_pos hit]
      exact .inr (head hit.1.symm hit.2.symm)
    · rw [if_neg hit]
      refine there.imp_left ?_
      rintro ⟨write, mem, spot⟩
      rcases List.mem_cons.mp mem with rfl | later
      · exact absurd ⟨spot.1.symm, spot.2.symm⟩ hit
      · exact ⟨write, later, spot⟩

end Linear.Equations

namespace Joint

open Linear.Equations (Write)

variable {n : Nat}

namespace Constraint

def normal : Constraint n → Unknown n → ℚ
  | .budget pod, unknown => if unknown.1 = pod then unknown.2.price else 0
  | .ceiling kind, unknown => if unknown.2 = kind then 1 else 0
  | .floor pod kind, unknown => if unknown = (pod, kind) then -1 else 0

theorem normal_of_mem {constraint : Constraint n} {term : Unknown n × ℚ} (mem : term ∈ constraint.terms) :
    constraint.normal term.1 = term.2 := by
  cases constraint with
  | budget pod =>
    obtain ⟨kind, -, rfl⟩ := List.mem_map.mp mem
    exact if_pos rfl
  | ceiling kind =>
    obtain ⟨pod, -, rfl⟩ := List.mem_map.mp mem
    exact if_pos rfl
  | floor pod kind =>
    obtain rfl := List.mem_singleton.mp mem
    exact if_pos rfl

theorem mem_terms {constraint : Constraint n} {unknown : Unknown n} (counts : constraint.normal unknown ≠ 0) :
    (unknown, constraint.normal unknown) ∈ constraint.terms := by
  cases constraint with
  | budget pod =>
    obtain rfl : unknown.1 = pod := by_contra fun other => counts (if_neg other)
    exact List.mem_map.mpr ⟨unknown.2, Kind.mem_all _, by simp [normal]⟩
  | ceiling kind =>
    obtain rfl : unknown.2 = kind := by_contra fun other => counts (if_neg other)
    exact List.mem_map.mpr ⟨unknown.1, List.mem_finRange _, by simp [normal]⟩
  | floor pod kind =>
    obtain rfl : unknown = (pod, kind) := by_contra fun other => counts (if_neg other)
    exact List.mem_singleton.mpr (by simp [normal])

theorem row_eq_normal (constraint : Constraint n) (unknown : Unknown n) :
    constraint.row unknown = constraint.normal unknown := by
  simp only [row, coefficient]
  split
  next term found =>
    have same : term.1 = unknown := by simpa using List.find?_some found
    rw [← same, normal_of_mem (List.mem_of_find?_eq_some found)]
  next missing =>
    by_contra counts
    have absent := List.find?_eq_none.mp missing _ (mem_terms (Ne.symm counts))
    simp at absent

end Constraint

variable (demands : Vector (Demand ℚ) n) (policy : Policy ℚ) (working : List (Constraint n))

section assembly

def unknownWrites (m : Nat) (unknown : Unknown n) : List (Write ℚ (n * 2 + m)) :=
  let spot := Fin.castAdd m (columns unknown)
  [⟨spot, spot.castSucc, 2 * weightAt demands unknown⟩,
    ⟨spot, Fin.last _, 2 * weightAt demands unknown * usageAt demands unknown + worthAt demands unknown⟩]

/-- What a working constraint puts into the system: each coefficient twice, mirrored, and its bound. -/
def workingWrites (i : Fin working.length) : List (Write ℚ (n * 2 + working.length)) :=
  let spot := Fin.natAdd (n * 2) i
  ((working.get i).terms.flatMap fun term =>
    let across := Fin.castAdd working.length (columns term.1)
    [⟨spot, across.castSucc, term.2⟩, ⟨across, spot.castSucc, term.2⟩]) ++
  [⟨spot, Fin.last _, (working.get i).bound demands policy⟩]

def writes : List (Write ℚ (n * 2 + working.length)) :=
  (unknowns n).flatMap (unknownWrites demands working.length) ++
    (List.finRange working.length).flatMap (workingWrites demands policy working)

/-- The system filled in from zeros, the unknowns first and then the working constraints. -/
def assembled : Linear.Equations ℚ (n * 2 + working.length) :=
  (Linear.Equations.zeros _).writeAll (writes demands policy working)

variable {demands policy working}

theorem mem_writes_of_unknown {unknown : Unknown n} {write : Write ℚ (n * 2 + working.length)}
    (mem : write ∈ unknownWrites demands working.length unknown) : write ∈ writes demands policy working :=
  List.mem_append_left _ (List.mem_flatMap.mpr ⟨unknown, mem_unknowns unknown, mem⟩)

theorem mem_writes_of_working {i : Fin working.length} {write : Write ℚ (n * 2 + working.length)}
    (mem : write ∈ workingWrites demands policy working i) : write ∈ writes demands policy working :=
  List.mem_append_right _ (List.mem_flatMap.mpr ⟨i, List.mem_finRange i, mem⟩)

theorem mem_workingWrites_of_term {i : Fin working.length} {term : Unknown n × ℚ}
    (mem : term ∈ (working.get i).terms) {write : Write ℚ (n * 2 + working.length)}
    (either : write = ⟨Fin.natAdd (n * 2) i, (Fin.castAdd working.length (columns term.1)).castSucc, term.2⟩ ∨
      write = ⟨Fin.castAdd working.length (columns term.1), (Fin.natAdd (n * 2) i).castSucc, term.2⟩) :
    write ∈ workingWrites demands policy working i := by
  refine List.mem_append_left _ (List.mem_flatMap.mpr ⟨term, mem, ?_⟩)
  simpa using either

theorem value_of_mem_writes {write : Write ℚ (n * 2 + working.length)}
    (mem : write ∈ writes demands policy working) :
    write.value = (stationarySystem demands working policy).get write.row write.col := by
  rcases List.mem_append.mp mem with first | second
  · obtain ⟨unknown, -, here⟩ := List.mem_flatMap.mp first
    rcases List.mem_pair.mp here with rfl | rfl
    · have diagonal := coefficient_unknown_unknown demands policy working unknown unknown
      rw [if_pos rfl] at diagonal
      exact diagonal.symm
    · exact (bound_unknown demands policy working unknown).symm
  · obtain ⟨i, -, here⟩ := List.mem_flatMap.mp second
    rcases List.mem_append.mp here with coefficients | last
    · obtain ⟨term, counts, mirrored⟩ := List.mem_flatMap.mp coefficients
      have value : (working.get i).row term.1 = term.2 :=
        (Constraint.row_eq_normal _ _).trans (Constraint.normal_of_mem counts)
      rcases List.mem_pair.mp mirrored with rfl | rfl
      · exact value.symm.trans (coefficient_working_unknown demands policy working term.1 i).symm
      · exact value.symm.trans (coefficient_unknown_working demands policy working term.1 i).symm
    · obtain rfl := List.mem_singleton.mp last
      exact (bound_working demands policy working i).symm

theorem exists_write {row : Fin (n * 2 + working.length)} {col : Fin (n * 2 + working.length + 1)}
    (counts : (stationarySystem demands working policy).get row col ≠ 0) :
    ∃ write ∈ writes demands policy working, write.row = row ∧ write.col = col := by
  induction row using Fin.addCases with
  | left column =>
    obtain ⟨unknown, rfl⟩ := columns.surjective column
    induction col using Fin.lastCases with
    | last => exact ⟨_, mem_writes_of_unknown (List.mem_cons_of_mem _ List.mem_cons_self), rfl, rfl⟩
    | cast col =>
      induction col using Fin.addCases with
      | left column =>
        obtain ⟨other, rfl⟩ := columns.surjective column
        obtain rfl : other = unknown := by
          by_contra differ
          exact counts ((coefficient_unknown_unknown demands policy working unknown other).trans (if_neg differ))
        exact ⟨_, mem_writes_of_unknown List.mem_cons_self, rfl, rfl⟩
      | right i =>
        have nonzero : (working.get i).normal unknown ≠ 0 := by
          rw [← Constraint.row_eq_normal, ← coefficient_unknown_working demands policy working]
          exact counts
        exact ⟨_, mem_writes_of_working (mem_workingWrites_of_term (Constraint.mem_terms nonzero) (.inr rfl)),
          rfl, rfl⟩
  | right i =>
    induction col using Fin.lastCases with
    | last => exact ⟨_, mem_writes_of_working (List.mem_append_right _ List.mem_cons_self), rfl, rfl⟩
    | cast col =>
      induction col using Fin.addCases with
      | left column =>
        obtain ⟨unknown, rfl⟩ := columns.surjective column
        have nonzero : (working.get i).normal unknown ≠ 0 := by
          rw [← Constraint.row_eq_normal, ← coefficient_working_unknown demands policy working]
          exact counts
        exact ⟨_, mem_writes_of_working (mem_workingWrites_of_term (Constraint.mem_terms nonzero) (.inl rfl)),
          rfl, rfl⟩
      | right j => exact absurd (coefficient_working_working demands policy working i j) counts

variable (demands policy working)

theorem assembled_eq : assembled demands policy working = stationarySystem demands working policy := by
  refine Linear.Equations.eq_of_get fun row col => Linear.Equations.get_writeAll ?_ _ ?_
  · rintro write mem rfl rfl
    exact value_of_mem_writes mem
  · by_cases empty : (stationarySystem demands working policy).get row col = 0
    · exact .inr ((Linear.Equations.get_of _ _ _).trans empty.symm)
    · exact .inl (exists_write empty)

end assembly

/-- Whether limits meet a constraint with equality. A budget below the cost of the floors is raised to it. -/
def Constraint.IsTight (limit : Unknown n → ℚ) : Constraint n → Prop
  | .budget pod => ∑ kind : Kind, kind.price * limit (pod, kind) =
      max (demands.get pod).budgetRate (∑ kind : Kind, kind.price * policy.minLimit)
  | .ceiling kind => ∑ pod, limit (pod, kind) = policy.capacity.get kind
  | .floor pod kind => limit (pod, kind) = policy.minLimit

theorem Constraint.isTight_iff (constraint : Constraint n) (point : Point ℚ n) :
    constraint.IsTight demands policy point.limit ↔ constraint.apply point = constraint.bound demands policy := by
  cases constraint with
  | budget pod => rw [apply_budget, bound_budget, IsTight]
  | ceiling kind => rw [apply_ceiling, bound, IsTight]
  | floor pod kind => rw [apply_floor, bound, IsTight, neg_inj]

/-- The conditions of Karush, Kuhn and Tucker at limits and multipliers, as far as they are equations: the multipliers
of the working constraints balance the slope of the objective, and these constraints hold with equality. -/
structure Kkt (limit : Unknown n → ℚ) (multiplier : Fin working.length → ℚ) : Prop where
  stationary : ∀ pod kind,
    2 * (demands.get pod).weight.get kind * (limit (pod, kind) - (demands.get pod).usage.get kind) +
      ∑ i, multiplier i * (working.get i).normal (pod, kind) = kind.price * (demands.get pod).available
  tight : ∀ constraint ∈ working, constraint.IsTight demands policy limit

variable {demands policy working} in
theorem balances_iff_kkt {target : Stationary ℚ n working.length} :
    target.Balances demands policy working ↔
      Kkt demands policy working target.point.limit target.multipliers.get := by
  have slope_iff (unknown : Unknown n) :
      slopeAt demands target.point unknown +
          ∑ i : Fin working.length, (working.get i).row unknown * target.multipliers.get i = 0 ↔
        2 * weightAt demands unknown * (target.point.limit unknown - usageAt demands unknown) +
          ∑ i, target.multipliers.get i * (working.get i).normal unknown = worthAt demands unknown := by
    simp only [slopeAt, Constraint.row_eq_normal, mul_comm (target.multipliers.get _)]
    constructor
    · intro balanced
      linarith
    · intro balanced
      linarith
  constructor
  · rintro ⟨slope, tight⟩
    exact ⟨fun pod kind => (slope_iff (pod, kind)).mp (slope _),
      fun constraint mem => (constraint.isTight_iff demands policy _).mpr (tight constraint mem)⟩
  · rintro ⟨stationary, tight⟩
    exact ⟨fun unknown => (slope_iff unknown).mpr (stationary unknown.1 unknown.2),
      fun constraint mem => (constraint.isTight_iff demands policy _).mp (tight constraint mem)⟩

theorem isSymm_stationarySystem : (stationarySystem demands working policy).matrix.IsSymm := by
  refine Matrix.IsSymm.ext fun row col => ?_
  simp only [Linear.Equations.matrix]
  induction row using Fin.addCases with
  | left column =>
    obtain ⟨unknown, rfl⟩ := columns.surjective column
    induction col using Fin.addCases with
    | left column =>
      obtain ⟨other, rfl⟩ := columns.surjective column
      rw [coefficient_unknown_unknown, coefficient_unknown_unknown]
      by_cases same : unknown = other
      · rw [same]
      · rw [if_neg same, if_neg (Ne.symm same)]
    | right i => rw [coefficient_unknown_working, coefficient_working_unknown]
  | right i =>
    induction col using Fin.addCases with
    | left column =>
      obtain ⟨unknown, rfl⟩ := columns.surjective column
      rw [coefficient_unknown_working, coefficient_working_unknown]
    | right j => rw [coefficient_working_working, coefficient_working_working]

/-- The assembled system is the one that is solved, whatever constraints are working: its solutions are the limits and
multipliers that meet the conditions of Karush, Kuhn and Tucker, and its coefficients are symmetric. -/
theorem solves_assembled_iff_kkt :
    assembled demands policy working = stationarySystem demands working policy ∧
      (∀ x, (stationarySystem demands working policy).Solves x ↔
        Kkt demands policy working (fun unknown => x.get (Fin.castAdd _ (columns unknown)))
          fun i => x.get (Fin.natAdd _ i)) ∧
      (stationarySystem demands working policy).matrix.IsSymm := by
  refine ⟨assembled_eq demands policy working, fun x => ?_, isSymm_stationarySystem demands policy working⟩
  rw [solves_iff_balances, balances_iff_kkt, funext (limit_ofSolution x), funext (multiplier_ofSolution x)]

end Joint
end PodBudget
