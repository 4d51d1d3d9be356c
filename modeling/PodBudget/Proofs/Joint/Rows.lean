import Mathlib.Data.Matrix.Mul
import PodBudget.Joint.Search
import PodBudget.Proofs.Rational

/-!
The joint problem over the rationals, in ordinary sums. A constraint is a row of coefficients, its left side the
product of the row with the limits; feasible points and the objective are those of the quadratic programme.
-/
namespace PodBudget.Joint

variable {n : Nat}

theorem Point.ext_limit {left right : Point ℚ n} (same : ∀ unknown, left.limit unknown = right.limit unknown) :
    left = right := by
  apply Vector.ext
  intro i bound
  have cpu := same (⟨i, bound⟩, .cpu)
  have gpu := same (⟨i, bound⟩, .gpu)
  cases h : left[i]
  cases k : right[i]
  simp_all [Point.limit, Vector.get, PerKind.get]

theorem mem_unknowns (unknown : Unknown n) : unknown ∈ unknowns n := by
  obtain ⟨pod, kind⟩ := unknown
  exact List.mem_flatMap.mpr ⟨pod, List.mem_finRange pod, List.mem_map.mpr ⟨kind, Kind.mem_all kind, rfl⟩⟩

namespace Constraint

theorem mem_all (constraint : Constraint n) : constraint ∈ all n := by
  cases constraint with
  | budget pod =>
    exact List.mem_append_left _ (List.mem_append_left _ (List.mem_map_of_mem (List.mem_finRange pod)))
  | ceiling kind => exact List.mem_append_left _ (List.mem_append_right _ (List.mem_map_of_mem (Kind.mem_all kind)))
  | floor pod kind => exact List.mem_append_right _ (List.mem_map.mpr ⟨(pod, kind), mem_unknowns _, rfl⟩)

instance : Fintype (Constraint n) := ⟨(all n).toFinset, fun constraint => List.mem_toFinset.mpr constraint.mem_all⟩

def row (constraint : Constraint n) : Unknown n → ℚ := constraint.coefficient

private theorem nodup_terms (constraint : Constraint n) : ((constraint.terms (α := ℚ)).map (·.1)).Nodup := by
  cases constraint with
  | budget pod => simp [terms, Kind.all]
  | ceiling kind =>
    rw [terms, List.map_map]
    exact (List.nodup_finRange n).map fun left right same => (Prod.mk.inj same).1
  | floor pod kind => exact List.nodup_singleton _

private def entry (terms : List (Unknown n × ℚ)) (unknown : Unknown n) : ℚ :=
  ((terms.find? fun term => term.1 == unknown).map (·.2)).getD 0

private theorem entry_cons (term : Unknown n × ℚ) (rest : List (Unknown n × ℚ))
    (absent : term.1 ∉ rest.map (·.1)) (unknown : Unknown n) :
    entry (term :: rest) unknown = (if term.1 = unknown then term.2 else 0) + entry rest unknown := by
  by_cases same : term.1 = unknown
  · have none : rest.find? (fun other => other.1 == unknown) = none := by
      rw [List.find?_eq_none]
      intro other member equal
      exact absent (List.mem_map.mpr ⟨other, member, (beq_iff_eq.mp equal).trans same.symm⟩)
    simp [entry, same, none]
  · simp [entry, same]

private theorem sum_terms (terms : List (Unknown n × ℚ)) (distinct : (terms.map (·.1)).Nodup) (x : Unknown n → ℚ) :
    (terms.map fun term => term.2 * x term.1).sum = ∑ unknown, entry terms unknown * x unknown := by
  induction terms with
  | nil => simp [entry]
  | cons term rest ih =>
    obtain ⟨absent, distinct⟩ := List.nodup_cons.mp distinct
    have split (unknown : Unknown n) : entry (term :: rest) unknown * x unknown =
        (if term.1 = unknown then term.2 * x unknown else 0) + entry rest unknown * x unknown := by
      rw [entry_cons term rest absent, add_mul, ite_mul, zero_mul]
    rw [List.map_cons, List.sum_cons, ih distinct, Finset.sum_congr rfl fun unknown _ => split unknown,
      Finset.sum_add_distrib, Finset.sum_ite_eq Finset.univ term.1, if_pos (Finset.mem_univ _)]

private theorem row_eq_entry (constraint : Constraint n) (unknown : Unknown n) :
    constraint.row unknown = entry constraint.terms unknown := by
  simp only [row, coefficient, entry]
  split
  · next found => simp [found]
  · next missing => simp [missing]

theorem apply_eq (constraint : Constraint n) (point : Point ℚ n) :
    constraint.apply point = constraint.row ⬝ᵥ point.limit := by
  rw [apply, Number.total_eq, sum_terms _ constraint.nodup_terms]
  exact Finset.sum_congr rfl fun unknown _ => by rw [row_eq_entry]

theorem apply_budget (pod : Fin n) (point : Point ℚ n) :
    (budget pod).apply point = ∑ kind : Kind, kind.price * point.limit (pod, kind) := by
  rw [apply, Number.total_eq, terms, List.map_map, ← Kind.sum_all]
  rfl

theorem apply_ceiling (kind : Kind) (point : Point ℚ n) :
    (ceiling kind).apply point = ∑ pod, point.limit (pod, kind) := by
  rw [apply, Number.total_eq, terms, List.map_map, ← List.sum_ofFn, List.ofFn_eq_map]
  simp [Function.comp_def]

theorem apply_floor (pod : Fin n) (kind : Kind) (point : Point ℚ n) :
    (floor pod kind).apply point = -point.limit (pod, kind) := by
  rw [apply, Number.total_eq, terms]
  simp

end Constraint
end PodBudget.Joint
