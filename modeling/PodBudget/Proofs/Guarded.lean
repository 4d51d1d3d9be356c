import PodBudget.Proofs.Rational

/-!
Rational numbers that know no division by zero. A formula of the library that comes out with a number here, as it does
over the rationals, has divided by nothing but numbers other than zero on its way.
-/
namespace PodBudget

/-- A rational number, or nothing if something was divided by zero on the way to it. -/
structure Guarded where
  value? : Option ℚ
  deriving DecidableEq

namespace Guarded

def of (value : ℚ) : Guarded := ⟨some value⟩

def both (operation : ℚ → ℚ → Option ℚ) (a b : Guarded) : Guarded :=
  ⟨a.value?.bind fun x => b.value?.bind fun y => operation x y⟩

def compares (test : ℚ → ℚ → Bool) : Guarded → Guarded → Bool
  | ⟨some x⟩, ⟨some y⟩ => test x y
  | _, _ => false

instance : Number Guarded where
  add := both fun x y => some (x + y)
  sub := both fun x y => some (x - y)
  mul := both fun x y => some (x * y)
  div := both fun x y => if y = 0 then none else some (x / y)
  neg a := ⟨a.value?.map fun x => -x⟩
  lt a b := compares (fun x y => decide (x < y)) a b = true
  le a b := compares (fun x y => decide (x ≤ y)) a b = true
  beq a b := decide (a = b)
  ofScientific mantissa negative places := of (OfScientific.ofScientific mantissa negative places)
  ofNat n := of (Number.ofNat n)
  ltDecidable _ _ := inferInstanceAs (Decidable (_ = true))
  leDecidable _ _ := inferInstanceAs (Decidable (_ = true))
  nearestWord a := a.value?.elim 0 Number.nearestWord
  isFinite a := a.value?.isSome
  fixed places a := a.value?.elim "" (Number.fixed places)
  shortest a := a.value?.elim "" Number.shortest

variable (a b : ℚ)

theorem of_sub : of a - of b = of (a - b) := rfl

theorem of_mul : of a * of b = of (a * b) := rfl

variable {b} in
theorem of_div (nonzero : b ≠ 0) : of a / of b = of (a / b) := congrArg mk (if_neg nonzero)

example : of 1 / of 0 + of 1 = ⟨none⟩ := rfl

theorem of_lt : of a < of b ↔ a < b := decide_eq_true_iff

theorem of_le : of a ≤ of b ↔ a ≤ b := decide_eq_true_iff

theorem of_max : Number.max (of a) (of b) = of (Number.max a b) := by
  simp only [Number.max, of_lt]
  split <;> simp [BEq.beq]

theorem total_of (values : List ℚ) : Number.total (values.map of) = of (Number.total values) := by
  unfold Number.total
  rw [List.foldl_map]
  exact List.foldl_hom of fun _ _ => rfl

theorem price_of (kind : Kind) : (kind.price : Guarded) = of kind.price := by
  cases kind <;> rfl

end Guarded
end PodBudget
