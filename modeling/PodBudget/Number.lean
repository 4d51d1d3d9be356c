import PodBudget.Decimal.Fixed
import PodBudget.Decimal.Shortest
import PodBudget.Word

/-!
The arithmetic that budgets are computed in. Every formula of the library is written once, over `Number`.
It runs on doubles, where the order of operations decides the last bit, and it can be read over the rationals,
where the formulas are exact. Both instances stand here, with the equations that reduce the rational one to
ordinary rational arithmetic.
-/
namespace PodBudget

class Number (α : Type) extends Add α, Sub α, Mul α, Div α, Neg α, LT α, LE α, BEq α, OfScientific α where
  ofNat : Nat → α
  ltDecidable : DecidableRel (α := α) (· < ·)
  leDecidable : DecidableRel (α := α) (· ≤ ·)
  /-- The nearest natural number, halves upward; 0 below zero and the largest word above the words. -/
  nearestWord : α → Nat
  isFinite : α → Bool
  fixed : Nat → α → String
  shortest : α → String

namespace Number

variable {α : Type} [Number α]

instance : DecidableRel (α := α) (· < ·) := Number.ltDecidable
instance : DecidableRel (α := α) (· ≤ ·) := Number.leDecidable

instance (priority := low) (n : Nat) : OfNat α n := ⟨Number.ofNat n⟩

/-- The larger of two; an operand that is not equal to itself gives way to the other. -/
protected def max (a b : α) : α :=
  if a < b then b else if a == a then a else b

protected def min (a b : α) : α :=
  if b < a then b else if a == a then a else b

protected def abs (a : α) : α :=
  if a < 0 then -a else a

def ofInt (n : Int) : α :=
  if n < 0 then -Number.ofNat n.natAbs else Number.ofNat n.natAbs

/-- Sum from left to right. It starts from minus zero, to which every number adds up as itself, a zero of either
sign too; so the sum of nothing is minus zero. -/
def total (values : List α) : α :=
  values.foldl (· + ·) (-0)

def seconds (nanos : Nat) : α :=
  Number.ofNat (nanos / 1000000000) + Number.ofNat (nanos % 1000000000) / Number.ofNat 1000000000

end Number

instance : Number Float where
  ofNat n := if n ≤ Word.most then n.toUInt64.toFloat else Float.ofScientific n false 0
  ltDecidable := inferInstance
  leDecidable := inferInstance
  nearestWord x := x.round.toUInt64.toNat
  isFinite x := x.isFinite
  fixed places x := Decimal.fixedBinary places (.ofFloat x)
  shortest x := Decimal.shortest (.ofFloat x)

instance : Number Rat where
  ofNat n := (n : Rat)
  ltDecidable := inferInstance
  leDecidable := inferInstance
  nearestWord x := min (x + 1 / 2).floor.toNat Word.most
  isFinite _ := true
  fixed places x := Decimal.fixed places (x < 0) x.num.natAbs x.den
  shortest x := toString x

namespace Number

theorem ofNat_rat (n : Nat) : (Number.ofNat n : Rat) = (n : Rat) := rfl

theorem max_rat (a b : Rat) : Number.max a b = if a ≤ b then b else a := by
  unfold Number.max
  split
  · next h => rw [if_pos (Rat.le_of_lt h)]
  · next h =>
    simp only [beq_self_eq_true, ↓reduceIte]
    split
    · next le => exact Rat.le_antisymm le (Rat.not_lt.mp h)
    · rfl

theorem min_rat (a b : Rat) : Number.min a b = if a ≤ b then a else b := by
  unfold Number.min
  split
  · next h => rw [if_neg (Rat.not_le.mpr h)]
  · next h =>
    simp only [beq_self_eq_true, ↓reduceIte]
    rw [if_pos (Rat.not_lt.mp h)]

end Number
end PodBudget
