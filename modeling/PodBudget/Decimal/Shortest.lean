import PodBudget.Decimal.Binary

/-!
The shortest decimal of a double: of the decimals that lie in the interval of reals which round to the double,
one with the fewest digits, and of those the nearest. Everything is computed with natural numbers from the
double's exact value.
-/
namespace PodBudget.Decimal

/-- A decimal `digits * 10 ^ exponent`. -/
structure Scaled where
  digits : Nat
  exponent : Int
  deriving DecidableEq, Repr

/-- A double and the ends of its rounding interval, over one denominator; the ends belong to it if `closed`. -/
structure Rounding where
  value : Nat
  low : Nat
  high : Nat
  den : Nat
  closed : Bool
  deriving DecidableEq, Repr

/-- The rounding interval of `mantissa * 2 ^ exponent`: half a step to either side. Below a power of two the
steps are half as wide. -/
def Rounding.ofBinary (mantissa : Nat) (exponent : Int) : Rounding :=
  let below := if mantissa = leadingBit ∧ -1074 < exponent then 1 else 2
  let (unit, den) := Binary.fraction 1 (exponent - 2)
  ⟨4 * mantissa * unit, (4 * mantissa - below) * unit, (4 * mantissa + 2) * unit, den, mantissa % 2 = 0⟩

def Scaled.fraction (decimal : Scaled) : Nat × Nat :=
  if 0 ≤ decimal.exponent then (decimal.digits * Nat.pow 10 decimal.exponent.toNat, 1)
  else (decimal.digits, Nat.pow 10 (-decimal.exponent).toNat)

def Rounding.covers (interval : Rounding) (decimal : Scaled) : Bool :=
  let (num, den) := decimal.fraction
  let low := interval.low * den
  let middle := num * interval.den
  let high := interval.high * den
  if interval.closed then decide (low ≤ middle) && decide (middle ≤ high)
  else decide (low < middle) && decide (middle < high)

def Rounding.distance (interval : Rounding) (decimal : Scaled) : Nat :=
  let (num, den) := decimal.fraction
  let value := interval.value * den
  let other := num * interval.den
  (value - other) + (other - value)

def digitCount (n : Nat) : Nat := (toString n).length

def leadingExponent (num den : Nat) : Int :=
  let guess : Int := (digitCount num : Int) - digitCount den
  let reached := if 0 ≤ guess then den * Nat.pow 10 guess.toNat ≤ num else den ≤ num * Nat.pow 10 (-guess).toNat
  if reached then guess else guess - 1

def Rounding.neighbours (interval : Rounding) (exponent : Int) : Scaled × Scaled :=
  let digits :=
    if 0 ≤ exponent then interval.value / (interval.den * Nat.pow 10 exponent.toNat)
    else interval.value * Nat.pow 10 (-exponent).toNat / interval.den
  (⟨digits, exponent⟩, ⟨digits + 1, exponent⟩)

/-- The nearest decimal of a grid in the interval, if there is one; of two that are equally near, the upper. -/
def Rounding.onGrid? (interval : Rounding) (exponent : Int) : Option Scaled :=
  let (below, above) := interval.neighbours exponent
  match interval.covers below, interval.covers above with
  | true, true => some (if interval.distance above ≤ interval.distance below then above else below)
  | true, false => some below
  | false, true => some above
  | false, false => none

/-- The first grid that has a decimal in the interval, from the coarsest on; seventeen digits always do. -/
def Rounding.shortest? (interval : Rounding) : Option Scaled :=
  let leading := leadingExponent interval.value interval.den
  (List.range 17).findSome? fun (count : Nat) => interval.onGrid? (leading - count)

def Scaled.trimZeros (decimal : Scaled) : (fuel : Nat) → Scaled
  | 0 => decimal
  | fuel + 1 =>
    if decimal.digits % 10 = 0 ∧ decimal.digits ≠ 0 then
      Scaled.trimZeros ⟨decimal.digits / 10, decimal.exponent + 1⟩ fuel
    else decimal

def Scaled.positional (decimal : Scaled) : String :=
  let decimal := decimal.trimZeros (digitCount decimal.digits)
  let digits := toString decimal.digits
  if 0 ≤ decimal.exponent then
    digits ++ String.ofList (List.replicate decimal.exponent.toNat '0')
  else
    let places := (-decimal.exponent).toNat
    let padded := List.replicate (places + 1 - digits.length) '0' ++ digits.toList
    String.ofList (padded.take (padded.length - places)) ++ "." ++
      String.ofList (padded.drop (padded.length - places))

def shortest : Binary → String
  | .nan => "NaN"
  | .infinite negative => if negative then "-inf" else "inf"
  | .finite negative mantissa exponent =>
    let decimal := if mantissa = 0 then ⟨0, 0⟩ else ((Rounding.ofBinary mantissa exponent).shortest?).getD ⟨0, 0⟩
    (if negative then "-" else "") ++ decimal.positional

end PodBudget.Decimal
