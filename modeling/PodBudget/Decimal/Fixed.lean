import PodBudget.Decimal.Binary

/-!
Decimal text with a fixed number of places, rounded from the exact value.
-/
namespace PodBudget.Decimal

/-- The integer nearest to `num / den`; halfway between two, the even one. -/
def roundHalfEven (num den : Nat) : Nat :=
  let low := num / den
  let twice := 2 * (num % den)
  if twice < den then low
  else if den < twice then low + 1
  else low + low % 2

private def padLeft (width : Nat) (digits : String) : String :=
  String.ofList (List.replicate (width - digits.length) '0') ++ digits

def fixed (places : Nat) (negative : Bool) (num den : Nat) : String :=
  let digits := padLeft (places + 1) (toString (roundHalfEven (num * Nat.pow 10 places) den))
  let whole := String.ofList (digits.toList.take (digits.length - places))
  let rest := String.ofList (digits.toList.drop (digits.length - places))
  (if negative then "-" else "") ++ whole ++ (if places = 0 then "" else "." ++ rest)

/-- A value that is no number has no sign in its text. -/
def fixedBinary (places : Nat) : Binary → String
  | .nan => "NaN"
  | .infinite negative => if negative then "-inf" else "inf"
  | .finite negative mantissa exponent =>
    let (num, den) := Binary.fraction mantissa exponent
    fixed places negative num den

end PodBudget.Decimal
