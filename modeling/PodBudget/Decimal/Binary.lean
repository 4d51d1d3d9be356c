/-!
The exact value of a double. A finite double is an integer times a power of two; every text and every exact
comparison of doubles is computed from that decoding and never from a rounded print.
-/
namespace PodBudget.Decimal

/-- Exact value of a double: `finite s m q` stands for `m * 2 ^ q`, with its sign apart so that zero keeps one. -/
inductive Binary where
  | nan
  | infinite (negative : Bool)
  | finite (negative : Bool) (mantissa : Nat) (exponent : Int)
  deriving DecidableEq, Repr

def leadingBit : Nat := 0x10000000000000

def Binary.ofBits (bits : Nat) : Binary :=
  let negative := bits / (leadingBit * 2048) % 2 == 1
  let exponent : Nat := bits / leadingBit % 2048
  let fraction : Nat := bits % leadingBit
  if exponent = 2047 then
    if fraction = 0 then .infinite negative else .nan
  else if exponent = 0 then .finite negative fraction (-1074)
  else .finite negative (leadingBit + fraction) ((exponent : Int) - 1075)

def Binary.ofFloat (x : Float) : Binary :=
  Binary.ofBits x.toBits.toNat

def Binary.fraction (mantissa : Nat) (exponent : Int) : Nat × Nat :=
  if 0 ≤ exponent then (mantissa * Nat.pow 2 exponent.toNat, 1) else (mantissa, Nat.pow 2 (-exponent).toNat)

end PodBudget.Decimal
