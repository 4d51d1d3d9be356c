import PodBudget.Word

/-!
Whole numbers as bytes, seven bits at a time from the lowest on; the eighth bit of a byte says that more follow.
Reading takes any spelling of a 64-bit word in ten bytes at most.
-/
namespace PodBudget.Wire

abbrev Bytes := List UInt8

namespace Varint

def encode (n : Nat) : Bytes :=
  if n < 128 then [n.toUInt8] else (n % 128 + 128).toUInt8 :: encode (n / 128)
termination_by n

/-- Reads a number of at most `places` bytes; gives the bytes behind it too. -/
def decodeWithin : (places : Nat) → Bytes → Option (Nat × Bytes)
  | 0, _ => none
  | _ + 1, [] => none
  | places + 1, byte :: rest =>
    if byte.toNat < 128 then some (byte.toNat, rest)
    else (decodeWithin places rest).map fun (high, rest) => (byte.toNat - 128 + 128 * high, rest)

def maxPlaces : Nat := 10

def decode (bytes : Bytes) : Option (Nat × Bytes) :=
  (decodeWithin maxPlaces bytes).filter (·.1 ≤ Word.most)

def capacity : (places : Nat) → Nat
  | 0 => 1
  | places + 1 => 128 * capacity places

theorem toNat_toUInt8 {n : Nat} (small : n < 256) : n.toUInt8.toNat = n := by
  simp [Nat.toUInt8, Nat.mod_eq_of_lt small]

theorem length_of_decodeWithin {places : Nat} {bytes rest : Bytes} {n : Nat}
    (read : decodeWithin places bytes = some (n, rest)) : rest.length < bytes.length := by
  induction places generalizing bytes n with
  | zero => simp [decodeWithin] at read
  | succ places ih =>
    cases bytes with
    | nil => simp [decodeWithin] at read
    | cons byte tail =>
      simp only [decodeWithin] at read
      split at read
      · simp only [Option.some.injEq, Prod.mk.injEq] at read
        simp [read.2]
      · simp only [Option.map_eq_some_iff, Prod.mk.injEq, Prod.exists] at read
        obtain ⟨high, tail, found, _, rfl⟩ := read
        have := ih found
        simp only [List.length_cons]
        omega

theorem length_of_decode {bytes rest : Bytes} {n : Nat} (read : decode bytes = some (n, rest)) :
    rest.length < bytes.length :=
  length_of_decodeWithin (Option.filter_eq_some_iff.mp read).1

end Varint

-- Signed words are written as the unsigned word of the same bits.

def ofSigned (n : Int) : Nat := (n % (Word.most + 1)).toNat

def toSigned (n : Nat) : Int := if n ≤ Word.mostSigned then n else (n : Int) - (Word.most + 1)

theorem toSigned_ofSigned {n : Int} (low : Word.leastSigned ≤ n) (high : n ≤ Word.mostSigned) :
    toSigned (ofSigned n) = n := by
  unfold Word.leastSigned at low
  unfold Word.mostSigned at high
  unfold toSigned ofSigned Word.most Word.mostSigned
  split <;> omega

end PodBudget.Wire
