import PodBudget.Number
import PodBudget.Decimal.Integer

/-!
Numbers in decimal text, read to the nearest number: digits with a point anywhere among them, an exponent if
need be, and the names of what is not finite. A sign may stand in front, and nothing else may stand around.
-/
namespace PodBudget.Decimal

variable {α : Type} [Number α]

/-- An exponent beyond this makes every number with a digit before its point infinite. -/
def maxExponent : Nat := 400

/-- `digits * 10 ^ exponent`. Exponents that no number reaches are cut off where the value no longer changes. -/
def nearest (digits : Nat) (exponent : Int) : α :=
  if digits = 0 then 0
  else
    let least : Int := -((digitCount digits + maxExponent : Nat) : Int)
    let exponent := max least (min exponent maxExponent)
    OfScientific.ofScientific digits (decide (exponent < 0)) exponent.natAbs

def lowerLetter (c : Char) : Char := if 'A' ≤ c ∧ c ≤ 'Z' then Char.ofNat (c.toNat + 32) else c

def namedValue? (text : List Char) : Option α :=
  let name := text.map lowerLetter
  if name = "inf".toList ∨ name = "infinity".toList then some (1 / 0)
  else if name = "nan".toList then some (0 / 0)
  else none

def spanDigits (text : List Char) : List Char × List Char :=
  (text.takeWhile Char.isDigit, text.dropWhile Char.isDigit)

def digitsValue (digits : List Char) : Nat :=
  digits.foldl (fun value c => value * 10 + (c.toNat - '0'.toNat)) 0

def exponent? : List Char → Option Int
  | [] => some 0
  | mark :: rest =>
    if mark = 'e' ∨ mark = 'E' then
      match rest with
      | '-' :: digits => (digits? digits).map fun value => -(value : Int)
      | '+' :: digits => (digits? digits).map fun value => (value : Int)
      | digits => (digits? digits).map fun value => (value : Int)
    else none

def unsigned? (text : List Char) : Option α :=
  let (whole, rest) := spanDigits text
  let (fraction, rest) := match rest with
    | '.' :: rest => spanDigits rest
    | rest => ([], rest)
  if whole = [] ∧ fraction = [] then namedValue? text
  else (exponent? rest).map fun exponent => nearest (digitsValue (whole ++ fraction)) (exponent - fraction.length)

def number? (text : List Char) : Option α :=
  match text with
  | '-' :: rest => (unsigned? rest).map (- ·)
  | '+' :: rest => unsigned? rest
  | _ => unsigned? text

end PodBudget.Decimal
