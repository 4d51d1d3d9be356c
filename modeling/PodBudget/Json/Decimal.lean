import PodBudget.Json.Value
import PodBudget.Decimal.Reading

/-!
Numbers in JSON text. A number without a fraction and an exponent that fits a word stays whole; every other
one is read to the nearest number, and refused where that is not finite.
-/
namespace PodBudget.Json.Decimal

open PodBudget.Decimal (digitsValue nearest spanDigits)

structure Literal where
  positive : Bool
  whole : List Char
  fraction : Option (List Char)
  exponent : Option (Bool × List Char)
  deriving DecidableEq, Repr

variable {α : Type} [Number α]

def Literal.scale (literal : Literal) : Int :=
  match literal.exponent with
  | none => 0
  | some (upward, digits) => if upward then (digitsValue digits : Int) else -(digitsValue digits : Int)

def Literal.magnitude (literal : Literal) : α :=
  let fraction := literal.fraction.getD []
  nearest (digitsValue (literal.whole ++ fraction)) (literal.scale - fraction.length)

/-- The whole number that a literal stands for, if it is written as one and fits a word. There is no whole
number for a zero with a sign. -/
def Literal.whole? (literal : Literal) : Option Int :=
  let digits := digitsValue literal.whole
  if literal.fraction.isSome || literal.exponent.isSome then none
  else if literal.positive then
    if digits ≤ Word.most then some digits else none
  else if digits ≠ 0 ∧ Word.leastSigned ≤ -(digits : Int) then some (-(digits : Int))
  else none

def Literal.value (literal : Literal) : Option (Value α) :=
  match literal.whole? with
  | some whole => some (.integer whole)
  | none =>
    let magnitude : α := literal.magnitude
    if Number.isFinite magnitude then some (.float (if literal.positive then magnitude else -magnitude)) else none

def expected (text : List Char) : Fault := if text = [] then .truncated else .malformed

def readExponent (literal : Literal) : List Char → Except Fault (Literal × List Char)
  | c :: rest =>
    if c = 'e' ∨ c = 'E' then
      let (upward, digits) := match rest with
        | '+' :: digits => (true, digits)
        | '-' :: digits => (false, digits)
        | digits => (true, digits)
      let (digits, rest) := spanDigits digits
      if digits = [] then .error (expected rest)
      else .ok ({ literal with exponent := some (upward, digits) }, rest)
    else .ok (literal, c :: rest)
  | [] => .ok (literal, [])

def readFraction (literal : Literal) : List Char → Except Fault (Literal × List Char)
  | '.' :: rest =>
    let (digits, rest) := spanDigits rest
    if digits = [] then .error (expected rest)
    else readExponent { literal with fraction := some digits } rest
  | rest => readExponent literal rest

def read (positive : Bool) (text : List Char) : Except Fault (Literal × List Char) :=
  match text with
  | '0' :: rest =>
    if (rest.head?.map Char.isDigit).getD false then .error .malformed
    else readFraction ⟨positive, ['0'], none, none⟩ rest
  | _ =>
    let (digits, rest) := spanDigits text
    if digits = [] then .error (expected rest) else readFraction ⟨positive, digits, none, none⟩ rest

end PodBudget.Json.Decimal
