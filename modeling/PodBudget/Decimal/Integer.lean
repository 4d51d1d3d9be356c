import PodBudget.Word

/-!
Integers in decimal text: one or more ASCII digits, with a sign where the reader asks for one, and within the
range of a 64-bit word.
-/
namespace PodBudget.Decimal

def digits? (text : List Char) : Option Nat :=
  if text ≠ [] ∧ text.all Char.isDigit then
    some (text.foldl (fun value c => value * 10 + (c.toNat - '0'.toNat)) 0)
  else none

def word? (text : List Char) : Option Nat :=
  let digits := match text with | '+' :: rest => rest | _ => text
  (digits? digits).filter (· ≤ Word.most)

def signedWord? (text : List Char) : Option Int :=
  match text with
  | '-' :: rest => ((digits? rest).map fun value => -(value : Int)).filter (Word.leastSigned ≤ ·)
  | '+' :: rest => ((digits? rest).map fun value => (value : Int)).filter (· ≤ Word.mostSigned)
  | _ => ((digits? text).map fun value => (value : Int)).filter (· ≤ Word.mostSigned)

end PodBudget.Decimal
