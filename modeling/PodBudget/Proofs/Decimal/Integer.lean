import Mathlib.Algebra.Ring.Nat
import PodBudget.Decimal.Integer
import PodBudget.Proofs.Text.Blank

/-!
The grammar of integers in decimal text. Reading accepts the numerals within the range of a word, with leading zeros or
a plus sign before them, and nothing else.
-/
namespace PodBudget.Decimal

/-- One or more ASCII digits, and their value. -/
structure IsNumeral (text : List Char) (value : Nat) : Prop where
  filled : text ≠ []
  digits : ∀ c ∈ text, c.isDigit = true
  value_eq : Nat.ofDigitChars 10 text 0 = value

/-- A numeral below the end of the words of 64 bits, perhaps after a plus sign. -/
inductive IsWord : List Char → Nat → Prop
  | plain {text : List Char} {value : Nat} (numeral : IsNumeral text value) (fits : value < 2 ^ 64) :
      IsWord text value
  | plus {text : List Char} {value : Nat} (numeral : IsNumeral text value) (fits : value < 2 ^ 64) :
      IsWord ('+' :: text) value

variable {text : List Char} {value : Nat}

theorem digits?_eq_some_iff : digits? text = some value ↔ IsNumeral text value := by
  have folds : text.foldl (fun value c => value * 10 + (c.toNat - '0'.toNat)) 0 = Nat.ofDigitChars 10 text 0 := by
    simp only [Nat.ofDigitChars_eq_foldl, Nat.mul_comm]
  unfold digits?
  rw [folds]
  constructor
  · intro read
    split at read
    next shape => exact ⟨shape.1, List.all_eq_true.mp shape.2, Option.some.inj read⟩
    next => cases read
  · rintro ⟨filled, digits, rfl⟩
    rw [if_pos ⟨filled, List.all_eq_true.mpr digits⟩]

theorem le_most_iff : value ≤ Word.most ↔ value < 2 ^ 64 := Nat.lt_succ_iff.symm

theorem IsNumeral.not_sign {sign : Char} {rest : List Char} (numeral : IsNumeral (sign :: rest) value)
    (undigital : sign.isDigit = false) : False := by
  simp [numeral.digits sign List.mem_cons_self] at undigital

theorem IsNumeral.isSolid (numeral : IsNumeral text value) : Text.IsSolid text := by
  intro c mem
  have range := Char.isDigit_iff_toNat.mp (numeral.digits c mem)
  have low : 48 ≤ c.toNat := range.1
  have high : c.toNat ≤ 57 := range.2
  simp [Text.isBlank]
  omega

theorem IsWord.isSolid (word : IsWord text value) : Text.IsSolid text := by
  cases word with
  | plain numeral => exact numeral.isSolid
  | plus numeral => exact List.forall_mem_cons.mpr ⟨by decide, numeral.isSolid⟩

theorem IsWord.filled (word : IsWord text value) : text ≠ [] := by
  cases word with
  | plain numeral => exact numeral.filled
  | plus => simp

theorem word?_eq_some_iff : word? text = some value ↔ IsWord text value := by
  have ranged (digits : List Char) :
      (digits? digits).filter (· ≤ Word.most) = some value ↔ IsNumeral digits value ∧ value < 2 ^ 64 := by
    rw [Option.filter_eq_some_iff, digits?_eq_some_iff, decide_eq_true_iff, le_most_iff]
  constructor
  · intro read
    unfold word? at read
    split at read
    next rest =>
      obtain ⟨numeral, fits⟩ := (ranged rest).mp read
      exact .plus numeral fits
    next =>
      obtain ⟨numeral, fits⟩ := (ranged text).mp read
      exact .plain numeral fits
  · intro word
    cases word with
    | plus numeral fits => exact (ranged _).mpr ⟨numeral, fits⟩
    | plain numeral fits =>
      unfold word?
      split
      next => exact (numeral.not_sign rfl).elim
      next => exact (ranged text).mpr ⟨numeral, fits⟩

theorem isNumeral_toString (zeros value : Nat) :
    IsNumeral (List.replicate zeros '0' ++ (toString value).toList) value := by
  have written : (toString value).toList = Nat.toDigits 10 value := by simp
  rw [written]
  refine ⟨by simp, ?_, ?_⟩
  · intro c mem
    rcases List.mem_append.mp mem with zero | digit
    · rw [List.eq_of_mem_replicate zero]
      rfl
    · exact Nat.isDigit_of_mem_toDigits (by decide) (by decide) digit
  · rw [Nat.ofDigitChars_append, Nat.ofDigitChars_replicate_zero, Nat.mul_zero, Nat.ofDigitChars_ten_toDigits]

end PodBudget.Decimal
