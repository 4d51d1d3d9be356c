import Mathlib.Logic.Relation
import PodBudget.Proofs.Decimal.Integer
import PodBudget.Proofs.Node.ControlFiles
import PodBudget.Proofs.Text.Blank

/-!
The grammar of the files that usage is read from. A file of one integer is a word, or a negative number that stands for
no limit, between blanks. An accounting file is searched for its first line that states the usage, so all other lines
may come, go and change places.
-/
namespace PodBudget.Node.ControlText

open Decimal (IsNumeral IsWord word? digits?)
open Text (IsBlanks IsSolid EndsWord words lines)

/-- An integer of a control file and what it reads as: a word as itself, and a negative signed word as 0. -/
inductive Counts : List Char → Nat → Prop
  | word {text : List Char} {value : Nat} (word : IsWord text value) : Counts text value
  | negative {digits : List Char} {size : Nat} (numeral : IsNumeral digits size) (below : 1 ≤ size)
      (fits : size ≤ 2 ^ 63) : Counts ('-' :: digits) 0

def Holds (text : List Char) (value : Nat) : Prop :=
  ∃ front body back, text = front ++ body ++ back ∧ IsBlanks front ∧ IsBlanks back ∧ Counts body value

variable {text line : List Char} {value : Nat}

theorem Counts.isSolid (counts : Counts text value) : IsSolid text := by
  cases counts with
  | word word => exact word.isSolid
  | negative numeral => exact List.forall_mem_cons.mpr ⟨by decide, numeral.isSolid⟩

theorem isNegative_iff : isNegative text = true ↔
    ∃ digits size, text = '-' :: digits ∧ IsNumeral digits size ∧ 1 ≤ size ∧ size ≤ 2 ^ 63 := by
  have ranged (size : Nat) : (decide (0 < size) && decide (Word.leastSigned ≤ -(size : Int))) = true ↔
      1 ≤ size ∧ size ≤ 2 ^ 63 := by
    simp [Word.leastSigned]
    omega
  unfold isNegative
  split
  next rest =>
    constructor
    · intro negative
      split at negative
      next size read => exact ⟨rest, size, rfl, Decimal.digits?_eq_some_iff.mp read, (ranged size).mp negative⟩
      next => cases negative
    · rintro ⟨digits, size, same, numeral, bounds⟩
      obtain rfl : rest = digits := (List.cons.inj same).2
      rw [Decimal.digits?_eq_some_iff.mpr numeral]
      exact (ranged size).mpr bounds
  next other =>
    constructor
    · intro negative
      cases negative
    · rintro ⟨digits, size, same, -⟩
      exact (other digits same).elim

theorem counter?_eq_some_iff_trim : counter? text = some value ↔ Counts (Text.trim text) value := by
  simp only [counter?]
  generalize Text.trim text = trimmed
  constructor
  · intro read
    cases word : word? trimmed with
    | some found =>
      rw [word] at read
      obtain rfl : found = value := Option.some.inj read
      exact .word (Decimal.word?_eq_some_iff.mp word)
    | none =>
      simp only [word, Option.ite_none_right_eq_some] at read
      obtain ⟨negative, zero⟩ := read
      obtain ⟨digits, size, rfl, numeral, below, fits⟩ := isNegative_iff.mp negative
      rw [← Option.some.inj zero]
      exact .negative numeral below fits
  · intro counts
    cases counts with
    | word word => rw [Decimal.word?_eq_some_iff.mpr word]
    | @negative digits size numeral below fits =>
      have signed : word? ('-' :: digits) = none := by
        rw [Option.eq_none_iff_forall_ne_some]
        intro found read
        cases Decimal.word?_eq_some_iff.mp read with
        | plain numeral => exact numeral.not_sign rfl
      simp only [signed]
      rw [if_pos (isNegative_iff.mpr ⟨digits, size, rfl, numeral, below, fits⟩)]

theorem counter?_eq_some_iff : counter? text = some value ↔ Holds text value := by
  rw [counter?_eq_some_iff_trim]
  constructor
  · intro counts
    obtain ⟨front, back, parts, before, after⟩ := Text.eq_append_trim text
    exact ⟨front, Text.trim text, back, parts, before, after, counts⟩
  · rintro ⟨front, body, back, rfl, before, after, counts⟩
    rwa [Text.trim_between before counts.isSolid after]

/-- A file of one integer reads as its grammar says, and as nothing else: a word as itself, a negative signed word as 0,
each between blanks. So the decimal text of a word reads as that word, with zeros in front and blanks around. -/
theorem counted_of_text :
    (∀ text value, counter? text = some value ↔ Holds text value) ∧
    (∀ text, counter? text = none ↔ ∀ value, ¬Holds text value) ∧
    ∀ value < 2 ^ 64, ∀ (zeros : Nat) (front back : List Char), IsBlanks front → IsBlanks back →
      counter? (front ++ (List.replicate zeros '0' ++ (toString value).toList) ++ back) = some value := by
  refine ⟨fun _ _ => counter?_eq_some_iff, fun text => ?_, ?_⟩
  · rw [Option.eq_none_iff_forall_ne_some]
    exact forall_congr' fun value => not_congr counter?_eq_some_iff
  · intro value fits zeros front back before after
    have word : IsWord (List.replicate zeros '0' ++ (toString value).toList) value :=
      .plain (Decimal.isNumeral_toString zeros value) fits
    exact counter?_eq_some_iff.mpr ⟨front, _, back, rfl, before, after, .word word⟩

theorem counted_of_text_padded :
    18446744073709551615 < 2 ^ 64 ∧ IsBlanks ['\u00a0', '\t'] ∧ IsBlanks ['\u3000', '\n'] ∧
      counter? "\u00a0\t0018446744073709551615\u3000\n".toList = some 18446744073709551615 ∧
      counter? "+18446744073709551616".toList = none ∧ counter? "-9223372036854775808".toList = some 0 := by
  obtain ⟨-, -, restored⟩ := counted_of_text
  have blanks : IsBlanks ['\u00a0', '\t'] ∧ IsBlanks ['\u3000', '\n'] := by
    simp [IsBlanks, Text.isBlank]
  refine ⟨by decide, blanks.1, blanks.2, ?_, by decide, by decide⟩
  exact restored 18446744073709551615 (by decide) 2 _ _ blanks.1 blanks.2

/-- A line that states the usage: its first word is the key, and its second one a word of 64 bits. -/
def States (line : List Char) (value : Nat) : Prop :=
  ∃ indent gap numeral tail, line = indent ++ (usageKey ++ (gap ++ (numeral ++ tail))) ∧ IsBlanks indent ∧
    gap ≠ [] ∧ IsBlanks gap ∧ IsWord numeral value ∧ EndsWord tail

/-- A line with another key, or one whose value is missing or no word. -/
def IsIdle (line : List Char) : Prop := ∀ value, ¬States line value

/-- A line that has words, and more than the bare key. What follows is not its key and not its value. -/
def IsComplete (line : List Char) : Prop := words line ≠ [] ∧ words line ≠ [usageKey]

theorem usageKey_solid : usageKey ≠ [] ∧ IsSolid usageKey := by
  constructor
  · decide
  · have clear : usageKey.all (fun c => !Text.isBlank c) = true := by decide
    intro c mem
    simpa using List.all_eq_true.mp clear c mem

theorem lineUsage?_eq_some_iff : lineUsage? line = some value ↔ States line value := by
  constructor
  · intro read
    unfold lineUsage? at read
    split at read
    next key numeral others split =>
      obtain ⟨rfl, word⟩ := Option.ite_none_right_eq_some.mp read
      obtain ⟨indent, rest, rfl, blanks, -, -, ends, more⟩ := Text.words_eq_cons_iff.mp split
      obtain ⟨gap, tail, rfl, between, filled, solid, ends', -⟩ := Text.words_eq_cons_iff.mp more
      refine ⟨indent, gap, numeral, tail, by simp, blanks, ?_, between, Decimal.word?_eq_some_iff.mp word, ends'⟩
      -- without a gap the numeral would begin with a blank
      rintro rfl
      obtain ⟨c, later, rfl⟩ := List.exists_cons_of_ne_nil filled
      have blank := ends c rfl
      rw [solid c List.mem_cons_self] at blank
      cases blank
    next => cases read
  · rintro ⟨indent, gap, numeral, tail, rfl, blanks, filled, between, word, ends⟩
    have apart : EndsWord (gap ++ (numeral ++ tail)) := by
      obtain ⟨c, later, rfl⟩ := List.exists_cons_of_ne_nil filled
      exact fun d same => between d (by simp_all)
    have split : words (indent ++ (usageKey ++ (gap ++ (numeral ++ tail)))) = usageKey :: numeral :: words tail := by
      rw [Text.words_blanks_append blanks, Text.words_word_append usageKey_solid.1 usageKey_solid.2 apart,
        Text.words_blanks_append between, Text.words_word_append word.filled word.isSolid ends]
    simp only [lineUsage?, split, ↓reduceIte]
    exact Decimal.word?_eq_some_iff.mpr word

theorem isIdle_iff : IsIdle line ↔ lineUsage? line = none := by
  rw [Option.eq_none_iff_forall_ne_some]
  exact forall_congr' fun value => not_congr lineUsage?_eq_some_iff.symm

theorem isIdle_of_key {key : List Char} {others : List (List Char)} (split : words line = key :: others)
    (other : key ≠ usageKey) : IsIdle line := by
  rw [isIdle_iff, lineUsage?, split]
  cases others with
  | nil => rfl
  | cons => exact if_neg other

theorem lineUsage?_congr {other : List Char} (same : words other = words line) :
    lineUsage? other = lineUsage? line := by
  rw [lineUsage?, lineUsage?, same]

theorem lineUsage?_append {tail : List Char} (complete : IsComplete line) (ends : EndsWord tail) :
    lineUsage? (line ++ tail) = lineUsage? line := by
  obtain ⟨filled, more⟩ := complete
  rw [lineUsage?, lineUsage?, Text.words_append line ends]
  cases shown : words line with
  | nil => exact absurd shown filled
  | cons key others =>
    cases others with
    | cons => rfl
    | nil =>
      have other : key ≠ usageKey := fun same => more (same ▸ shown)
      cases words tail with
      | nil => rfl
      | cons => exact if_neg other

/-- One change to the lines of a file that leaves alone what its usage lines state. -/
inductive Edit : List (List Char) → List (List Char) → Prop
  | insert (before after : List (List Char)) {line : List Char} (idle : IsIdle line) :
      Edit (before ++ after) (before ++ line :: after)
  | remove (before after : List (List Char)) {line : List Char} (idle : IsIdle line) :
      Edit (before ++ line :: after) (before ++ after)
  | swap (before after : List (List Char)) {line other : List Char} (idle : IsIdle line ∨ IsIdle other) :
      Edit (before ++ line :: other :: after) (before ++ other :: line :: after)
  | indent (before after : List (List Char)) (line : List Char) {blanks : List Char} (only : IsBlanks blanks) :
      Edit (before ++ line :: after) (before ++ (blanks ++ line) :: after)
  | trail (before after : List (List Char)) {line tail : List Char} (complete : IsComplete line)
      (apart : EndsWord tail) : Edit (before ++ line :: after) (before ++ (line ++ tail) :: after)
  | carriageReturn (before after : List (List Char)) (line : List Char) :
      Edit (before ++ line :: after) (before ++ (line ++ ['\r']) :: after)

theorem lineUsage?_carriageReturn (line : List Char) : lineUsage? (line ++ ['\r']) = lineUsage? line := by
  have blanks : IsBlanks ['\r'] := by simp [IsBlanks, Text.isBlank]
  apply lineUsage?_congr
  rw [Text.words_append line blanks.endsWord, Text.words_eq_nil_iff.mpr blanks, List.append_nil]

theorem Edit.findSome?_eq {rows others : List (List Char)} (edit : Edit rows others) :
    others.findSome? lineUsage? = rows.findSome? lineUsage? := by
  have replaced (before after : List (List Char)) {line other : List Char}
      (same : lineUsage? other = lineUsage? line) :
      (before ++ other :: after).findSome? lineUsage? = (before ++ line :: after).findSome? lineUsage? := by
    rw [List.findSome?_append, List.findSome?_append, List.findSome?_cons, List.findSome?_cons, same]
  have skipped (before after : List (List Char)) {line : List Char} (idle : IsIdle line) :
      (before ++ line :: after).findSome? lineUsage? = (before ++ after).findSome? lineUsage? := by
    rw [List.findSome?_append, List.findSome?_append, List.findSome?_cons, isIdle_iff.mp idle]
  have passed (before after : List (List Char)) {line : List Char} (other : List Char) (idle : IsIdle line) :
      (before ++ other :: line :: after).findSome? lineUsage? =
        (before ++ line :: other :: after).findSome? lineUsage? := by
    rw [List.append_cons, skipped _ after idle, ← List.append_cons, skipped before (other :: after) idle]
  cases edit with
  | insert before after idle => exact skipped before after idle
  | remove before after idle => exact (skipped before after idle).symm
  | swap before after idle =>
    rcases idle with idle | idle
    · exact passed before after _ idle
    · exact (passed before after _ idle).symm
  | indent before after line only => exact replaced before after (lineUsage?_congr (Text.words_blanks_append only line))
  | trail before after complete apart => exact replaced before after (lineUsage?_append complete apart)
  | carriageReturn before after line => exact replaced before after (lineUsage?_carriageReturn line)

theorem usageMicros?_eq (text : List Char) : usageMicros? text = (text.splitOn '\n').findSome? lineUsage? :=
  Text.findSome?_lines lineUsage? (by simp [lineUsage?]) lineUsage?_carriageReturn text

theorem findSome?_eq_of_edits {rows others : List (List Char)} (edits : Relation.ReflTransGen Edit rows others) :
    others.findSome? lineUsage? = rows.findSome? lineUsage? := by
  induction edits with
  | refl => rfl
  | tail _ edit ih => rw [edit.findSome?_eq, ih]

theorem read_of_usage {files : ControlFiles} (version : files.version = .v2) {tree : FileTree} {directory text : String}
    (content : ControlFiles.readText tree (files.counterPath ⟨.cpu, directory⟩) = .ok text)
    (usage : usageMicros? text.toList = some value) :
    files.read tree ⟨.cpu, directory⟩ = .ok (min (1000 * value) (2 ^ 64 - 1)) := by
  rw [ControlFiles.read_eq_decoded, content]
  simp [Except.bind, ControlFiles.decoded, version, usage, nanosOfMicros, Word.most, Nat.mul_comm]

/-- The usage of an accounting file is what its first line states that states one. Changes to the lines before and after
it, and to its looks, do not matter; and a larger usage never counts less, up to the largest word. -/
theorem metered_of_lines :
    (∀ text value, usageMicros? text = some value ↔ ∃ before line after, lines text = before ++ line :: after ∧
      States line value ∧ ∀ earlier ∈ before, IsIdle earlier) ∧
    (∀ text other, Relation.ReflTransGen Edit (text.splitOn '\n') (other.splitOn '\n') →
      usageMicros? other = usageMicros? text) ∧
    ∀ (files : ControlFiles) (earlier later : FileTree) (first second : String) (text more : String) (less most : Nat),
      files.version = .v2 →
      ControlFiles.readText earlier (files.counterPath ⟨.cpu, first⟩) = .ok text →
      ControlFiles.readText later (files.counterPath ⟨.cpu, second⟩) = .ok more →
      usageMicros? text.toList = some less → usageMicros? more.toList = some most → less ≤ most →
      files.read earlier ⟨.cpu, first⟩ = .ok (min (1000 * less) (2 ^ 64 - 1)) ∧
        files.read later ⟨.cpu, second⟩ = .ok (min (1000 * most) (2 ^ 64 - 1)) ∧
        min (1000 * less) (2 ^ 64 - 1) ≤ min (1000 * most) (2 ^ 64 - 1) := by
  refine ⟨fun text value => ?_, fun text other edits => ?_, ?_⟩
  · rw [usageMicros?, List.findSome?_eq_some_iff]
    simp only [lineUsage?_eq_some_iff, isIdle_iff]
  · rw [usageMicros?_eq, usageMicros?_eq, findSome?_eq_of_edits edits]
  · intro files earlier later first second text more less most version content content' usage usage' grows
    exact ⟨read_of_usage version content usage, read_of_usage version content' usage', by omega⟩

private def sparse : String := "user_usec 1\nusage_usec 18446744073709552"

private def dressed : String := "usage_usec x\n\tusage_usec 18446744073709552 7\r\nusage_usec_total 9"

private def accounts : FileTree :=
  ⟨[(["a"], .directory), (["a", "cpu.stat"], .file "usage_usec 18446744073709551".toUTF8), (["b"], .directory),
    (["b", "cpu.stat"], .file dressed.toUTF8)]⟩

private def unified : ControlFiles := ⟨.v2, ⟨"/", "/"⟩, "/"⟩

private theorem rows_sparse :
    sparse.toList.splitOn '\n' = ["user_usec 1".toList, "usage_usec 18446744073709552".toList] := by decide

private theorem words_user : words "user_usec 1".toList = ["user_usec".toList, "1".toList] := by cbv

private theorem edits_dressed :
    Relation.ReflTransGen Edit (sparse.toList.splitOn '\n') (dressed.toList.splitOn '\n') := by
  have finish : dressed.toList.splitOn '\n' = ["usage_usec x".toList,
      "\t".toList ++ "usage_usec 18446744073709552".toList ++ " 7".toList ++ ['\r'], "usage_usec_total 9".toList] := by
    decide
  have user : IsIdle "user_usec 1".toList := isIdle_of_key words_user (by decide)
  have total : IsIdle "usage_usec_total 9".toList :=
    isIdle_of_key (show _ = ["usage_usec_total".toList, "9".toList] by cbv) (by decide)
  have malformed : IsIdle "usage_usec x".toList := by
    have split : words "usage_usec x".toList = [usageKey, "x".toList] := by cbv
    rw [isIdle_iff, lineUsage?, split]
    decide
  have complete : IsComplete ("\t".toList ++ "usage_usec 18446744073709552".toList) := by
    have split : words ("\t".toList ++ "usage_usec 18446744073709552".toList) =
        [usageKey, "18446744073709552".toList] := by cbv
    rw [IsComplete, split]
    simp
  rw [rows_sparse, finish]
  exact .head (.remove [] _ user) <| .head (.insert [] _ malformed) <|
    .head (.indent [_] [] _ (by simp [IsBlanks, Text.isBlank])) <|
    .head (.trail [_] [] complete (by simp [EndsWord, Text.isBlank])) <|
    .head (.carriageReturn [_] [] _) <| .single (.insert [_, _] [] total)

/-- The larger usage is beyond the largest word in nanoseconds. -/
theorem metered_of_lines_dressed :
    Relation.ReflTransGen Edit (sparse.toList.splitOn '\n') (dressed.toList.splitOn '\n') ∧
      usageMicros? dressed.toList = some 18446744073709552 ∧
      unified.read accounts ⟨.cpu, "/a"⟩ = .ok 18446744073709551000 ∧
      unified.read accounts ⟨.cpu, "/b"⟩ = .ok 18446744073709551615 := by
  obtain ⟨-, kept, counters⟩ := metered_of_lines
  have less : usageMicros? "usage_usec 18446744073709551".toList = some 18446744073709551 := by
    have row : "usage_usec 18446744073709551".toList.splitOn '\n' = ["usage_usec 18446744073709551".toList] := by decide
    have split : words "usage_usec 18446744073709551".toList = [usageKey, "18446744073709551".toList] := by cbv
    rw [usageMicros?_eq, row, List.findSome?_singleton, lineUsage?, split]
    decide
  have most : usageMicros? dressed.toList = some 18446744073709552 := by
    have split : words "usage_usec 18446744073709552".toList = [usageKey, "18446744073709552".toList] := by cbv
    rw [kept _ _ edits_dressed, usageMicros?_eq, rows_sparse, List.findSome?_cons, List.findSome?_cons, lineUsage?,
      words_user, lineUsage?, split]
    decide
  obtain ⟨low, high, -⟩ := counters unified accounts accounts "/a" "/b" _ _ _ _ rfl (by decide +kernel)
    (by decide +kernel) less most (by decide)
  exact ⟨edits_dressed, most, low, high⟩

end PodBudget.Node.ControlText
