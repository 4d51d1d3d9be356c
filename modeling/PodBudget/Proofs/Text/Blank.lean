import PodBudget.Text.Blank
import Mathlib.Data.List.Basic
import Mathlib.Data.List.TakeWhile

/-!
Text between blanks. Trimming takes off blanks and leaves a text without blanks as it is; words are the longest
stretches without a blank; and a search through the lines of a text is one through the stretches between its line
feeds, if what it looks for does not depend on a carriage return at the end.
-/
namespace PodBudget.Text

def IsBlanks (text : List Char) : Prop := ∀ c ∈ text, isBlank c = true

def IsSolid (text : List Char) : Prop := ∀ c ∈ text, isBlank c = false

/-- What a word can end at: a blank, or the end of the text. -/
def EndsWord (rest : List Char) : Prop := ∀ c ∈ rest.head?, isBlank c = true

variable {text front body back word rest indent : List Char}

theorem IsBlanks.endsWord (blanks : IsBlanks text) : EndsWord text :=
  fun c mem => blanks c (List.mem_of_mem_head? mem)

theorem EndsWord.append (first : EndsWord front) (second : EndsWord back) : EndsWord (front ++ back) := by
  cases front with
  | nil => exact second
  | cons => exact first

theorem dropWhile_blanks (blanks : IsBlanks front) (rest : List Char) :
    (front ++ rest).dropWhile isBlank = rest.dropWhile isBlank :=
  List.dropWhile_append_of_pos blanks

theorem dropWhile_solid (solid : IsSolid text) : text.dropWhile isBlank = text := by
  cases text with
  | nil => rfl
  | cons c rest => exact List.dropWhile_cons_of_neg (by simp [solid c List.mem_cons_self])

theorem trim_between (before : IsBlanks front) (solid : IsSolid body) (after : IsBlanks back) :
    trim (front ++ body ++ back) = body := by
  have started : (front ++ body ++ back).dropWhile isBlank = (body ++ back).dropWhile isBlank := by
    rw [List.append_assoc, dropWhile_blanks before]
  cases body with
  | nil =>
    have nothing : back.dropWhile isBlank = [] := List.dropWhile_eq_nil_iff.mpr after
    rw [trim, started, List.nil_append, nothing]
    rfl
  | cons c rest =>
    have stays : (c :: rest ++ back).dropWhile isBlank = c :: rest ++ back :=
      List.dropWhile_cons_of_neg (by simp [solid c List.mem_cons_self])
    have turned : IsBlanks back.reverse := fun c mem => after c (List.mem_reverse.mp mem)
    have solid' : IsSolid (c :: rest).reverse := fun c mem => solid c (List.mem_reverse.mp mem)
    rw [trim, started, stays, List.reverse_append, dropWhile_blanks turned, dropWhile_solid solid',
      List.reverse_reverse]

theorem eq_append_trim (text : List Char) :
    ∃ front back, text = front ++ trim text ++ back ∧ IsBlanks front ∧ IsBlanks back := by
  have taken (text : List Char) : IsBlanks (text.takeWhile isBlank) := fun c mem => List.mem_takeWhile_imp mem
  let started := text.dropWhile isBlank
  refine ⟨text.takeWhile isBlank, (started.reverse.takeWhile isBlank).reverse, ?_, taken text,
    fun c mem => taken _ c (List.mem_reverse.mp mem)⟩
  have ended : trim text ++ (started.reverse.takeWhile isBlank).reverse = started := by
    rw [trim, ← List.reverse_append, List.takeWhile_append_dropWhile, List.reverse_reverse]
  rw [List.append_assoc, ended, List.takeWhile_append_dropWhile]

@[simp] theorem words_nil : words [] = [] := by rw [words]

theorem words_blanks_append (blanks : IsBlanks indent) (rest : List Char) : words (indent ++ rest) = words rest := by
  induction indent with
  | nil => rfl
  | cons c more ih =>
    obtain ⟨first, others⟩ := List.forall_mem_cons.mp blanks
    rw [List.cons_append, words, if_pos first, ih others]

theorem words_word_append (filled : word ≠ []) (solid : IsSolid word) (ends : EndsWord rest) :
    words (word ++ rest) = word :: words rest := by
  obtain ⟨c, more, rfl⟩ := List.exists_cons_of_ne_nil filled
  obtain ⟨first, others⟩ := List.forall_mem_cons.mp solid
  have within : ∀ c ∈ more, (!isBlank c) = true := fun c mem => by simp [others c mem]
  have stops : rest.takeWhile (!isBlank ·) = [] ∧ rest.dropWhile (!isBlank ·) = rest := by
    cases rest with
    | nil => exact ⟨rfl, rfl⟩
    | cons d later =>
      have blank : isBlank d = true := ends d rfl
      simp [blank]
  rw [List.cons_append, words, if_neg (by simp [first]), List.takeWhile_append_of_pos within,
    List.dropWhile_append_of_pos within, stops.1, stops.2, List.append_nil]

theorem words_eq_cons_iff {others : List (List Char)} :
    words text = word :: others ↔ ∃ indent rest, text = indent ++ word ++ rest ∧ IsBlanks indent ∧ word ≠ [] ∧
      IsSolid word ∧ EndsWord rest ∧ words rest = others := by
  constructor
  · intro split
    induction text using words.induct with
    | case1 => simp at split
    | case2 c rest blank ih =>
      rw [words, if_pos blank] at split
      obtain ⟨indent, later, rfl, blanks, further⟩ := ih split
      exact ⟨c :: indent, later, rfl, List.forall_mem_cons.mpr ⟨blank, blanks⟩, further⟩
    | case3 c rest solid ih =>
      rw [words, if_neg solid, List.cons_eq_cons] at split
      obtain ⟨rfl, rfl⟩ := split
      refine ⟨[], rest.dropWhile (!isBlank ·), ?_, by simp [IsBlanks], by simp, ?_, ?_, rfl⟩
      · simp
      · refine List.forall_mem_cons.mpr ⟨by simpa using solid, fun d mem => ?_⟩
        simpa using List.mem_takeWhile_imp mem
      · intro d mem
        have shown := List.head?_dropWhile_not (!isBlank ·) rest
        rw [Option.mem_def.mp mem] at shown
        simpa using shown
  · rintro ⟨indent, rest, rfl, blanks, filled, solid, ends, rfl⟩
    rw [List.append_assoc, words_blanks_append blanks, words_word_append filled solid ends]

theorem words_eq_nil_iff : words text = [] ↔ IsBlanks text := by
  constructor
  · intro none
    induction text using words.induct with
    | case1 => simp [IsBlanks]
    | case2 c rest blank ih =>
      rw [words, if_pos blank] at none
      exact List.forall_mem_cons.mpr ⟨blank, ih none⟩
    | case3 c rest solid =>
      rw [words, if_neg solid] at none
      cases none
  · intro blanks
    simpa using words_blanks_append blanks []

theorem words_append (front : List Char) (ends : EndsWord back) : words (front ++ back) = words front ++ words back := by
  generalize split : words front = shown
  induction shown generalizing front with
  | nil => rw [words_blanks_append (words_eq_nil_iff.mp split), List.nil_append]
  | cons word others ih =>
    obtain ⟨indent, rest, rfl, blanks, filled, solid, ended, rfl⟩ := words_eq_cons_iff.mp split
    rw [List.append_assoc, List.append_assoc, words_blanks_append blanks,
      words_word_append filled solid (ended.append ends), ih rest rfl, List.cons_append]

/-- A line without the carriage return at its end, if there is one. -/
def unreturned (line : List Char) : List Char := if line.getLast? = some '\r' then line.dropLast else line

theorem lines_of_noFeed (filled : text ≠ []) (inside : '\n' ∉ text) : lines text = [text] := by
  have within : ∀ c ∈ text, (c != '\n') = true := fun c mem => by simpa using ne_of_mem_of_not_mem mem inside
  have taken : text.takeWhile (· != '\n') = text := List.takeWhile_eq_self_iff.mpr within
  have left : text.dropWhile (· != '\n') = [] := List.dropWhile_eq_nil_iff.mpr within
  obtain ⟨c, rest, rfl⟩ := List.exists_cons_of_ne_nil filled
  rw [lines]
  simp only [taken, left, List.drop_nil]
  rw [lines]

theorem lines_append_feed (inside : '\n' ∉ front) (rest : List Char) :
    lines (front ++ '\n' :: rest) = unreturned front :: lines rest := by
  have within : ∀ c ∈ front, (c != '\n') = true := fun c mem => by simpa using ne_of_mem_of_not_mem mem inside
  have taken : (front ++ '\n' :: rest).takeWhile (· != '\n') = front := by
    simp [List.takeWhile_append_of_pos within]
  have left : (front ++ '\n' :: rest).dropWhile (· != '\n') = '\n' :: rest := by
    simp [List.dropWhile_append_of_pos within]
  obtain ⟨c, more, written⟩ := List.exists_cons_of_ne_nil (l := front ++ '\n' :: rest) (by simp)
  rw [written] at taken left ⊢
  rw [lines]
  simp only [taken, left, List.drop_succ_cons, List.drop_zero]
  rfl

theorem findSome?_lines {β : Type} (read : List Char → Option β) (empty : read [] = none)
    (returned : ∀ line, read (line ++ ['\r']) = read line) (text : List Char) :
    (lines text).findSome? read = (text.splitOn '\n').findSome? read := by
  have reads (line : List Char) : read (unreturned line) = read line := by
    unfold unreturned
    split
    next ended => rw [← returned line.dropLast, List.dropLast_append_getLast? _ ended]
    next => rfl
  induction size : text.length using Nat.strong_induction_on generalizing text with
  | _ count ih =>
    by_cases feed : '\n' ∈ text
    · obtain ⟨line, rest, rfl, inside⟩ := List.eq_append_cons_of_mem feed
      have smaller : rest.length < count := by
        rw [← size, List.length_append, List.length_cons]
        omega
      rw [lines_append_feed inside, List.splitOn_append_cons_self_of_not_mem inside, List.findSome?_cons,
        List.findSome?_cons, reads, ih _ smaller rest rfl]
    · rw [List.splitOn_eq_singleton feed]
      by_cases filled : text = []
      · simp [filled, lines, empty]
      · rw [lines_of_noFeed filled feed]

end PodBudget.Text
