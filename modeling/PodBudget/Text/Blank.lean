/-!
White space of text: the characters with the Unicode property of that name. Reading trims it from both ends
and splits words at it.
-/
namespace PodBudget.Text

def isBlank (c : Char) : Bool :=
  let n := c.toNat
  (9 ≤ n && n ≤ 13) || n == 0x20 || n == 0x85 || n == 0xA0 || n == 0x1680 || (0x2000 ≤ n && n ≤ 0x200A) ||
    n == 0x2028 || n == 0x2029 || n == 0x202F || n == 0x205F || n == 0x3000

def trim (text : List Char) : List Char :=
  ((text.dropWhile isBlank).reverse.dropWhile isBlank).reverse

/-- The words of a text: the longest runs without a blank. -/
def words : List Char → List (List Char)
  | [] => []
  | c :: rest =>
    if isBlank c then words rest
    else (c :: rest.takeWhile (!isBlank ·)) :: words (rest.dropWhile (!isBlank ·))
termination_by text => text.length
decreasing_by
  · simp
  · simp only [List.length_cons]
    exact Nat.lt_succ_of_le (List.dropWhile_sublist _).length_le

/-- Lines of a text. Each ends at a line feed, which takes a carriage return before it along; the end of the
text ends a line that has begun. -/
def lines : List Char → List (List Char)
  | [] => []
  | c :: rest =>
    let line := (c :: rest).takeWhile (· != '\n')
    let after := (c :: rest).dropWhile (· != '\n')
    (match after with
      | [] => line
      | _ :: _ => if line.getLast? = some '\r' then line.dropLast else line) :: lines (after.drop 1)
termination_by text => text.length
decreasing_by
  simp only [List.length_drop]
  have := (List.dropWhile_sublist (l := c :: rest) (· != '\n')).length_le
  simp only [List.length_cons] at this ⊢
  omega

end PodBudget.Text
