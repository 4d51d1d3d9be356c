import PodBudget.Settings.Tree

/-! Settings files: JSON documents whose outermost value is a table. -/
namespace PodBudget.Settings.File

def maxDepth : Nat := 127

variable {α : Type} [Number α]

/-- Whole numbers beyond a signed word are kept as numbers. -/
def ofInteger (value : Int) : Tree α :=
  if Word.leastSigned ≤ value ∧ value ≤ Word.mostSigned then .integer value else .float (Number.ofInt value)

mutual
/-- The tree of a draft without faults that is nested no deeper than `depth`. -/
def ofDraft? (depth : Nat) : Json.Draft α → Option (Tree α)
  | .null => some .null
  | .bool value => some (.bool value)
  | .integer value => some (ofInteger value)
  | .float value => some (.float value)
  | .string text => some (.string text)
  | .array items .closed => if depth = 0 then none else (ofItems? (depth - 1) items).map .array
  | .object members .closed => if depth = 0 then none else (ofMembers? (depth - 1) [] members).map .object
  | _ => none

def ofItems? (depth : Nat) : List (Json.Draft α) → Option (List (Tree α))
  | [] => some []
  | item :: rest => do
    let value ← ofDraft? depth item
    return value :: (← ofItems? depth rest)

def ofMembers? (depth : Nat) (table : List (String × Tree α)) :
    List (Json.Label × Json.Draft α) → Option (List (String × Tree α))
  | [] => some table
  | (.name name, draft) :: rest => do
    let value ← ofDraft? depth draft
    ofMembers? depth (bind name value table) rest
  | (.flaw _, _) :: _ => none
end

def entries? (text : String) : Option (List (String × Tree α)) := do
  let (draft, rest) := Json.Draft.ofText text
  match ← ofDraft? maxDepth draft with
  | .object entries => if rest = [] then some entries else none
  | _ => none

def extension (path : String) : String :=
  let name := (path.toList.reverse.takeWhile (· != '/')).reverse
  let reversed := name.reverse
  let behind := (reversed.takeWhile (· != '.')).reverse
  if name.length ≤ behind.length + 1 then "" else String.ofList behind

def isDocument (path : String) : Bool := extension path == "json"

end PodBudget.Settings.File
