import PodBudget.Json.Text

/-!
Trees of settings, and how values are put into them. A place is written as a path: names with points between
them, and positions in square brackets. Names do not mind their case. A later value takes the place of an
earlier one, except that tables are merged name by name.
-/
namespace PodBudget.Settings

/-- A tree of settings: a table is an object whose names are in lower case and occur once. -/
abbrev Tree (α : Type) := Json.Value α

/-- Lower case, as far as it decides whether a text equals an ASCII one: the ASCII letters, and the sign of the
kelvin, which is a capital `k`. -/
def lowerChar (c : Char) : Char :=
  if 'A' ≤ c ∧ c ≤ 'Z' then Char.ofNat (c.toNat + 32) else if c.toNat = 0x212A then 'k' else c

def lower (text : String) : String := String.ofList (text.toList.map lowerChar)

inductive Step where
  | name (text : String)
  | position (index : Int)
  deriving DecidableEq, Repr

def isNameChar (c : Char) : Bool :=
  ('a' ≤ c && c ≤ 'z') || ('A' ≤ c && c ≤ 'Z') || c.isDigit || c == ' ' || c == '_' || c == '-'

def isInnerBlank (c : Char) : Bool := c == ' ' || c == '\t'

def readPosition (text : List Char) : Option (Int × List Char) :=
  let text := text.dropWhile isInnerBlank
  let (negative, text) := match text with
    | '-' :: rest => (true, rest)
    | _ => (false, text)
  let digits := text.takeWhile Char.isDigit
  let value : Int := digits.foldl (fun value c => value * 10 + (c.toNat - '0'.toNat)) 0
  match (text.dropWhile Char.isDigit).dropWhile isInnerBlank with
  | ']' :: rest =>
    if digits = [] ∨ Word.mostSigned < value then none else some (if negative then -value else value, rest)
  | _ => none

def readName (text : List Char) : Option (String × List Char) :=
  let name := text.takeWhile isNameChar
  if name = [] then none else some (String.ofList name, text.dropWhile isNameChar)

/-- The steps behind the first name; every step takes a character at least, so the length is fuel enough. -/
def readSteps : (fuel : Nat) → List Char → Option (List Step)
  | _, [] => some []
  | 0, _ => none
  | fuel + 1, '.' :: rest => do
    let (name, rest) ← readName rest
    return .name name :: (← readSteps fuel rest)
  | fuel + 1, '[' :: rest => do
    let (index, rest) ← readPosition rest
    return .position index :: (← readSteps fuel rest)
  | _ + 1, _ => none

/-- The path that a key spells in lower case; a key that spells none is a single name. -/
def pathOf (key : String) : List Step :=
  let key := lower key
  let steps? := do
    let (name, rest) ← readName key.toList
    return Step.name name :: (← readSteps rest.length rest)
  steps?.getD [.name key]

variable {α : Type}

def members : Tree α → List (String × Tree α)
  | .object members => members
  | _ => []

def items : Tree α → List (Tree α)
  | .array items => items
  | _ => []

def bind (name : String) (value : Tree α) : List (String × Tree α) → List (String × Tree α)
  | [] => [(name, value)]
  | (other, old) :: rest => if other = name then (name, value) :: rest else (other, old) :: bind name value rest

mutual
/-- A value put where there may be one already. A table without members changes nothing that is there. -/
def merge (old : Option (Tree α)) : Tree α → Tree α
  | .object [] => old.getD (.object [])
  | .object incoming => .object (mergeMembers (members (old.getD (.object []))) incoming)
  | value => value

def mergeMembers (table : List (String × Tree α)) : List (String × Tree α) → List (String × Tree α)
  | [] => table
  | (name, value) :: rest =>
    mergeMembers (bind (lower name) (merge (table.lookup (lower name)) value) table) rest
end

/-- Replaces the item at a position, with nulls in front of it where the list is too short; a position before
the first item is none. -/
def setItem (items : List (Tree α)) (index : Int) (change : Option (Tree α) → Tree α) : List (Tree α) :=
  let index := if index < 0 then index + items.length else index
  if index < 0 then items
  else
    let padded := items ++ List.replicate (index.toNat + 1 - items.length) .null
    padded.modify index.toNat fun old => change (some old)

/-- Puts a value at a place below an old tree. What is in the way there gives way. -/
def place (value : Tree α) : List Step → Option (Tree α) → Tree α
  | [], old => merge old value
  | .name name :: rest, old =>
    let table := members (old.getD (.object []))
    .object (bind (lower name) (place value rest (table.lookup (lower name))) table)
  | [.position index], old => .array (setItem (items (old.getD (.array []))) index fun _ => value)
  | .position index :: rest, old => .array (setItem (items (old.getD (.array []))) index (place value rest))

def insert (tree : Tree α) (key : String) (value : Tree α) : Tree α :=
  place value (pathOf key) (some tree)

def insertAll (tree : Tree α) (entries : List (String × Tree α)) : Tree α :=
  entries.foldl (fun tree entry => insert tree entry.1 entry.2) tree

end PodBudget.Settings
