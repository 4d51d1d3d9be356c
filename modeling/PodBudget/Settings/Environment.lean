import PodBudget.Settings.Tree
import PodBudget.Decimal.Reading

/-!
Settings from the environment. Variables count whose name begins with the agent's prefix, in any case; two
underscores go one level down. Values are read as what they look like.
-/
namespace PodBudget.Settings.Environment

def lead : List Char := "tokenscale_".toList

def levels : List Char → List Char
  | '_' :: '_' :: rest => '.' :: levels rest
  | c :: rest => c :: levels rest
  | [] => []

def key? (name : String) : Option String :=
  let name := (lower name).toList
  if lead.isPrefixOf name then some (String.ofList (levels (name.drop lead.length))) else none

variable {α : Type} [Number α]

/-- A value is a truth value, a whole number, a number or, failing that, a text. -/
def value (text : String) : Tree α :=
  if lower text = "true" then .bool true
  else if lower text = "false" then .bool false
  else
    match Decimal.signedWord? text.toList with
    | some value => .integer value
    | none =>
      match Decimal.number? text.toList with
      | some value => .float value
      | none => .string text

def entries (environment : List (String × String)) : List (String × Tree α) :=
  environment.filterMap fun (name, text) => (key? name).map fun key => (key, value text)

end PodBudget.Settings.Environment
