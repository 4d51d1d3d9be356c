import PodBudget.Number

/-!
JSON values, and drafts of them. A draft is what can be made out of a text that may break off or go wrong
somewhere: the fault stands in the place where a reader meets it, so that a reader which stops before, or
passes over it, is not concerned. Every value is a draft without faults.
-/
namespace PodBudget.Json

/-- A JSON value. Whole numbers and numbers with a fraction or an exponent are kept apart. -/
inductive Value (α : Type) where
  | null
  | bool (value : Bool)
  | integer (value : Int)
  | float (value : α)
  | string (value : String)
  | array (items : List (Value α))
  | object (members : List (String × Value α))
  deriving Repr

inductive Fault where
  | malformed
  | mistyped
  | truncated
  deriving DecidableEq, Repr

/-- How a sequence of items or members ends. A cut has the fault of a reader that asks for more, and the one of
a reader that has all it asks for. -/
inductive Ending where
  | closed
  | cut (onward closing : Fault)
  deriving DecidableEq, Repr

inductive Label where
  | name (text : String)
  | flaw (fault : Fault)
  deriving DecidableEq, Repr

inductive Draft (α : Type) where
  | null
  | bool (value : Bool)
  | integer (value : Int)
  | float (value : α)
  | string (value : String)
  | array (items : List (Draft α)) (ending : Ending)
  | object (members : List (Label × Draft α)) (ending : Ending)
  /-- Something that cannot be read: the fault of reading it, of reading it as a variant, and of passing over
  it, if there is one. -/
  | flaw (reading variant : Fault) (passing : Option Fault)

variable {α : Type}

mutual
def Draft.ofValue : Value α → Draft α
  | .null => .null
  | .bool value => .bool value
  | .integer value => .integer value
  | .float value => .float value
  | .string value => .string value
  | .array items => .array (Draft.ofItems items) .closed
  | .object members => .object (Draft.ofMembers members) .closed

def Draft.ofItems : List (Value α) → List (Draft α)
  | [] => []
  | item :: rest => Draft.ofValue item :: Draft.ofItems rest

def Draft.ofMembers : List (String × Value α) → List (Label × Draft α)
  | [] => []
  | (name, value) :: rest => (.name name, Draft.ofValue value) :: Draft.ofMembers rest
end

theorem Draft.ofMembers_eq_map (members : List (String × Value α)) :
    Draft.ofMembers members = members.map fun member => (.name member.1, Draft.ofValue member.2) := by
  induction members with
  | nil => rfl
  | cons member rest ih => simp [Draft.ofMembers, ih]

def Ending.pass : Ending → Except Fault Unit
  | .closed => .ok ()
  | .cut onward _ => .error onward

def Ending.close : Ending → Except Fault Unit
  | .closed => .ok ()
  | .cut _ closing => .error closing

mutual
def Draft.pass : Draft α → Except Fault Unit
  | .array items ending => do Draft.passItems items; ending.pass
  | .object members ending => do Draft.passMembers members; ending.pass
  | .flaw _ _ (some fault) => .error fault
  | _ => .ok ()

def Draft.passItems : List (Draft α) → Except Fault Unit
  | [] => .ok ()
  | item :: rest => do item.pass; Draft.passItems rest

def Draft.passMembers : List (Label × Draft α) → Except Fault Unit
  | [] => .ok ()
  | (_, value) :: rest => do value.pass; Draft.passMembers rest
end

mutual
theorem Draft.pass_ofValue : (value : Value α) → (Draft.ofValue value).pass = .ok ()
  | .null | .bool _ | .integer _ | .float _ | .string _ => by
    simp [Draft.ofValue, Draft.pass]
  | .array items => by
    simp only [Draft.ofValue, Draft.pass, Draft.passItems_ofItems items]; rfl
  | .object members => by
    simp only [Draft.ofValue, Draft.pass, Draft.passMembers_ofMembers members]; rfl

theorem Draft.passItems_ofItems : (items : List (Value α)) → Draft.passItems (Draft.ofItems items) = .ok ()
  | [] => by simp [Draft.ofItems, Draft.passItems]
  | item :: rest => by
    simp only [Draft.ofItems, Draft.passItems, Draft.pass_ofValue item, Draft.passItems_ofItems rest]; rfl

theorem Draft.passMembers_ofMembers :
    (members : List (String × Value α)) → Draft.passMembers (Draft.ofMembers members) = .ok ()
  | [] => by simp [Draft.ofMembers, Draft.passMembers]
  | (_, value) :: rest => by
    simp only [Draft.ofMembers, Draft.passMembers, Draft.pass_ofValue value,
      Draft.passMembers_ofMembers rest]; rfl
end

end PodBudget.Json
