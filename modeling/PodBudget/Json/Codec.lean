import PodBudget.Json.Text
import PodBudget.Roster

/-!
Codecs: how a type is written as JSON and read back. Records are described by their fields, and one reader and
one writer serve all of them. A record may be given as an object, with its members in any order, or as an
array of its fields in order. Unknown members are passed over, and a known one may not come twice.
-/
namespace PodBudget.Json

structure Codec (α β : Type) where
  write : β → Value α
  read : Draft α → Except Fault β

namespace Codec

variable {α β γ : Type}

def mistyped : Draft α → Fault
  | .flaw reading _ _ => reading
  | _ => .mistyped

def readText [Number α] (codec : Codec α β) (text : String) : Except Fault β := do
  let (draft, rest) := Draft.ofText text
  let value ← codec.read draft
  if rest = [] then return value else throw .malformed

def readValue (codec : Codec α β) (value : Value α) : Except Fault β := codec.read (.ofValue value)

/-- Whether a value is read back from what it is written as. -/
def ReadsBack (codec : Codec α β) (value : β) : Prop := codec.readValue (codec.write value) = .ok value

def string : Codec α String where
  write text := .string text
  read
    | .string text => .ok text
    | draft => .error (mistyped draft)

def bool : Codec α Bool where
  write value := .bool value
  read
    | .bool value => .ok value
    | draft => .error (mistyped draft)

/-- Whole numbers from `least` to `most`; a number with a fraction or an exponent is none. -/
def integer (least most : Int) : Codec α Int where
  write value := .integer value
  read
    | .integer value => if least ≤ value ∧ value ≤ most then .ok value else .error .mistyped
    | draft => .error (mistyped draft)

def natural (most : Nat) : Codec α Nat where
  write value := .integer value
  read draft := ((integer 0 most).read draft).map Int.toNat

def number [Number α] : Codec α α where
  write value := if Number.isFinite value then .float value else .null
  read
    | .integer value => .ok (Number.ofInt value)
    | .float value => .ok value
    | draft => .error (mistyped draft)

def option (codec : Codec α β) : Codec α (Option β) where
  write
    | none => .null
    | some value => codec.write value
  read
    | .null => .ok none
    | draft => (codec.read draft).map some

/-- One of some names. A variant may also be given as an object whose only member, of that name, is null. -/
def variants (names : List (String × β)) (name : β → String) : Codec α β where
  write value := .string (name value)
  read
    | .string text => find text
    | .object ((.name text, draft) :: rest) ending => do
      let value ← find text
      match draft with
      | .null => pure ()
      | other => throw (mistyped other)
      match rest, ending with
      | [], ending => do ending.close; return value
      | _ :: _, _ => throw .malformed
    | .object ((.flaw fault, _) :: _) _ => .error fault
    | .object [] .closed => .error .malformed
    | .object [] (.cut _ closing) => .error closing
    | .flaw _ variant _ => .error variant
    | _ => .error .malformed
where
  find (text : String) : Except Fault β :=
    match names.lookup text with
    | some value => .ok value
    | none => .error .mistyped

def readItems (codec : Codec α β) (ending : Ending) : List (Draft α) → Except Fault (List β)
  | [] => do ending.pass; return []
  | item :: rest => do
    let value ← codec.read item
    return value :: (← readItems codec ending rest)

def list (codec : Codec α β) : Codec α (List β) where
  write values := .array (values.map codec.write)
  read
    | .array items ending => readItems codec ending items
    | draft => .error (mistyped draft)

def readMembers (codec : Codec α β) (ending : Ending) (read : Roster β) :
    List (Label × Draft α) → Except Fault (Roster β)
  | [] => do ending.pass; return read
  | (.flaw fault, _) :: _ => .error fault
  | (.name name, draft) :: rest => do
    let value ← codec.read draft
    readMembers codec ending (read.insert name value) rest

def roster (codec : Codec α β) : Codec α (Roster β) where
  write values := .object (values.entries.map fun entry => (entry.1, codec.write entry.2))
  read
    | .object members ending => readMembers codec ending .empty members
    | draft => .error (mistyped draft)

/-- One field of a record. What is absent from an object or from the end of an array may have a value all the
same. -/
structure Field (α β : Type) where
  name : String
  write : β → Option (Value α)
  read : Draft α → Except Fault β
  inObject : Option β
  inArray : Option β

namespace Field

def required (name : String) (codec : Codec α β) : Field α β :=
  ⟨name, fun value => some (codec.write value), codec.read, none, none⟩

def withDefault (name : String) (codec : Codec α β) (value : β) : Field α β :=
  ⟨name, fun value => some (codec.write value), codec.read, some value, some value⟩

def omissible (name : String) (codec : Codec α β) : Field α (Option β) :=
  ⟨name, fun value => value.map codec.write, codec.option.read, some none, none⟩

def usual [DecidableEq β] (name : String) (codec : Codec α β) (value : β) : Field α β :=
  ⟨name, fun other => if other = value then none else some (codec.write other), codec.read, some value,
    some value⟩

end Field

def Row : List Type → Type
  | [] => Unit
  | β :: rest => β × Row rest

def Partial : List Type → Type
  | [] => Unit
  | β :: rest => Option β × Partial rest

inductive Fields (α : Type) : List Type → Type 1 where
  | nil : Fields α []
  | cons {β : Type} {rest : List Type} (field : Field α β) (others : Fields α rest) : Fields α (β :: rest)

namespace Fields

def names : {types : List Type} → Fields α types → List String
  | _, nil => []
  | _, cons field others => field.name :: others.names

def write : {types : List Type} → Fields α types → Row types → List (String × Value α)
  | _, nil, () => []
  | _, cons field others, (value, rest) =>
    ((field.write value).map (field.name, ·)).toList ++ others.write rest

def none : {types : List Type} → Fields α types → Partial types
  | _, nil => ()
  | _, cons _ others => (Option.none, others.none)

def take (name : String) (draft : Draft α) :
    {types : List Type} → Fields α types → Partial types → Except Fault (Partial types)
  | _, nil, () => do draft.pass
  | _, cons field others, (value, rest) =>
    if name = field.name then
      match value with
      | some _ => .error .mistyped
      | Option.none => do return (some (← field.read draft), rest)
    else do return (value, ← others.take name draft rest)

def takeMembers (ending : Ending) {types : List Type} (fields : Fields α types) (values : Partial types) :
    List (Label × Draft α) → Except Fault (Partial types)
  | [] => do ending.pass; return values
  | (.flaw fault, _) :: _ => .error fault
  | (.name name, draft) :: rest => do fields.takeMembers ending (← fields.take name draft values) rest

def complete : {types : List Type} → Fields α types → Partial types → Except Fault (Row types)
  | _, nil, () => .ok ()
  | _, cons field others, (value, rest) =>
    match value <|> field.inObject with
    | some value => do return (value, ← others.complete rest)
    | Option.none => .error .mistyped

def takeItems (ending : Ending) : {types : List Type} → Fields α types → List (Draft α) →
    Except Fault (Row types)
  | _, nil, [] => do ending.close
  | _, nil, _ :: _ => .error .malformed
  | _, cons field others, item :: items => do
    let value ← field.read item
    return (value, ← others.takeItems ending items)
  | _, cons field others, [] => do
    ending.pass
    match field.inArray with
    | some value => return (value, ← others.takeItems ending [])
    | Option.none => throw .mistyped

end Fields

def record {types : List Type} (fields : Fields α types) (toRow : β → Row types) (ofRow : Row types → β) :
    Codec α β where
  write value := .object (fields.write (toRow value))
  read
    | .object members ending => do
      let values ← fields.takeMembers ending fields.none members
      return ofRow (← fields.complete values)
    | .array items ending => do return ofRow (← fields.takeItems ending items)
    | draft => .error (mistyped draft)

end Codec
end PodBudget.Json
