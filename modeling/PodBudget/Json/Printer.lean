import PodBudget.Json.Value

/-! JSON text of a value, without blanks. -/
namespace PodBudget.Json

def hexDigit (n : Nat) : Char := (Nat.toDigits 16 n).headD '0'

def escapeChar (c : Char) : List Char :=
  match c with
  | '"' => ['\\', '"']
  | '\\' => ['\\', '\\']
  | '\n' => ['\\', 'n']
  | '\r' => ['\\', 'r']
  | '\t' => ['\\', 't']
  | '\x08' => ['\\', 'b']
  | '\x0c' => ['\\', 'f']
  | c => if c.toNat < 0x20 then ['\\', 'u', '0', '0', hexDigit (c.toNat / 16), hexDigit (c.toNat % 16)] else [c]

def printString (text : String) : String := "\"" ++ String.ofList (text.toList.flatMap escapeChar) ++ "\""

variable {α : Type} [Number α]

mutual
def print : Value α → String
  | .null => "null"
  | .bool value => if value then "true" else "false"
  | .integer value => toString value
  | .float value => Number.shortest value
  | .string text => printString text
  | .array items => "[" ++ ",".intercalate (printItems items) ++ "]"
  | .object members => "\x7b" ++ ",".intercalate (printMembers members) ++ "\x7d"

def printItems : List (Value α) → List String
  | [] => []
  | item :: rest => print item :: printItems rest

def printMembers : List (String × Value α) → List String
  | [] => []
  | (name, value) :: rest => (printString name ++ ":" ++ print value) :: printMembers rest
end

end PodBudget.Json
