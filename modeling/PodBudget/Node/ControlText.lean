import PodBudget.Number
import PodBudget.Decimal.Integer
import PodBudget.Text.Blank

/-!
The text of control files: integers that a node's files hold, the usage line of an accounting file, and the
values that limits are written as.
-/
namespace PodBudget.Node.ControlText

open Decimal (digits? word?)

def isNegative (text : List Char) : Bool :=
  match text with
  | '-' :: rest => match digits? rest with
    | some value => 0 < value && decide (Word.leastSigned ≤ -(value : Int))
    | none => false
  | _ => false

/-- The integer of a control file. Blanks around it do not count, and a negative one, which stands for no
limit, reads as 0. -/
def counter? (text : List Char) : Option Nat :=
  let trimmed := Text.trim text
  match word? trimmed with
  | some value => some value
  | none => if isNegative trimmed then some 0 else none

def usageKey : List Char := "usage_usec".toList

def lineUsage? (line : List Char) : Option Nat :=
  match Text.words line with
  | key :: value :: _ => if key = usageKey then word? value else none
  | _ => none

/-- Microseconds of the first usage line that can be read. -/
def usageMicros? (text : List Char) : Option Nat := (Text.lines text).findSome? lineUsage?

def nanosOfMicros (micros : Nat) : Nat := min (micros * 1000) Word.most

variable {α : Type} [Number α]

/-- Microseconds of a processor in each tenth of a second, for a limit in percent. -/
def quota (limit : α) : String := toString (Number.nearestWord (limit * 1000))

def quotaAndPeriod (limit : α) : String :=
  toString (Number.nearestWord (limit / 100 * 100000)) ++ " 100000"

def share (limit : α) : String := toString (Number.nearestWord (limit * 10))

end PodBudget.Node.ControlText
