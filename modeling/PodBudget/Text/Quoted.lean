import PodBudget.Text.Hidden

/-!
Text in double quotes for messages. Quotes and backslashes are escaped, tabs and line ends have short forms,
and every other character without a visible form is written by its code.
-/
namespace PodBudget.Text

private def hexDigits (n : Nat) : List Char := Nat.toDigits 16 n

def escape (c : Char) : List Char :=
  match c with
  | '\x00' => ['\\', '0']
  | '\t' => ['\\', 't']
  | '\r' => ['\\', 'r']
  | '\n' => ['\\', 'n']
  | '\\' => ['\\', '\\']
  | '"' => ['\\', '"']
  | _ =>
    if c.toNat < 0x20 || isHidden c then ['\\', 'u', '\x7b'] ++ hexDigits c.toNat ++ ['\x7d']
    else [c]

def quoted (text : List Char) : String :=
  String.ofList (['"'] ++ text.flatMap escape ++ ['"'])

def quotedList (texts : List String) : String :=
  "[" ++ ", ".intercalate (texts.map fun text => quoted text.toList) ++ "]"

end PodBudget.Text
