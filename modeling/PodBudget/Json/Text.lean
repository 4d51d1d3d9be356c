import PodBudget.Json.Decimal

/-! Drafts out of text. The text is read once, and where it goes wrong the draft records the fault. -/
namespace PodBudget.Json

def isSpace (c : Char) : Bool := c == ' ' || c == '\n' || c == '\t' || c == '\r'

def skipSpace (text : List Char) : List Char := text.dropWhile isSpace

def hexValue? (c : Char) : Option Nat :=
  if '0' ≤ c ∧ c ≤ '9' then some (c.toNat - '0'.toNat)
  else if 'a' ≤ c ∧ c ≤ 'f' then some (c.toNat - 'a'.toNat + 10)
  else if 'A' ≤ c ∧ c ≤ 'F' then some (c.toNat - 'A'.toNat + 10)
  else none

def readHex (text : List Char) : Except Fault (Nat × List Char) :=
  match text with
  | a :: b :: c :: d :: rest =>
    match hexValue? a, hexValue? b, hexValue? c, hexValue? d with
    | some a, some b, some c, some d => .ok (((a * 16 + b) * 16 + c) * 16 + d, rest)
    | _, _, _, _ => .error .malformed
  | _ => if (String.ofList text).utf8ByteSize < 4 then .error .truncated else .error .malformed

def isHighSurrogate (n : Nat) : Bool := 0xD800 ≤ n && n ≤ 0xDBFF
def isLowSurrogate (n : Nat) : Bool := 0xDC00 ≤ n && n ≤ 0xDFFF

def readLow (text : List Char) : Except Fault (Nat × List Char) :=
  match text with
  | [] | ['\\'] => .error .truncated
  | '\\' :: 'u' :: rest => do
    let (low, rest) ← readHex rest
    if isLowSurrogate low then return (low, rest) else throw .malformed
  | _ => .error .malformed

/-- The character of an escape that begins with `n`, with the text behind it; a lone surrogate is none. -/
def readCodePoint (n : Nat) (rest : List Char) : Except Fault (Char × List Char) :=
  if isLowSurrogate n then .error .malformed
  else if isHighSurrogate n then do
    let (low, rest) ← readLow rest
    return (Char.ofNat (0x10000 + (n - 0xD800) * 0x400 + (low - 0xDC00)), rest)
  else .ok (Char.ofNat n, rest)

def simpleEscape? : Char → Option Char
  | '"' => some '"'
  | '\\' => some '\\'
  | '/' => some '/'
  | 'b' => some '\x08'
  | 'f' => some '\x0c'
  | 'n' => some '\n'
  | 'r' => some '\r'
  | 't' => some '\t'
  | _ => none

/-- A string behind its opening quote: its content, read backwards, and the text behind it. Passing over a
string asks less than reading it, so the two can fail apart. -/
structure StringScan where
  content : Except Fault (List Char)
  rest : Except Fault (List Char)

def StringScan.stop (content : Except Fault (List Char)) (fault : Fault) : StringScan :=
  ⟨content.bind fun _ => .error fault, .error fault⟩

def scanString (content : Except Fault (List Char)) : (fuel : Nat) → List Char → StringScan
  | 0, _ => .stop content .truncated
  | _ + 1, [] => .stop content .truncated
  | fuel + 1, c :: rest =>
    if c = '"' then ⟨content, .ok rest⟩
    else if c = '\\' then
      match rest with
      | [] => .stop content .truncated
      | 'u' :: rest =>
        match readHex rest with
        | .error fault => .stop content fault
        | .ok (n, rest) =>
          match content, readCodePoint n rest with
          | .ok read, .ok (c, rest) => scanString (.ok (c :: read)) fuel rest
          | .ok _, .error fault => scanString (.error fault) fuel rest
          | .error fault, _ => scanString (.error fault) fuel rest
      | c :: rest =>
        match simpleEscape? c with
        | some c => scanString (content.map (c :: ·)) fuel rest
        | none => .stop content .malformed
    else if c.toNat < 0x20 then .stop content .malformed
    else scanString (content.map (c :: ·)) fuel rest

def readString (text : List Char) : StringScan :=
  let scan := scanString (.ok []) (text.length + 1) text
  { scan with content := scan.content.map List.reverse }

variable {α : Type} [Number α]

def broken (reading variant passing : Fault) : Draft α × Option (List Char) :=
  (.flaw reading variant (some passing), none)

def readWord (draft : Draft α) : List Char → List Char → Draft α × Option (List Char)
  | [], rest => (draft, some rest)
  | _ :: _, [] => broken .truncated .malformed .truncated
  | letter :: word, c :: rest =>
    if c = letter then readWord draft word rest else broken .malformed .malformed .malformed

def readNumber (positive : Bool) (text : List Char) : Draft α × Option (List Char) :=
  match Decimal.read positive text with
  | .error fault => broken fault .malformed .malformed
  | .ok (literal, rest) =>
    match (literal.value : Option (Value α)) with
    | some value => (.ofValue value, some rest)
    | none => (.flaw .malformed .malformed none, some rest)

def readText (text : List Char) : Draft α × Option (List Char) :=
  let scan := readString text
  match scan.content, scan.rest with
  | .ok content, .ok rest => (.string (String.ofList content), some rest)
  | .error fault, .ok rest => (.flaw fault fault none, some rest)
  | .ok _, .error fault => broken fault fault fault
  | .error reading, .error fault => broken reading reading fault

mutual
/-- Reads one value; the rest of the text is none once the text has gone wrong for good. -/
def readValue : (fuel : Nat) → List Char → Draft α × Option (List Char)
  | 0, _ => broken .truncated .truncated .truncated
  | fuel + 1, text =>
    match skipSpace text with
    | [] => broken .truncated .truncated .truncated
    | '"' :: rest => readText rest
    | '[' :: rest =>
      let (items, ending, rest) := readItems fuel true rest
      (.array items ending, rest)
    | '\x7b' :: rest =>
      let (members, ending, rest) := readMembers fuel true rest
      (.object members ending, rest)
    | '-' :: rest => readNumber false rest
    | 'n' :: rest => readWord .null "ull".toList rest
    | 't' :: rest => readWord (.bool true) "rue".toList rest
    | 'f' :: rest => readWord (.bool false) "alse".toList rest
    | c :: rest =>
      if c.isDigit then readNumber true (c :: rest) else broken .malformed .malformed .malformed

def readItems : (fuel : Nat) → (first : Bool) → List Char → List (Draft α) × Ending × Option (List Char)
  | 0, _, _ => ([], .cut .truncated .truncated, none)
  | fuel + 1, first, text =>
    match skipSpace text with
    | [] => ([], .cut .truncated .truncated, none)
    | ']' :: rest => ([], .closed, some rest)
    | c :: rest =>
      if first then readItem fuel (c :: rest)
      else if c = ',' then
        match skipSpace rest with
        | [] => ([], .cut .truncated .malformed, none)
        | ']' :: _ => ([], .cut .malformed .malformed, none)
        | rest => readItem fuel rest
      else ([], .cut .malformed .malformed, none)

def readItem : (fuel : Nat) → List Char → List (Draft α) × Ending × Option (List Char)
  | 0, _ => ([], .cut .truncated .truncated, none)
  | fuel + 1, text =>
    match readValue fuel text with
    | (item, none) => ([item], .closed, none)
    | (item, some rest) =>
      let (items, ending, rest) := readItems fuel false rest
      (item :: items, ending, rest)

def readMembers : (fuel : Nat) → (first : Bool) → List Char →
    List (Label × Draft α) × Ending × Option (List Char)
  | 0, _, _ => ([], .cut .truncated .truncated, none)
  | fuel + 1, first, text =>
    match skipSpace text with
    | [] => ([], .cut .truncated .truncated, none)
    | '\x7d' :: rest => ([], .closed, some rest)
    | c :: rest =>
      if first then
        if c = '"' then readMember fuel rest
        else ([], .cut .malformed .malformed, none)
      else if c = ',' then
        match skipSpace rest with
        | [] => ([], .cut .truncated .malformed, none)
        | '"' :: rest => readMember fuel rest
        | _ => ([], .cut .malformed .malformed, none)
      else ([], .cut .malformed .malformed, none)

def readMember : (fuel : Nat) → List Char → List (Label × Draft α) × Ending × Option (List Char)
  | 0, _ => ([], .cut .truncated .truncated, none)
  | fuel + 1, text =>
    let scan := readString text
    let label := match scan.content with
      | .ok name => Label.name (String.ofList name)
      | .error fault => .flaw fault
    let stop (fault : Fault) := ([(label, .flaw fault fault (some fault))], .closed, none)
    match scan.rest with
    | .error fault => stop fault
    | .ok rest =>
      match skipSpace rest with
      | [] => stop .truncated
      | ':' :: rest =>
        match readValue fuel rest with
        | (value, none) => ([(label, value)], .closed, none)
        | (value, some rest) =>
          let (members, ending, rest) := readMembers fuel false rest
          ((label, value) :: members, ending, rest)
      | _ => stop .malformed
end

def Draft.ofText (text : String) : Draft α × List Char :=
  let chars := text.toList
  let (draft, rest) := readValue (3 * chars.length + 4) chars
  (draft, skipSpace (rest.getD []))

end PodBudget.Json
