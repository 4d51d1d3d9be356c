import PodBudget.Wire.Varint

/-!
Records of the binary format that messages are made of: a field number, and a payload of one of a few kinds.
A message is a sequence of records. Groups, which only old messages have, are passed over as a whole.
-/
namespace PodBudget.Wire

inductive Layout where
  | varint
  | fixed64
  | chunk
  | groupStart
  | groupEnd
  | fixed32
  deriving DecidableEq, Repr

namespace Layout

def code : Layout → Nat
  | .varint => 0
  | .fixed64 => 1
  | .chunk => 2
  | .groupStart => 3
  | .groupEnd => 4
  | .fixed32 => 5

def ofCode? : Nat → Option Layout
  | 0 => some .varint
  | 1 => some .fixed64
  | 2 => some .chunk
  | 3 => some .groupStart
  | 4 => some .groupEnd
  | 5 => some .fixed32
  | _ => none

theorem ofCode?_code (layout : Layout) : ofCode? layout.code = some layout := by cases layout <;> rfl

end Layout

structure Key where
  field : Nat
  layout : Layout
  deriving DecidableEq, Repr

namespace Key

def encode (key : Key) : Bytes := Varint.encode (key.field * 8 + key.layout.code)

/-- Reads a key, which fits 32 bits; there is no field 0. -/
def decode (bytes : Bytes) : Option (Key × Bytes) := do
  let (code, rest) ← Varint.decode bytes
  let layout ← Layout.ofCode? (code % 8)
  if Word.most32 < code ∨ code / 8 = 0 then none else some (⟨code / 8, layout⟩, rest)

theorem length_of_decode {bytes rest : Bytes} {key : Key} (read : decode bytes = some (key, rest)) :
    rest.length < bytes.length := by
  simp only [decode, Option.bind_eq_bind, Option.bind_eq_some_iff, Prod.exists] at read
  obtain ⟨code, tail, found, layout, _, read⟩ := read
  split at read
  · cases read
  · simp only [Option.some.injEq, Prod.mk.injEq] at read
    exact read.2 ▸ Varint.length_of_decode found

end Key

inductive Payload where
  | varint (value : Nat)
  | fixed64 (bytes : Bytes)
  | chunk (bytes : Bytes)
  | group
  | fixed32 (bytes : Bytes)
  deriving DecidableEq, Repr

structure Record where
  field : Nat
  payload : Payload
  deriving DecidableEq, Repr

def takeBytes (count : Nat) (bytes : Bytes) : Option (Bytes × Bytes) :=
  if count ≤ bytes.length then some (bytes.splitAt count) else none

theorem length_of_takeBytes {count : Nat} {bytes first rest : Bytes}
    (read : takeBytes count bytes = some (first, rest)) : rest.length ≤ bytes.length := by
  simp only [takeBytes, List.splitAt_eq] at read
  split at read
  · simp only [Option.some.injEq, Prod.mk.injEq] at read
    simp [← read.2]
  · cases read

namespace Payload

def decode (layout : Layout) (bytes : Bytes) : Option (Payload × Bytes) :=
  match layout with
  | .varint => (Varint.decode bytes).map fun (value, rest) => (.varint value, rest)
  | .fixed64 => (takeBytes 8 bytes).map fun (value, rest) => (.fixed64 value, rest)
  | .chunk => do
    let (count, rest) ← Varint.decode bytes
    let (value, rest) ← takeBytes count rest
    return (.chunk value, rest)
  | .fixed32 => (takeBytes 4 bytes).map fun (value, rest) => (.fixed32 value, rest)
  | .groupStart | .groupEnd => none

theorem length_of_decode {layout : Layout} {bytes rest : Bytes} {payload : Payload}
    (read : decode layout bytes = some (payload, rest)) : rest.length ≤ bytes.length := by
  cases layout <;> simp only [decode, Option.map_eq_some_iff, Option.bind_eq_bind, Option.bind_eq_some_iff,
    Option.pure_def, Option.some.injEq, Prod.mk.injEq, Prod.exists, reduceCtorEq] at read
  case varint =>
    obtain ⟨value, tail, found, _, rfl⟩ := read
    exact Nat.le_of_lt (Varint.length_of_decode found)
  case chunk =>
    obtain ⟨count, tail, found, value, left, taken, _, rfl⟩ := read
    exact Nat.le_trans (length_of_takeBytes taken) (Nat.le_of_lt (Varint.length_of_decode found))
  all_goals
    obtain ⟨value, tail, found, _, rfl⟩ := read
    exact length_of_takeBytes found

end Payload

/-- Passes over open groups, the innermost first, up to the end of the outermost. Groups and what is in them
may be nested less deep than `limit`. -/
def skipGroups (limit : Nat) : (unclosed : List Nat) → Bytes → Option Bytes
  | [], bytes => some bytes
  | field :: outer, bytes =>
    match _found : Key.decode bytes with
    | none => none
    | some (key, rest) =>
      if key.layout = .groupEnd then
        if key.field = field then skipGroups limit outer rest else none
      else if limit ≤ outer.length + 1 then none
      else if key.layout = .groupStart then skipGroups limit (key.field :: field :: outer) rest
      else
        match _taken : Payload.decode key.layout rest with
        | none => none
        | some (_, rest) => skipGroups limit (field :: outer) rest
termination_by _ bytes => bytes.length
decreasing_by
  · exact Key.length_of_decode _found
  · exact Key.length_of_decode _found
  · exact Nat.lt_of_le_of_lt (Payload.length_of_decode _taken) (Key.length_of_decode _found)

theorem length_of_skipGroups {limit : Nat} {unclosed : List Nat} {bytes rest : Bytes}
    (read : skipGroups limit unclosed bytes = some rest) : rest.length ≤ bytes.length := by
  fun_induction skipGroups limit unclosed bytes with
  | case1 => simp only [Option.some.injEq] at read; simp [read]
  | case2 => cases read
  | case3 _ _ _ _ head _ ih => exact Nat.le_trans (ih read) (Nat.le_of_lt (Key.length_of_decode head))
  | case4 => cases read
  | case5 => cases read
  | case6 _ _ _ _ _ head _ _ _ ih => exact Nat.le_trans (ih read) (Nat.le_of_lt (Key.length_of_decode head))
  | case7 => cases read
  | case8 _ _ _ _ _ head _ _ _ _ _ body ih =>
    exact Nat.le_trans (ih read)
      (Nat.le_trans (Payload.length_of_decode body) (Nat.le_of_lt (Key.length_of_decode head)))

namespace Record

def decode (limit : Nat) (bytes : Bytes) : Option (Record × Bytes) := do
  let (key, rest) ← Key.decode bytes
  if key.layout = .groupStart then
    let rest ← skipGroups limit [key.field] rest
    return (⟨key.field, .group⟩, rest)
  else
    let (payload, rest) ← Payload.decode key.layout rest
    return (⟨key.field, payload⟩, rest)

theorem length_of_decode {limit : Nat} {bytes rest : Bytes} {record : Record}
    (read : decode limit bytes = some (record, rest)) : rest.length < bytes.length := by
  simp only [decode, Option.bind_eq_bind, Option.bind_eq_some_iff, Prod.exists] at read
  obtain ⟨key, tail, found, read⟩ := read
  have shorter := Key.length_of_decode found
  split at read
  · simp only [Option.bind_eq_some_iff, Option.pure_def, Option.some.injEq, Prod.mk.injEq] at read
    obtain ⟨left, skipped, _, rfl⟩ := read
    exact Nat.lt_of_le_of_lt (length_of_skipGroups skipped) shorter
  · simp only [Option.bind_eq_some_iff, Option.pure_def, Option.some.injEq, Prod.mk.injEq, Prod.exists] at read
    obtain ⟨payload, left, taken, _, rfl⟩ := read
    exact Nat.lt_of_le_of_lt (Payload.length_of_decode taken) shorter

def decodeAll (limit : Nat) (bytes : Bytes) : Option (List Record) :=
  if bytes = [] then some []
  else
    match _found : decode limit bytes with
    | none => none
    | some (record, rest) => (decodeAll limit rest).map (record :: ·)
termination_by bytes.length
decreasing_by exact length_of_decode _found

def encodeChunk (field : Nat) (bytes : Bytes) : Bytes :=
  Key.encode ⟨field, .chunk⟩ ++ Varint.encode bytes.length ++ bytes

end Record
end PodBudget.Wire
