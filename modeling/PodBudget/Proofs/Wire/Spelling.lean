import PodBudget.Wire.Record

/-!
Which bytes spell which records. A number may take more bytes than it needs, and a group holds any records, groups among
them; so a message has many spellings, of which a writer makes one. Main statement: whatever spells some records is read
as these records, as long as its groups are nested less deep than the reader goes.
-/
namespace PodBudget.Wire

namespace Varint

/-- Seven bits a byte, the lowest first; every byte but the last says that more follow. -/
inductive Digits : Nat → Bytes → Prop
  | last {low : Nat} (small : low < 128) : Digits low [low.toUInt8]
  | more {low high : Nat} {bytes : Bytes} (small : low < 128) (rest : Digits high bytes) :
    Digits (low + 128 * high) ((low + 128).toUInt8 :: bytes)

structure Spells (n : Nat) (bytes : Bytes) : Prop where
  digits : Digits n bytes
  short : bytes.length ≤ maxPlaces
  word : n ≤ Word.most

theorem decodeWithin_of_digits {n places : Nat} {bytes : Bytes} (digits : Digits n bytes)
    (short : bytes.length ≤ places) (rest : Bytes) : decodeWithin places (bytes ++ rest) = some (n, rest) := by
  induction digits generalizing places with
  | @last low small =>
    have byte := toNat_toUInt8 (show low < 256 by omega)
    cases places with
    | zero => simp at short
    | succ places => simp [decodeWithin, byte, small]
  | @more low high bytes small _ ih =>
    have byte := toNat_toUInt8 (show low + 128 < 256 by omega)
    have follows : ¬ low + 128 < 128 := by omega
    cases places with
    | zero => simp at short
    | succ places =>
      simp only [List.length_cons, Nat.add_le_add_iff_right] at short
      simp only [List.cons_append, decodeWithin, byte]
      rw [if_neg follows, ih short]
      simp

theorem Spells.decode {n : Nat} {bytes : Bytes} (spells : Spells n bytes) (rest : Bytes) :
    Varint.decode (bytes ++ rest) = some (n, rest) := by
  simp [Varint.decode, decodeWithin_of_digits spells.digits spells.short, spells.word]

theorem digits_encode (n : Nat) : Digits n (encode n) := by
  fun_induction encode n with
  | case1 n small => exact .last small
  | case2 n _ ih =>
    have whole := Digits.more (show n % 128 < 128 by omega) ih
    rwa [Nat.mod_add_div] at whole

theorem length_encode_le (n places : Nat) (fits : n < capacity (places + 1)) : (encode n).length ≤ places + 1 := by
  induction places generalizing n with
  | zero =>
    have small : n < 128 := fits
    rw [encode]
    simp [small]
  | succ places ih =>
    rw [encode]
    split
    · simp
    · have later := ih (n / 128) (Nat.div_lt_of_lt_mul fits)
      simpa using later

theorem spells_encode {n : Nat} (word : n ≤ Word.most) : Spells n (encode n) where
  digits := digits_encode n
  short := length_encode_le n 9 (Nat.lt_of_le_of_lt word (by decide))
  word := word

end Varint

theorem Layout.code_lt (layout : Layout) : layout.code < 8 := by cases layout <;> decide

structure Key.Spells (key : Key) (bytes : Bytes) : Prop where
  number : Varint.Spells (key.field * 8 + key.layout.code) bytes
  positive : 0 < key.field
  narrow : key.field * 8 + key.layout.code ≤ Word.most32

theorem Key.Spells.decode {key : Key} {bytes : Bytes} (spells : key.Spells bytes) (rest : Bytes) :
    Key.decode (bytes ++ rest) = some (key, rest) := by
  have small := key.layout.code_lt
  have code : (key.field * 8 + key.layout.code) % 8 = key.layout.code := by omega
  have field : (key.field * 8 + key.layout.code) / 8 = key.field := by omega
  have narrow := spells.narrow
  have positive := spells.positive
  have fine : ¬ (Word.most32 < key.field * 8 + key.layout.code ∨ key.field = 0) := by omega
  simp only [Key.decode, spells.number.decode, Option.bind_eq_bind, Option.bind_some, code, field, Layout.ofCode?_code]
  rw [if_neg fine]

theorem Key.spells_encode {key : Key} (positive : 0 < key.field)
    (narrow : key.field * 8 + key.layout.code ≤ Word.most32) : key.Spells key.encode where
  number := Varint.spells_encode (Nat.le_trans narrow (by decide))
  positive := positive
  narrow := narrow

namespace Payload

def layout : Payload → Layout
  | .varint _ => .varint
  | .fixed64 _ => .fixed64
  | .chunk _ => .chunk
  | .group => .groupStart
  | .fixed32 _ => .fixed32

/-- What spells a payload that is no group. -/
inductive Spells : Payload → Bytes → Prop
  | varint {value : Nat} {bytes : Bytes} (number : Varint.Spells value bytes) : Spells (.varint value) bytes
  | fixed64 {bytes : Bytes} (eight : bytes.length = 8) : Spells (.fixed64 bytes) bytes
  | chunk {head bytes : Bytes} (length : Varint.Spells bytes.length head) : Spells (.chunk bytes) (head ++ bytes)
  | fixed32 {bytes : Bytes} (four : bytes.length = 4) : Spells (.fixed32 bytes) bytes

theorem takeBytes_append {count : Nat} {bytes : Bytes} (whole : bytes.length = count) (rest : Bytes) :
    takeBytes count (bytes ++ rest) = some (bytes, rest) := by
  subst whole
  simp [takeBytes]

theorem Spells.decode {payload : Payload} {bytes : Bytes} (spells : payload.Spells bytes) (rest : Bytes) :
    Payload.decode payload.layout (bytes ++ rest) = some (payload, rest) := by
  cases spells with
  | varint number => simp [Payload.decode, layout, number.decode]
  | fixed64 eight => simp [Payload.decode, layout, takeBytes_append eight]
  | chunk length => simp [Payload.decode, layout, length.decode, takeBytes_append]
  | fixed32 four => simp [Payload.decode, layout, takeBytes_append four]

theorem Spells.layout_ne {payload : Payload} {bytes : Bytes} (spells : payload.Spells bytes) :
    payload.layout ≠ .groupStart ∧ payload.layout ≠ .groupEnd := by
  cases spells <;> simp [layout]

end Payload

/-- What spells some records, of which the groups are nested at most `depth` deep. -/
inductive Spells : (depth : Nat) → List Record → Bytes → Prop
  | nil (depth : Nat) : Spells depth [] []
  | plain {depth field : Nat} {payload : Payload} {records : List Record} {key body rest : Bytes}
      (opens : Key.Spells ⟨field, payload.layout⟩ key) (holds : payload.Spells body)
      (later : Spells depth records rest) : Spells depth (⟨field, payload⟩ :: records) (key ++ (body ++ rest))
  | group {depth field : Nat} {inner records : List Record} {key body mark rest : Bytes}
      (opens : Key.Spells ⟨field, .groupStart⟩ key) (holds : Spells depth inner body)
      (closes : Key.Spells ⟨field, .groupEnd⟩ mark) (later : Spells (depth + 1) records rest) :
    Spells (depth + 1) (⟨field, .group⟩ :: records) (key ++ (body ++ (mark ++ rest)))

theorem Spells.append {depth : Nat} {records more : List Record} {bytes rest : Bytes}
    (early : Spells depth records bytes) (late : Spells depth more rest) :
    Spells depth (records ++ more) (bytes ++ rest) := by
  induction early with
  | nil depth => exact late
  | plain opens holds _ ih =>
    simp only [List.append_assoc, List.cons_append]
    exact .plain opens holds (ih late)
  | group opens holds closes _ _ ih =>
    simp only [List.append_assoc, List.cons_append]
    exact .group opens holds closes (ih late)

section

variable {limit field : Nat} {outer : List Nat} {bytes rest : Bytes} {key : Key}

theorem skipGroups_end (read : Key.decode bytes = some (⟨field, .groupEnd⟩, rest)) :
    skipGroups limit (field :: outer) bytes = skipGroups limit outer rest := by
  rw [skipGroups]
  split <;> simp_all

theorem skipGroups_start (read : Key.decode bytes = some (key, rest)) (starts : key.layout = .groupStart)
    (room : outer.length + 1 < limit) :
    skipGroups limit (field :: outer) bytes = skipGroups limit (key.field :: field :: outer) rest := by
  have deep : ¬ limit ≤ outer.length + 1 := by omega
  rw [skipGroups]
  split
  · simp_all
  · next found =>
    obtain ⟨rfl, rfl⟩ := Prod.mk.inj (Option.some.inj (found.symm.trans read))
    simp only [starts, deep, reduceCtorEq, ↓reduceIte]

theorem skipGroups_plain {payload : Payload} {left : Bytes} (read : Key.decode bytes = some (key, rest))
    (plain : key.layout ≠ .groupStart ∧ key.layout ≠ .groupEnd) (room : outer.length + 1 < limit)
    (held : Payload.decode key.layout rest = some (payload, left)) :
    skipGroups limit (field :: outer) bytes = skipGroups limit (field :: outer) left := by
  have deep : ¬ limit ≤ outer.length + 1 := by omega
  rw [skipGroups]
  split
  · simp_all
  · next found =>
    obtain ⟨rfl, rfl⟩ := Prod.mk.inj (Option.some.inj (found.symm.trans read))
    simp only [plain, deep, ↓reduceIte]
    split <;> simp_all

theorem Spells.skipGroups {depth : Nat} {records : List Record} (spells : Spells depth records bytes)
    (room : depth + outer.length + 1 < limit) (rest : Bytes) :
    skipGroups limit (field :: outer) (bytes ++ rest) = Wire.skipGroups limit (field :: outer) rest := by
  induction spells generalizing field outer rest with
  | nil depth => rfl
  | plain opens holds _ ih =>
    simp only [List.append_assoc]
    rw [skipGroups_plain (opens.decode _) holds.layout_ne (by omega) (holds.decode _), ih room]
  | @group depth _ _ _ _ _ _ _ opens holds closes _ inside ih =>
    have deeper : depth + (field :: outer).length + 1 < limit := by
      simp only [List.length_cons]
      omega
    simp only [List.append_assoc]
    rw [skipGroups_start (opens.decode _) rfl (by omega), inside deeper, skipGroups_end (closes.decode _), ih room]

end

theorem Record.decodeAll_cons {limit : Nat} {record : Record} {bytes rest : Bytes}
    (read : Record.decode limit bytes = some (record, rest)) :
    Record.decodeAll limit bytes = (Record.decodeAll limit rest).map (record :: ·) := by
  have shorter := Record.length_of_decode read
  rw [Record.decodeAll]
  split
  · next none => simp [none] at shorter
  · split <;> simp_all

theorem Spells.decodeAll {depth limit : Nat} {records : List Record} {bytes : Bytes}
    (spells : Spells depth records bytes) (shallow : depth < limit) : Record.decodeAll limit bytes = some records := by
  induction spells with
  | nil depth =>
    rw [Record.decodeAll]
    simp
  | @plain depth field payload records key body rest opens holds later ih =>
    have read : Record.decode limit (key ++ (body ++ rest)) = some (⟨field, payload⟩, rest) := by
      simp [Record.decode, opens.decode, holds.layout_ne.1, holds.decode]
    simp [Record.decodeAll_cons read, ih shallow]
  | @group depth field inner records key body mark rest opens holds closes later _ ih =>
    have skipped : Wire.skipGroups limit [field] (body ++ (mark ++ rest)) = some rest := by
      rw [holds.skipGroups (by simpa using shallow), skipGroups_end (closes.decode _), Wire.skipGroups]
    have read : Record.decode limit (key ++ (body ++ (mark ++ rest))) = some (⟨field, .group⟩, rest) := by
      simp [Record.decode, opens.decode, skipped]
    simp [Record.decodeAll_cons read, ih shallow]

theorem spells_encodeChunk (depth field : Nat) (bytes : Bytes) (positive : 0 < field)
    (narrow : field * 8 + 2 ≤ Word.most32) (word : bytes.length ≤ Word.most) :
    Spells depth [⟨field, .chunk bytes⟩] (Record.encodeChunk field bytes) := by
  have key : Key.Spells ⟨field, .chunk⟩ (Key.encode ⟨field, .chunk⟩) := Key.spells_encode positive narrow
  have spells := Spells.plain key (.chunk (Varint.spells_encode word)) (.nil depth)
  simpa [Record.encodeChunk] using spells

end PodBudget.Wire
