import Mathlib.Data.List.Forall2
import PodBudget.Proofs.Wire.Spelling

/-!
Messages field by field. Records of different fields may be mixed in any order, so what a message says is read off the
records of each field by themselves; a reader that takes in one record after another comes to the same.
-/
namespace PodBudget.Wire

variable {β γ δ : Type}

def ofField (field : Nat) (records : List Record) : List Record := records.filter fun record => record.field = field

/-- The records of a field are one chunk for each value. -/
def Chunks (field : Nat) (spells : β → Bytes → Prop) (values : List β) (records : List Record) : Prop :=
  List.Forall₂ (fun value record => ∃ bytes, record = ⟨field, .chunk bytes⟩ ∧ spells value bytes) values
    (ofField field records)

theorem field_ne_of_forall {field : Nat} {record : Record} (other : ∀ payload, record = ⟨field, payload⟩ → False) :
    record.field ≠ field := by
  rintro rfl
  exact other record.payload rfl

theorem foldlM_ofField {step : β → Record → Option β} {field : Nat}
    (passes : ∀ value record, record.field ≠ field → step value record = some value) (records : List Record)
    (value : β) : records.foldlM step value = (ofField field records).foldlM step value := by
  induction records generalizing value with
  | nil => rfl
  | cons record rest ih =>
    by_cases own : record.field = field
    · have here : ofField field (record :: rest) = record :: ofField field rest := by simp [ofField, own]
      rw [here, List.foldlM_cons, List.foldlM_cons]
      exact congrArg _ (funext ih)
    · have elsewhere : ofField field (record :: rest) = ofField field rest := by simp [ofField, own]
      rw [elsewhere, List.foldlM_cons, passes value record own]
      exact ih value

theorem foldlM_both {make : β → γ → δ} {step : δ → Record → Option δ} {first : β → Record → Option β}
    {second : γ → Record → Option γ}
    (splits : ∀ one other record next last, first one record = some next → second other record = some last →
      step (make one other) record = some (make next last))
    {records : List Record} {one next : β} {other last : γ} (reads : records.foldlM first one = some next)
    (also : records.foldlM second other = some last) :
    records.foldlM step (make one other) = some (make next last) := by
  induction records generalizing one other with
  | nil =>
    simp only [List.foldlM_nil, Option.pure_def, Option.some.injEq] at reads also ⊢
    rw [reads, also]
  | cons record rest ih =>
    simp only [List.foldlM_cons, Option.bind_eq_bind, Option.bind_eq_some_iff] at reads also ⊢
    obtain ⟨middle, begins, reads⟩ := reads
    obtain ⟨between, starts, also⟩ := also
    exact ⟨make middle between, splits _ _ _ _ _ begins starts, ih reads also⟩

def together (first : β → Record → Option β) (second : γ → Record → Option γ) (parts : β × γ) (record : Record) :
    Option (β × γ) :=
  (first parts.1 record).bind fun next => (second parts.2 record).map fun last => (next, last)

theorem together_eq_some {first : β → Record → Option β} {second : γ → Record → Option γ} {one next : β}
    {other last : γ} {record : Record} : together first second (one, other) record = some (next, last) ↔
      first one record = some next ∧ second other record = some last := by
  simp [together, Option.bind_eq_some_iff]

theorem foldlM_together {first : β → Record → Option β} {second : γ → Record → Option γ} {records : List Record}
    {one next : β} {other last : γ} (reads : records.foldlM first one = some next)
    (also : records.foldlM second other = some last) :
    records.foldlM (together first second) (one, other) = some (next, last) := by
  refine foldlM_both ?_ reads also
  intro one other record next last begins starts
  exact together_eq_some.mpr ⟨begins, starts⟩

/-- Takes the chunks of one field in, and passes over all other fields. -/
def takeChunk (field : Nat) (take : β → Bytes → Option β) (value : β) : Record → Option β
  | ⟨number, .chunk bytes⟩ => if number = field then take value bytes else some value
  | ⟨number, _⟩ => if number = field then none else some value

theorem takeChunk_of_ne {field : Nat} {take : β → Bytes → Option β} (value : β) (record : Record)
    (other : record.field ≠ field) : takeChunk field take value record = some value := by
  obtain ⟨number, payload⟩ := record
  cases payload <;> simp_all [takeChunk]

theorem foldlM_takeChunk {field : Nat} {spells : β → Bytes → Prop} {values : List β} {records : List Record}
    {take : γ → Bytes → Option γ} (add : γ → β → γ)
    (reads : ∀ value ∈ values, ∀ bytes, spells value bytes → ∀ sum, take sum bytes = some (add sum value))
    (chunks : Chunks field spells values records) (sum : γ) :
    records.foldlM (takeChunk field take) sum = some (values.foldl add sum) := by
  rw [foldlM_ofField takeChunk_of_ne]
  unfold Chunks at chunks
  generalize ofField field records = own at chunks
  induction chunks generalizing sum with
  | nil => rfl
  | @cons value record _ _ chunk _ ih =>
    obtain ⟨bytes, rfl, spelled⟩ := chunk
    have taken : takeChunk field take sum ⟨field, .chunk bytes⟩ = some (add sum value) := by
      simp [takeChunk, reads value List.mem_cons_self bytes spelled]
    rw [List.foldlM_cons, taken]
    exact ih (fun other member => reads other (List.mem_cons_of_mem _ member)) _

def takeEach (field : Nat) (read : Bytes → Option β) : List β → Record → Option (List β) :=
  takeChunk field fun values bytes => (read bytes).map fun value => values ++ [value]

theorem foldlM_takeEach {field : Nat} {spells : β → Bytes → Prop} {values : List β} {records : List Record}
    {read : Bytes → Option β} (reads : ∀ value ∈ values, ∀ bytes, spells value bytes → read bytes = some value)
    (chunks : Chunks field spells values records) : records.foldlM (takeEach field read) [] = some values := by
  have each : ∀ value ∈ values, ∀ bytes, spells value bytes → ∀ before : List β,
      ((read bytes).map fun value => before ++ [value]) = some (before ++ [value]) := by
    intro value member bytes spelled before
    rw [reads value member bytes spelled, Option.map_some]
  rw [takeEach, foldlM_takeChunk (fun before value => before ++ [value]) each chunks]
  rw [List.foldl_append_eq_append, List.nil_append, ← List.flatMap_def, List.flatMap_singleton']

def chunkRecords (field : Nat) (write : β → Bytes) (values : List β) : List Record :=
  values.map fun value => ⟨field, .chunk (write value)⟩

@[simp] theorem ofField_append (field : Nat) (records more : List Record) :
    ofField field (records ++ more) = ofField field records ++ ofField field more := List.filter_append ..

@[simp] theorem ofField_chunkRecords (field number : Nat) (write : β → Bytes) (values : List β) :
    ofField number (chunkRecords field write values) =
      if field = number then chunkRecords field write values else [] := by
  by_cases own : field = number <;> simp [ofField, chunkRecords, List.filter_map, Function.comp_def, own]

theorem chunks_of_eq {field : Nat} {spells : β → Bytes → Prop} (write : β → Bytes) {values : List β}
    {records : List Record} (spelled : ∀ value ∈ values, spells value (write value))
    (same : ofField field records = chunkRecords field write values) : Chunks field spells values records := by
  rw [Chunks, same, chunkRecords, List.forall₂_map_right_iff, List.forall₂_same]
  intro value member
  exact ⟨write value, rfl, spelled value member⟩

theorem length_le_chunks (field : Nat) {write : β → Bytes} {values : List β} {value : β} (member : value ∈ values) :
    (write value).length ≤ (values.flatMap fun value => Record.encodeChunk field (write value)).length := by
  let chunk (value : β) : Bytes := Record.encodeChunk field (write value)
  have here : (write value).length ≤ (chunk value).length := by
    simp only [chunk, Record.encodeChunk, List.length_append]
    omega
  have inside : (chunk value).Sublist (values.map chunk).flatten :=
    List.sublist_flatten_of_mem (List.mem_map_of_mem member)
  rw [List.flatMap_def]
  exact Nat.le_trans here inside.length_le

theorem spells_chunkRecords (depth field : Nat) (write : β → Bytes) (values : List β) (positive : 0 < field)
    (narrow : field * 8 + 2 ≤ Word.most32) (words : ∀ value ∈ values, (write value).length ≤ Word.most) :
    Spells depth (chunkRecords field write values)
      (values.flatMap fun value => Record.encodeChunk field (write value)) := by
  induction values with
  | nil => exact .nil depth
  | cons value rest ih =>
    have first := spells_encodeChunk depth field (write value) positive narrow (words value List.mem_cons_self)
    exact first.append (ih fun other member => words other (List.mem_cons_of_mem _ member))

theorem spells_chunkRecords_of_le (depth field : Nat) (write : β → Bytes) (values : List β) (positive : 0 < field)
    (narrow : field * 8 + 2 ≤ Word.most32)
    (sized : (values.flatMap fun value => Record.encodeChunk field (write value)).length ≤ Word.most) :
    Spells depth (chunkRecords field write values)
      (values.flatMap fun value => Record.encodeChunk field (write value)) :=
  spells_chunkRecords depth field write values positive narrow fun _ member =>
    Nat.le_trans (length_le_chunks field member) sized

end PodBudget.Wire
