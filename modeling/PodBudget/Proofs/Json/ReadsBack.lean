import PodBudget.Json.Codec
import PodBudget.Proofs.Roster

/-!
What is written is read back, codec by codec. A record is read back if each of its fields is: those that are written by
their own codecs, and those that are left out by the values that stand in for them.
-/
namespace PodBudget.Json.Codec

variable {α β γ : Type}

private theorem ok_bind (value : β) (next : β → Except Fault γ) : (Except.ok value >>= next) = next value := rfl

private theorem pure_ok (value : β) : (pure value : Except Fault β) = .ok value := rfl

/-- Every value that fits is read back from what it is written as. -/
def Faithful (codec : Codec α β) (fits : β → Prop) : Prop := ∀ value, fits value → codec.ReadsBack value

@[simp] theorem readsBack_string (text : String) : (string : Codec α String).ReadsBack text := by
  simp [ReadsBack, readValue, string, Draft.ofValue]

@[simp] theorem readsBack_bool (value : Bool) : (bool : Codec α Bool).ReadsBack value := by
  simp [ReadsBack, readValue, bool, Draft.ofValue]

theorem readsBack_integer {least most value : Int} (low : least ≤ value) (high : value ≤ most) :
    (integer least most : Codec α Int).ReadsBack value := by
  simp [ReadsBack, readValue, integer, Draft.ofValue, low, high]

theorem readsBack_natural {most value : Nat} (high : value ≤ most) : (natural most : Codec α Nat).ReadsBack value := by
  simp [ReadsBack, readValue, natural, integer, Draft.ofValue, high, Except.map]

theorem readsBack_number [Number α] {value : α} (finite : Number.isFinite value = true) :
    (number : Codec α α).ReadsBack value := by
  simp [ReadsBack, readValue, number, Draft.ofValue, finite]

theorem read_option {codec : Codec α β} {value : β} (back : codec.ReadsBack value) (shown : codec.write value ≠ .null) :
    codec.option.read (.ofValue (codec.write value)) = .ok (some value) := by
  unfold ReadsBack readValue at back
  cases written : codec.write value <;> simp_all [option, Draft.ofValue, Except.map]

theorem readsBack_option {codec : Codec α β} {value : Option β}
    (back : ∀ inner, value = some inner → codec.ReadsBack inner ∧ codec.write inner ≠ .null) :
    codec.option.ReadsBack value := by
  cases value with
  | none => simp [ReadsBack, readValue, option, Draft.ofValue]
  | some inner => exact read_option (back inner rfl).1 (back inner rfl).2

theorem readsBack_variants {names : List (String × β)} {name : β → String} {value : β}
    (found : names.lookup (name value) = some value) : (variants names name : Codec α β).ReadsBack value := by
  simp [ReadsBack, readValue, variants, variants.find, Draft.ofValue, found]

theorem readsBack_list {codec : Codec α β} {values : List β} (back : ∀ value ∈ values, codec.ReadsBack value) :
    codec.list.ReadsBack values := by
  have items : readItems codec .closed (Draft.ofItems (values.map codec.write)) = .ok values := by
    induction values with
    | nil => rfl
    | cons value rest ih =>
      have first : codec.read (.ofValue (codec.write value)) = .ok value := back value List.mem_cons_self
      have others := ih fun other member => back other (List.mem_cons_of_mem _ member)
      simp only [List.map_cons, Draft.ofItems, readItems, first, others]
      rfl
  simpa [ReadsBack, readValue, list, Draft.ofValue] using items

theorem readMembers_of_ascending {codec : Codec α β} {entries : List (String × β)} {read whole : Roster β}
    (back : ∀ entry ∈ entries, codec.ReadsBack entry.2) (all : whole.entries = read.entries ++ entries) :
    readMembers codec .closed read (Draft.ofMembers (entries.map fun entry => (entry.1, codec.write entry.2))) =
      .ok whole := by
  induction entries generalizing read with
  | nil =>
    have same : whole = read := by
      cases whole
      simp_all
    rw [same]
    rfl
  | cons entry rest ih =>
    obtain ⟨name, value⟩ := entry
    have first : codec.read (.ofValue (codec.write value)) = .ok value := back (name, value) List.mem_cons_self
    have ordered := whole.ascending
    rw [all, List.pairwise_append] at ordered
    have last : (read.insert name value).entries = read.entries ++ [(name, value)] :=
      read.entries_insert_last name value fun entry member => ordered.2.2 entry member (name, value) List.mem_cons_self
    have others : ∀ entry ∈ rest, codec.ReadsBack entry.2 :=
      fun entry member => back entry (List.mem_cons_of_mem _ member)
    have later : whole.entries = (read.insert name value).entries ++ rest := by simp [last, all]
    simp only [List.map_cons, Draft.ofMembers, readMembers, first, ok_bind]
    exact ih others later

theorem readsBack_roster {codec : Codec α β} {values : Roster β}
    (back : ∀ entry ∈ values.entries, codec.ReadsBack entry.2) : codec.roster.ReadsBack values := by
  have all : values.entries = (Roster.empty : Roster β).entries ++ values.entries := rfl
  have members := readMembers_of_ascending back all
  simpa [ReadsBack, readValue, roster, Draft.ofValue] using members

def Field.ReadsBack (field : Field α β) (value : β) : Prop :=
  match field.write value with
  | some written => field.read (.ofValue written) = .ok value
  | none => field.inObject = some value

@[simp] theorem Field.readsBack_required_iff {name : String} {codec : Codec α β} {value : β} :
    (required name codec).ReadsBack value ↔ codec.ReadsBack value := Iff.rfl

@[simp] theorem Field.readsBack_withDefault_iff {name : String} {codec : Codec α β} {usual value : β} :
    (withDefault name codec usual).ReadsBack value ↔ codec.ReadsBack value := Iff.rfl

theorem Field.readsBack_omissible {name : String} {codec : Codec α β} {value : Option β}
    (back : ∀ inner, value = some inner → codec.ReadsBack inner ∧ codec.write inner ≠ .null) :
    (omissible name codec).ReadsBack value := by
  cases value with
  | none => rfl
  | some inner => exact read_option (back inner rfl).1 (back inner rfl).2

theorem Field.readsBack_usual [DecidableEq β] {name : String} {codec : Codec α β} {common value : β}
    (back : codec.ReadsBack value) : (usual name codec common).ReadsBack value := by
  by_cases same : value = common
  · simp [Field.ReadsBack, usual, same]
  · simp only [Field.ReadsBack, usual, same, ↓reduceIte]
    exact back

namespace Fields

def ReadsBack : {types : List Type} → Fields α types → Row types → Prop
  | _, nil, () => True
  | _, cons field others, (value, rest) => field.ReadsBack value ∧ others.ReadsBack rest

theorem name_mem_of_write {types : List Type} {fields : Fields α types} {row : Row types} {member : String × Value α}
    (written : member ∈ fields.write row) : member.1 ∈ fields.names := by
  induction fields with
  | nil =>
    obtain ⟨⟩ := row
    simp [write] at written
  | cons field others ih =>
    obtain ⟨value, rest⟩ := row
    simp only [write, List.mem_append, Option.mem_toList, Option.map_eq_some_iff] at written
    obtain ⟨_, _, rfl⟩ | later := written
    · exact List.mem_cons_self
    · exact List.mem_cons_of_mem _ (ih later)

theorem takeMembers_of_fresh {types : List Type} {field : Field α β} {others : Fields α types} {value : Option β}
    {members : List (String × Value α)} (fresh : ∀ member ∈ members, member.1 ≠ field.name) (rest : Partial types) :
    (cons field others).takeMembers .closed (value, rest) (Draft.ofMembers members) =
      (others.takeMembers .closed rest (Draft.ofMembers members)).map fun read => (value, read) := by
  induction members generalizing rest with
  | nil => rfl
  | cons member later ih =>
    obtain ⟨name, written⟩ := member
    have other : name ≠ field.name := fresh (name, written) List.mem_cons_self
    simp only [Draft.ofMembers, takeMembers, take, other, ↓reduceIte]
    cases others.take name (.ofValue written) rest with
    | error fault => rfl
    | ok next => exact ih (fun member inside => fresh member (List.mem_cons_of_mem _ inside)) next

theorem takeMembers_write {types : List Type} {fields : Fields α types} {row : Row types}
    (distinct : fields.names.Nodup) (back : fields.ReadsBack row) :
    ∃ read, fields.takeMembers .closed fields.none (Draft.ofMembers (fields.write row)) = .ok read ∧
      fields.complete read = .ok row := by
  induction fields with
  | nil => exact ⟨(), rfl, rfl⟩
  | cons field others ih =>
    obtain ⟨value, rest⟩ := row
    obtain ⟨here, later⟩ := back
    obtain ⟨new, distinct⟩ := List.nodup_cons.mp distinct
    obtain ⟨read, taken, whole⟩ := ih distinct later
    have fresh : ∀ member ∈ others.write rest, member.1 ≠ field.name := by
      intro member written same
      exact new (same ▸ name_mem_of_write written)
    unfold Field.ReadsBack at here
    cases written : field.write value with
    | none =>
      simp only [written] at here
      refine ⟨(Option.none, read), ?_, ?_⟩
      · simp only [write, written, Option.map_none, Option.toList_none, List.nil_append]
        exact (takeMembers_of_fresh fresh others.none).trans (congrArg _ taken)
      · simp only [complete, here, Option.orElse_eq_orElse, Option.orElse_none, whole]
        rfl
    | some shown =>
      simp only [written] at here
      refine ⟨(some value, read), ?_, ?_⟩
      · simp only [write, written, Option.map_some, Option.toList_some, List.cons_append, List.nil_append, none,
          Draft.ofMembers, takeMembers, take, here, ↓reduceIte]
        exact (takeMembers_of_fresh fresh others.none).trans (congrArg _ taken)
      · simp only [complete, Option.orElse_eq_orElse, Option.orElse_some, whole]
        rfl

end Fields

theorem readsBack_record {types : List Type} {fields : Fields α types} {toRow : γ → Row types}
    {ofRow : Row types → γ} {value : γ} (distinct : fields.names.Nodup) (back : fields.ReadsBack (toRow value))
    (whole : ofRow (toRow value) = value) : (record fields toRow ofRow).ReadsBack value := by
  obtain ⟨read, taken, complete⟩ := Fields.takeMembers_write distinct back
  simp only [ReadsBack, readValue, record, Draft.ofValue, taken, complete, ok_bind, pure_ok, whole]

end PodBudget.Json.Codec
