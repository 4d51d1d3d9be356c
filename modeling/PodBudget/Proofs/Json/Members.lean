import PodBudget.Json.Codec

/-!
Objects, read member by member. The members may come in any order, and among others of unknown names; what is left out
gets the value that stands in for it. A known member that comes twice is a fault of its type.
-/
namespace PodBudget.Json.Codec

variable {α β γ : Type}

def Once (known : List String) (members : List (String × Value α)) : Prop :=
  ((members.map (·.1)).filter (· ∈ known)).Nodup

theorem Once.new {known : List String} {before after : List (String × Value α)} {name : String} {written : Value α}
    (once : Once known (before ++ (name, written) :: after)) (listed : name ∈ known) :
    name ∉ before.map (·.1) := by
  intro again
  simp only [Once, List.map_append, List.map_cons, List.filter_append, List.nodup_append] at once
  exact once.2.2 name (List.mem_filter.mpr ⟨again, by simpa using listed⟩) name (by simp [listed]) rfl

namespace Field

/-- What has been read of a field, the members read being given. -/
def Told (field : Field α β) (members : List (String × Value α)) : Option β → Prop
  | none => field.name ∉ members.map (·.1)
  | some value => field.name ∈ members.map (·.1) ∧
    ∀ written, (field.name, written) ∈ members → field.read (.ofValue written) = .ok value

/-- The value of a field in an object: what its member says, or what stands in for it. -/
def Holds (field : Field α β) (members : List (String × Value α)) (value : β) : Prop :=
  (∀ written, (field.name, written) ∈ members → field.read (.ofValue written) = .ok value) ∧
    (field.name ∉ members.map (·.1) → field.inObject = some value)

def Heeds (field : Field α β) (written : Value α) : Prop :=
  ∀ fault, field.read (.ofValue written) = .error fault → fault = .mistyped

def Reads (field : Field α β) (written : Value α) : Prop := ∃ value, field.read (.ofValue written) = .ok value

theorem Reads.heeds {field : Field α β} {written : Value α} (reads : field.Reads written) : field.Heeds written := by
  obtain ⟨value, read⟩ := reads
  intro fault failed
  cases read.symm.trans failed

theorem Told.other {field : Field α β} {members : List (String × Value α)} {slot : Option β}
    (told : field.Told members slot) {name : String} (other : name ≠ field.name) (written : Value α) :
    field.Told (members ++ [(name, written)]) slot := by
  cases slot with
  | none => simpa [Told, Ne.symm other] using told
  | some value =>
    refine ⟨by simpa using .inl (by simpa using told.1), fun shown member => told.2 shown ?_⟩
    simpa [Ne.symm other] using member

theorem Told.fill {field : Field α β} {members : List (String × Value α)} (told : field.Told members none)
    {written : Value α} {value : β} (read : field.read (.ofValue written) = .ok value) :
    field.Told (members ++ [(field.name, written)]) (some value) := by
  refine ⟨by simp, fun shown member => ?_⟩
  rcases List.mem_append.mp member with before | here
  · exact absurd (List.mem_map_of_mem before) told
  · cases List.mem_singleton.mp here
    exact read

theorem Told.holds {field : Field α β} {members : List (String × Value α)} {slot : Option β}
    (told : field.Told members slot) {value : β} (whole : (slot <|> field.inObject) = some value) :
    field.Holds members value := by
  cases slot with
  | none => exact ⟨fun written member => absurd (List.mem_map_of_mem member) told, fun _ => whole⟩
  | some read =>
    obtain rfl : read = value := Option.some.inj whole
    exact ⟨told.2, fun absent => absurd told.1 absent⟩

end Field

namespace Fields

def All (property : {β : Type} → Field α β → Prop) : {types : List Type} → Fields α types → Prop
  | _, nil => True
  | _, cons field others => property field ∧ others.All property

def Told (members : List (String × Value α)) : {types : List Type} → Fields α types → Partial types → Prop
  | _, nil, () => True
  | _, cons field others, (slot, rest) => field.Told members slot ∧ others.Told members rest

def Holds (members : List (String × Value α)) : {types : List Type} → Fields α types → Row types → Prop
  | _, nil, () => True
  | _, cons field others, (value, rest) => field.Holds members value ∧ others.Holds members rest

/-- The field of the name, if there is one, heeds or reads the value. -/
def Heeds {types : List Type} (fields : Fields α types) (member : String × Value α) : Prop :=
  fields.All fun field => member.1 = field.name → field.Heeds member.2

def Reads {types : List Type} (fields : Fields α types) (member : String × Value α) : Prop :=
  fields.All fun field => member.1 = field.name → field.Reads member.2

variable {types : List Type} {fields : Fields α types}

theorem All.mono {one other : {β : Type} → Field α β → Prop} (all : fields.All one)
    (implies : ∀ {β : Type} (field : Field α β), one field → other field) : fields.All other := by
  induction fields with
  | nil => trivial
  | cons field others ih => exact ⟨implies field all.1, ih all.2⟩

theorem Reads.heeds {member : String × Value α} (reads : fields.Reads member) : fields.Heeds member :=
  reads.mono fun _ read same => (read same).heeds

theorem told_none : fields.Told [] fields.none := by
  induction fields with
  | nil => trivial
  | cons field others ih => exact ⟨List.not_mem_nil, ih⟩

theorem Told.other {members : List (String × Value α)} {values : Partial types} (told : fields.Told members values)
    {name : String} (unknown : name ∉ fields.names) (written : Value α) :
    fields.Told (members ++ [(name, written)]) values := by
  induction fields with
  | nil => trivial
  | cons field others ih =>
    obtain ⟨other, unknown⟩ := List.ne_and_not_mem_of_not_mem_cons unknown
    exact ⟨told.1.other other written, ih told.2 unknown⟩

theorem take_first {field : Field α β} {others : Fields α types} (draft : Draft α) (rest : Partial types) :
    (cons field others).take field.name draft (Option.none, rest) =
      (field.read draft).map fun value => (some value, rest) := by
  simp only [take, ↓reduceIte]
  rfl

theorem take_full {field : Field α β} {others : Fields α types} (draft : Draft α) (value : β) (rest : Partial types) :
    (cons field others).take field.name draft (some value, rest) = .error .mistyped := by
  simp only [take, ↓reduceIte]

theorem take_later {field : Field α β} {others : Fields α types} {name : String} (other : name ≠ field.name)
    (draft : Draft α) (slot : Option β) (rest : Partial types) :
    (cons field others).take name draft (slot, rest) =
      (others.take name draft rest).map fun after => (slot, after) := by
  simp only [take, other, ↓reduceIte]
  rfl

section

variable {members : List (String × Value α)} {values : Partial types} {name : String} {written : Value α}

theorem Told.take (distinct : fields.names.Nodup) (told : fields.Told members values) {next : Partial types}
    (taken : fields.take name (.ofValue written) values = .ok next) :
    fields.Told (members ++ [(name, written)]) next := by
  induction fields with
  | nil => trivial
  | cons field others ih =>
    obtain ⟨slot, rest⟩ := values
    obtain ⟨here, later⟩ := told
    obtain ⟨new, distinct⟩ := List.nodup_cons.mp distinct
    by_cases same : name = field.name
    · subst same
      cases slot with
      | some value => cases (take_full _ value rest).symm.trans taken
      | none =>
        rw [take_first] at taken
        cases read : field.read (.ofValue written) with
        | error fault => simp [read, Except.map] at taken
        | ok value =>
          rw [read] at taken
          cases taken
          exact ⟨here.fill read, later.other new written⟩
    · rw [take_later same] at taken
      cases done : others.take name (.ofValue written) rest with
      | error fault => simp [done, Except.map] at taken
      | ok after =>
        rw [done] at taken
        cases taken
        exact ⟨here.other same written, ih distinct later done⟩

theorem Told.take_again (told : fields.Told members values) (known : name ∈ fields.names)
    (again : name ∈ members.map (·.1)) (draft : Draft α) : fields.take name draft values = .error .mistyped := by
  induction fields with
  | nil => cases known
  | cons field others ih =>
    obtain ⟨slot, rest⟩ := values
    by_cases same : name = field.name
    · subst same
      cases slot with
      | none => exact absurd again told.1
      | some value => exact take_full draft value rest
    · have later : name ∈ others.names := by simpa [names, same] using known
      rw [take_later same, ih told.2 later]
      rfl

theorem Told.take_new (told : fields.Told members values) (new : name ∈ fields.names → name ∉ members.map (·.1))
    (reads : fields.Reads (name, written)) : ∃ next, fields.take name (.ofValue written) values = .ok next := by
  induction fields with
  | nil => exact ⟨(), Draft.pass_ofValue written⟩
  | cons field others ih =>
    obtain ⟨slot, rest⟩ := values
    by_cases same : name = field.name
    · obtain ⟨value, read⟩ := reads.1 same
      subst same
      cases slot with
      | some old => exact absurd told.1.1 (new List.mem_cons_self)
      | none =>
        refine ⟨(some value, rest), ?_⟩
        rw [take_first, read]
        rfl
    · obtain ⟨after, taken⟩ := ih told.2 (fun known => new (List.mem_cons_of_mem _ known)) reads.2
      refine ⟨(slot, after), ?_⟩
      rw [take_later same, taken]
      rfl

theorem fault_of_take (heeds : fields.Heeds (name, written)) {fault : Fault}
    (failed : fields.take name (.ofValue written) values = .error fault) : fault = .mistyped := by
  induction fields with
  | nil => cases (Draft.pass_ofValue written).symm.trans failed
  | cons field others ih =>
    obtain ⟨slot, rest⟩ := values
    by_cases same : name = field.name
    · have heed := heeds.1 same
      subst same
      cases slot with
      | some old => exact (Except.error.inj ((take_full _ old rest).symm.trans failed)).symm
      | none =>
        rw [take_first] at failed
        cases read : field.read (.ofValue written) with
        | error other =>
          rw [read] at failed
          cases failed
          exact heed _ read
        | ok value => simp [read, Except.map] at failed
    · rw [take_later same] at failed
      cases taken : others.take name (.ofValue written) rest with
      | error other =>
        rw [taken] at failed
        cases failed
        exact ih heeds.2 taken
      | ok after => simp [taken, Except.map] at failed

theorem take_refused (known : name ∈ fields.names)
    (refused : fields.All fun field => name = field.name → field.read (.ofValue written) = .error .mistyped) :
    fields.take name (.ofValue written) values = .error .mistyped := by
  induction fields with
  | nil => cases known
  | cons field others ih =>
    obtain ⟨slot, rest⟩ := values
    by_cases same : name = field.name
    · have here := refused.1 same
      subst same
      cases slot with
      | some value => exact take_full _ value rest
      | none =>
        rw [take_first, here]
        rfl
    · have later : name ∈ others.names := by simpa [names, same] using known
      rw [take_later same, ih later refused.2]
      rfl

end

theorem takeMembers_append (ending : Ending) (values : Partial types) (before after : List (Label × Draft α)) :
    fields.takeMembers ending values (before ++ after) =
      (fields.takeMembers .closed values before).bind fun next => fields.takeMembers ending next after := by
  induction before generalizing values with
  | nil => rfl
  | cons member rest ih =>
    obtain ⟨label, draft⟩ := member
    cases label with
    | flaw fault => rfl
    | name name =>
      simp only [List.cons_append, takeMembers]
      cases fields.take name draft values with
      | error fault => rfl
      | ok next => exact ih next

section

variable {done members : List (String × Value α)} {values : Partial types}

theorem Told.takeMembers (distinct : fields.names.Nodup) (told : fields.Told done values) {next : Partial types}
    (taken : fields.takeMembers .closed values (Draft.ofMembers members) = .ok next) :
    fields.Told (done ++ members) next := by
  induction members generalizing done values with
  | nil =>
    cases taken
    simpa using told
  | cons member rest ih =>
    obtain ⟨name, written⟩ := member
    simp only [Draft.ofMembers, Fields.takeMembers] at taken
    cases first : fields.take name (.ofValue written) values with
    | error fault =>
      rw [first] at taken
      cases taken
    | ok after =>
      rw [first] at taken
      simpa using ih (told.take distinct first) taken

theorem Told.takeMembers_once (distinct : fields.names.Nodup) (told : fields.Told done values)
    (reads : ∀ member ∈ members, fields.Reads member) (once : Once fields.names (done ++ members)) :
    ∃ next, fields.takeMembers .closed values (Draft.ofMembers members) = .ok next := by
  induction members generalizing done values with
  | nil => exact ⟨values, rfl⟩
  | cons member rest ih =>
    obtain ⟨name, written⟩ := member
    obtain ⟨after, first⟩ := told.take_new once.new (reads _ List.mem_cons_self)
    have later : Once fields.names ((done ++ [(name, written)]) ++ rest) := by simpa using once
    obtain ⟨next, taken⟩ :=
      ih (told.take distinct first) (fun other member => reads other (List.mem_cons_of_mem _ member)) later
    refine ⟨next, ?_⟩
    simp only [Draft.ofMembers, Fields.takeMembers, first]
    exact taken

theorem fault_of_takeMembers (heeds : ∀ member ∈ members, fields.Heeds member) {fault : Fault}
    (failed : fields.takeMembers .closed values (Draft.ofMembers members) = .error fault) : fault = .mistyped := by
  induction members generalizing values with
  | nil => cases failed
  | cons member rest ih =>
    obtain ⟨name, written⟩ := member
    simp only [Draft.ofMembers, takeMembers] at failed
    cases first : fields.take name (.ofValue written) values with
    | error other =>
      rw [first] at failed
      cases failed
      exact fault_of_take (heeds _ List.mem_cons_self) first
    | ok after =>
      rw [first] at failed
      exact ih (fun other member => heeds other (List.mem_cons_of_mem _ member)) failed

theorem takeMembers_stop (distinct : fields.names.Nodup) {before after : List (String × Value α)} {name : String}
    {written : Value α} (heeds : ∀ member ∈ before, fields.Heeds member)
    (refused : ∀ next, fields.Told before next → fields.take name (.ofValue written) next = .error .mistyped) :
    fields.takeMembers .closed fields.none (Draft.ofMembers (before ++ (name, written) :: after)) =
      .error .mistyped := by
  have parts : Draft.ofMembers (before ++ (name, written) :: after) =
      Draft.ofMembers before ++ (.name name, .ofValue written) :: Draft.ofMembers after := by
    simp [Draft.ofMembers_eq_map]
  rw [parts, takeMembers_append]
  cases taken : fields.takeMembers .closed fields.none (Draft.ofMembers before) with
  | error fault =>
    rw [fault_of_takeMembers heeds taken]
    rfl
  | ok next =>
    have told : fields.Told before next := told_none.takeMembers distinct taken
    simp only [Except.bind, takeMembers, refused next told]
    rfl

theorem Told.complete (told : fields.Told members values)
    (optional : fields.All fun field => field.inObject ≠ Option.none) :
    ∃ row, fields.complete values = .ok row ∧ fields.Holds members row := by
  induction fields with
  | nil => exact ⟨(), rfl, trivial⟩
  | cons field others ih =>
    obtain ⟨slot, rest⟩ := values
    obtain ⟨row, whole, holds⟩ := ih told.2 optional.2
    obtain ⟨usual, known⟩ := Option.ne_none_iff_exists'.mp optional.1
    obtain ⟨value, filled⟩ : ∃ value, (slot <|> field.inObject) = some value := by
      cases slot with
      | none => exact ⟨usual, known⟩
      | some value => exact ⟨value, rfl⟩
    refine ⟨(value, row), ?_, told.1.holds filled, holds⟩
    simp only [Fields.complete, filled, whole]
    rfl

theorem fault_of_complete {fault : Fault} (failed : fields.complete values = .error fault) : fault = .mistyped := by
  induction fields with
  | nil => cases failed
  | cons field others ih =>
    obtain ⟨slot, rest⟩ := values
    simp only [Fields.complete] at failed
    cases filled : (slot <|> field.inObject) with
    | none =>
      rw [filled] at failed
      cases failed
      rfl
    | some value =>
      cases whole : others.complete rest with
      | error other =>
        rw [filled, whole] at failed
        cases failed
        exact ih whole
      | ok row =>
        rw [filled, whole] at failed
        cases failed

end

end Fields

section

variable {types : List Type} {fields : Fields α types} {toRow : β → Row types} {ofRow : Row types → β}

theorem readValue_record (members : List (String × Value α)) :
    (record fields toRow ofRow).readValue (.object members) =
      (fields.takeMembers .closed fields.none (Draft.ofMembers members)).bind fun values =>
        (fields.complete values).map ofRow := rfl

/-- An object is read, in whatever order its members are, and what it leaves out is filled. -/
theorem record_of_members (distinct : fields.names.Nodup)
    (optional : fields.All fun field => field.inObject ≠ none) {members : List (String × Value α)}
    (reads : ∀ member ∈ members, fields.Reads member) (once : Once fields.names members) :
    ∃ row, (record fields toRow ofRow).readValue (.object members) = .ok (ofRow row) ∧ fields.Holds members row := by
  obtain ⟨values, taken⟩ := Fields.told_none.takeMembers_once distinct reads once
  have told : fields.Told members values := Fields.told_none.takeMembers distinct taken
  obtain ⟨row, whole, holds⟩ := told.complete optional
  refine ⟨row, ?_, holds⟩
  rw [readValue_record, taken]
  simp only [Except.bind, whole]
  rfl

theorem fault_of_record {members : List (String × Value α)} (heeds : ∀ member ∈ members, fields.Heeds member)
    {fault : Fault} (failed : (record fields toRow ofRow).readValue (.object members) = .error fault) :
    fault = .mistyped := by
  rw [readValue_record] at failed
  cases taken : fields.takeMembers .closed fields.none (Draft.ofMembers members) with
  | error other =>
    rw [taken] at failed
    cases failed
    exact Fields.fault_of_takeMembers heeds taken
  | ok values =>
    cases whole : fields.complete values with
    | error other =>
      simp only [taken, Except.bind, whole] at failed
      cases failed
      exact Fields.fault_of_complete whole
    | ok row =>
      simp only [taken, Except.bind, whole] at failed
      cases failed

variable {before after : List (String × Value α)} {name : String} {written : Value α}

theorem record_repeated (distinct : fields.names.Nodup) (heeds : ∀ member ∈ before, fields.Heeds member)
    (known : name ∈ fields.names) (again : name ∈ before.map (·.1)) :
    (record fields toRow ofRow).readValue (.object (before ++ (name, written) :: after)) = .error .mistyped := by
  rw [readValue_record,
    Fields.takeMembers_stop distinct heeds fun next told => told.take_again known again (.ofValue written)]
  rfl

theorem record_refused (distinct : fields.names.Nodup) (heeds : ∀ member ∈ before, fields.Heeds member)
    (known : name ∈ fields.names)
    (refused : fields.All fun field => name = field.name → field.read (.ofValue written) = .error .mistyped) :
    (record fields toRow ofRow).readValue (.object (before ++ (name, written) :: after)) = .error .mistyped := by
  rw [readValue_record, Fields.takeMembers_stop distinct heeds fun next _ => Fields.take_refused known refused]
  rfl

end

end PodBudget.Json.Codec
