import PodBudget.Discovery.Message
import PodBudget.Proofs.Wire.Fields

/-!
Listings that are written and read back. A listing is read from every message that spells it: with the records of
different fields in any order, with records of unknown fields among them, and with the numbers of processors in chunks
or one by one. What a listing is written as is one such message.
-/
namespace PodBudget.Discovery

open Wire

def SpellsText (text : String) (bytes : Bytes) : Prop := bytes = textBytes text

def present (text : String) : List String := if text = "" then [] else [text]

private theorem toList_loop (bytes : ByteArray) (i : Nat) (read : Bytes) :
    ByteArray.toList.loop bytes i read = read.reverse ++ bytes.data.toList.drop i := by
  fun_induction ByteArray.toList.loop bytes i read with
  | case1 i read inside ih =>
    have inside : i < bytes.data.toList.length := inside
    have here : bytes.get! i = bytes.data.toList[i] := by simp_all [ByteArray.get!]
    rw [ih, List.drop_eq_getElem_cons inside, here]
    simp
  | case2 i read outside =>
    have past : bytes.data.toList.length ≤ i := Nat.le_of_not_lt outside
    simp [List.drop_eq_nil_of_le past]

theorem text?_textBytes (text : String) : text? (textBytes text) = some text := by
  have bytes : (⟨(textBytes text).toArray⟩ : ByteArray) = text.toUTF8 := by
    simp [textBytes, ByteArray.toList, toList_loop]
  rw [text?, bytes]
  simp only [String.fromUTF8?, String.toUTF8_eq_toByteArray, dif_pos text.isValidUTF8]
  rfl

def takeText (field : Nat) : String → Record → Option String := takeChunk field fun _ bytes => text? bytes

theorem foldlM_takeText {field : Nat} {text : String} {records : List Record}
    (chunks : Chunks field SpellsText (present text) records) : records.foldlM (takeText field) "" = some text := by
  have reads : ∀ value ∈ present text, ∀ bytes, SpellsText value bytes → ∀ _ : String, text? bytes = some value := by
    intro value _ bytes spelled _
    rw [spelled, text?_textBytes]
  rw [takeText, foldlM_takeChunk (fun _ value => value) reads chunks]
  unfold present
  split <;> simp_all

theorem foldlM_takeTexts {field : Nat} {texts : List String} {records : List Record}
    (chunks : Chunks field SpellsText texts records) : records.foldlM (takeEach field text?) [] = some texts := by
  refine foldlM_takeEach ?_ chunks
  intro text _ bytes spelled
  rw [spelled, text?_textBytes]

theorem encodeText_eq (field : Nat) (text : String) :
    encodeText field text = (present text).flatMap fun text => Record.encodeChunk field (textBytes text) := by
  unfold encodeText present
  split <;> simp

/-- What spells a message, with groups nested at most `depth` deep in it. -/
def Devices.Spells (depth : Nat) (devices : Devices) (bytes : Bytes) : Prop :=
  ∃ records, Wire.Spells depth records bytes ∧ Chunks 1 SpellsText (present devices.resource) records ∧
    Chunks 2 SpellsText devices.ids records

theorem Devices.take_of_parts (resource : String) (ids : List String) (record : Record) (next : String)
    (last : List String) (reads : takeText 1 resource record = some next)
    (also : takeEach 2 text? ids record = some last) : Devices.take ⟨resource, ids⟩ record = some ⟨next, last⟩ := by
  fun_cases Devices.take ⟨resource, ids⟩ record
  case case5 first second =>
    rw [takeText, takeChunk_of_ne _ _ (field_ne_of_forall first)] at reads
    rw [takeEach, takeChunk_of_ne _ _ (field_ne_of_forall second)] at also
    simp_all
  all_goals simp_all [takeText, takeEach, takeChunk]

theorem Devices.decode_of_spells {depth limit : Nat} {devices : Devices} {bytes : Bytes}
    (spells : devices.Spells depth bytes) (shallow : depth < limit) : Devices.decode limit bytes = some devices := by
  obtain ⟨records, spelled, resource, ids⟩ := spells
  rw [Devices.decode, spelled.decodeAll shallow]
  exact foldlM_both Devices.take_of_parts (foldlM_takeText resource) (foldlM_takeTexts ids)

def SpellNumbers (numbers : List Int) (parts : List Bytes) : Prop :=
  List.Forall₂ (fun number part => Varint.Spells (ofSigned number) part) numbers parts

/-- Numbers are written one by one, or some of them as one chunk. -/
inductive Tallied (field : Nat) : List Int → List Record → Prop
  | nil : Tallied field [] []
  | single {number : Int} {numbers : List Int} {records : List Record} (later : Tallied field numbers records) :
    Tallied field (number :: numbers) (⟨field, .varint (ofSigned number)⟩ :: records)
  | packed {first numbers : List Int} {parts : List Bytes} {records : List Record} (spelled : SpellNumbers first parts)
      (later : Tallied field numbers records) :
    Tallied field (first ++ numbers) (⟨field, .chunk parts.flatten⟩ :: records)

def SignedWords (numbers : List Int) : Prop :=
  ∀ number ∈ numbers, Word.leastSigned ≤ number ∧ number ≤ Word.mostSigned

theorem decodePacked_of_spells {numbers : List Int} {parts : List Bytes} (spelled : SpellNumbers numbers parts) :
    decodePacked parts.flatten = some (numbers.map ofSigned) := by
  induction spelled with
  | nil =>
    rw [List.flatten_nil, decodePacked]
    simp
  | @cons number part _ parts first _ ih =>
    have read := first.decode parts.flatten
    have filled : part ++ parts.flatten ≠ [] := by
      intro empty
      simp [empty, Varint.decode, Varint.decodeWithin, Varint.maxPlaces] at read
    rw [List.flatten_cons, decodePacked, if_neg filled]
    split <;> simp_all

theorem map_toSigned {numbers : List Int} (signed : SignedWords numbers) :
    (numbers.map ofSigned).map toSigned = numbers := by
  rw [List.map_map]
  refine (List.map_congr_left ?_).trans (List.map_id numbers)
  intro number member
  exact toSigned_ofSigned (signed number member).1 (signed number member).2

def takeNumbers (field : Nat) (numbers : List Int) : Record → Option (List Int)
  | ⟨number, .chunk bytes⟩ =>
    if number = field then (decodePacked bytes).map fun values => numbers ++ values.map toSigned else some numbers
  | ⟨number, .varint value⟩ => if number = field then some (numbers ++ [toSigned value]) else some numbers
  | ⟨number, _⟩ => if number = field then none else some numbers

theorem takeNumbers_of_ne {field : Nat} (numbers : List Int) (record : Record) (other : record.field ≠ field) :
    takeNumbers field numbers record = some numbers := by
  obtain ⟨number, payload⟩ := record
  cases payload <;> simp_all [takeNumbers]

theorem foldlM_takeNumbers {field : Nat} {numbers : List Int} {records : List Record} (signed : SignedWords numbers)
    (tallied : Tallied field numbers (ofField field records)) (before : List Int) :
    records.foldlM (takeNumbers field) before = some (before ++ numbers) := by
  rw [foldlM_ofField takeNumbers_of_ne]
  generalize ofField field records = own at tallied
  induction tallied generalizing before with
  | nil => simp
  | single _ ih =>
    simp only [SignedWords, List.forall_mem_cons] at signed
    simp [takeNumbers, toSigned_ofSigned signed.1.1 signed.1.2, ih signed.2]
  | packed spelled _ ih =>
    simp only [SignedWords, List.forall_mem_append] at signed
    simp [takeNumbers, decodePacked_of_spells spelled, - List.map_map, map_toSigned signed.1, ih signed.2]

def Container.Spells (depth : Nat) (container : Container) (bytes : Bytes) : Prop :=
  ∃ records, Wire.Spells depth records bytes ∧ Chunks 1 SpellsText (present container.name) records ∧
    Chunks 2 (Devices.Spells depth) container.devices records ∧ Tallied 3 container.cpuIds (ofField 3 records)

theorem Container.take_of_parts {limit : Nat} (name : String) (parts : List Devices × List Int) (record : Record)
    (next : String) (last : List Devices × List Int) (reads : takeText 1 name record = some next)
    (also : together (takeEach 2 (Devices.decode (limit - 1))) (takeNumbers 3) parts record = some last) :
    Container.take limit ⟨name, parts.1, parts.2⟩ record = some ⟨next, last.1, last.2⟩ := by
  obtain ⟨devices, numbers⟩ := together_eq_some.mp also
  fun_cases Container.take limit ⟨name, parts.1, parts.2⟩ record
  case case8 first second third =>
    rw [takeText, takeChunk_of_ne _ _ (field_ne_of_forall first)] at reads
    rw [takeEach, takeChunk_of_ne _ _ (field_ne_of_forall second)] at devices
    rw [takeNumbers_of_ne _ _ (field_ne_of_forall third)] at numbers
    simp_all
  all_goals simp_all [takeText, takeEach, takeChunk, takeNumbers]

theorem Container.decode_of_spells {depth limit : Nat} {container : Container} {bytes : Bytes}
    (signed : SignedWords container.cpuIds) (spells : container.Spells depth bytes) (shallow : depth + 1 < limit) :
    Container.decode limit bytes = some container := by
  obtain ⟨records, spelled, name, devices, cpuIds⟩ := spells
  have inside : records.foldlM (takeEach 2 (Devices.decode (limit - 1))) [] = some container.devices :=
    foldlM_takeEach (fun _ _ _ spelled => Devices.decode_of_spells spelled (by omega)) devices
  have numbers := foldlM_takeNumbers signed cpuIds []
  rw [Container.decode, spelled.decodeAll (by omega)]
  exact foldlM_both Container.take_of_parts (foldlM_takeText name) (foldlM_together inside numbers)

def ListedPod.Spells (depth : Nat) (pod : ListedPod) (bytes : Bytes) : Prop :=
  ∃ records, Wire.Spells depth records bytes ∧ Chunks 1 SpellsText (present pod.name) records ∧
    Chunks 2 SpellsText (present pod.domain) records ∧ Chunks 3 (Container.Spells depth) pod.containers records

def ListedPod.Signed (pod : ListedPod) : Prop := ∀ container ∈ pod.containers, SignedWords container.cpuIds

theorem ListedPod.take_of_parts {limit : Nat} (name : String) (parts : String × List Container) (record : Record)
    (next : String) (last : String × List Container) (reads : takeText 1 name record = some next)
    (also : together (takeText 2) (takeEach 3 (Container.decode (limit - 1))) parts record = some last) :
    ListedPod.take limit ⟨name, parts.1, parts.2⟩ record = some ⟨next, last.1, last.2⟩ := by
  obtain ⟨domain, containers⟩ := together_eq_some.mp also
  fun_cases ListedPod.take limit ⟨name, parts.1, parts.2⟩ record
  case case7 first second third =>
    rw [takeText, takeChunk_of_ne _ _ (field_ne_of_forall first)] at reads
    rw [takeText, takeChunk_of_ne _ _ (field_ne_of_forall second)] at domain
    rw [takeEach, takeChunk_of_ne _ _ (field_ne_of_forall third)] at containers
    simp_all
  all_goals simp_all [takeText, takeEach, takeChunk]

theorem ListedPod.decode_of_spells {depth limit : Nat} {pod : ListedPod} {bytes : Bytes} (signed : pod.Signed)
    (spells : pod.Spells depth bytes) (shallow : depth + 2 < limit) : ListedPod.decode limit bytes = some pod := by
  obtain ⟨records, spelled, name, domain, containers⟩ := spells
  have inside : records.foldlM (takeEach 3 (Container.decode (limit - 1))) [] = some pod.containers := by
    refine foldlM_takeEach ?_ containers
    intro container member bytes spelled
    exact Container.decode_of_spells (signed container member) spelled (by omega)
  rw [ListedPod.decode, spelled.decodeAll (by omega)]
  exact foldlM_both ListedPod.take_of_parts (foldlM_takeText name) (foldlM_together (foldlM_takeText domain) inside)

/-- What spells a listing, with groups nested at most `depth` deep at every level. -/
def Listing.Spells (depth : Nat) (listing : Listing) (bytes : Bytes) : Prop :=
  ∃ records, Wire.Spells depth records bytes ∧ Chunks 1 (ListedPod.Spells depth) listing records

def Listing.Signed (listing : Listing) : Prop := ∀ pod ∈ listing, pod.Signed

theorem Listing.take_eq (limit : Nat) : Listing.take limit = takeEach 1 (ListedPod.decode (limit - 1)) := by
  funext listing record
  fun_cases Listing.take limit listing record
  case case3 other => rw [takeEach, takeChunk_of_ne _ _ (field_ne_of_forall other)]
  all_goals simp_all [takeEach, takeChunk]

theorem Listing.decode_of_spells {depth : Nat} {listing : Listing} {bytes : Bytes} (signed : listing.Signed)
    (spells : listing.Spells depth bytes) (shallow : depth + 3 < maxNesting) : Listing.decode bytes = some listing := by
  obtain ⟨records, spelled, pods⟩ := spells
  rw [Listing.decode, spelled.decodeAll (by omega), Listing.take_eq]
  refine foldlM_takeEach ?_ pods
  intro pod member bytes spelled
  exact ListedPod.decode_of_spells (signed pod member) spelled (by omega)

theorem Devices.spells_encode {devices : Devices} (depth : Nat) (sized : devices.encode.length ≤ Word.most) :
    devices.Spells depth devices.encode := by
  simp only [Devices.encode, encodeText_eq, List.length_append] at sized ⊢
  have resource := spells_chunkRecords_of_le depth 1 textBytes (present devices.resource) (by decide) (by decide)
    (by omega)
  have ids := spells_chunkRecords_of_le depth 2 textBytes devices.ids (by decide) (by decide) (by omega)
  refine ⟨_, resource.append ids, chunks_of_eq textBytes ?_ ?_, chunks_of_eq textBytes ?_ ?_⟩
  all_goals simp [SpellsText]

def packings (numbers : List Int) : List (List Int) := if numbers = [] then [] else [numbers]

def numberBytes (numbers : List Int) : Bytes := numbers.flatMap fun number => Varint.encode (ofSigned number)

theorem tallied_packings (field : Nat) (numbers : List Int) :
    Tallied field numbers (chunkRecords field numberBytes (packings numbers)) := by
  by_cases none : numbers = []
  · subst none
    exact .nil
  · have spelled : SpellNumbers numbers (numbers.map fun number => Varint.encode (ofSigned number)) := by
      rw [SpellNumbers, List.forall₂_map_right_iff, List.forall₂_same]
      intro number member
      exact Varint.spells_encode (by unfold ofSigned Word.most; omega)
    have packed : Tallied field _ _ := .packed spelled .nil
    simpa [packings, none, chunkRecords, numberBytes, List.flatMap_def] using packed

theorem Container.encode_eq (container : Container) : container.encode =
    ((present container.name).flatMap fun text => Record.encodeChunk 1 (textBytes text)) ++
      ((container.devices.flatMap fun devices => Record.encodeChunk 2 devices.encode) ++
        (packings container.cpuIds).flatMap fun numbers => Record.encodeChunk 3 (numberBytes numbers)) := by
  rw [Container.encode, encodeText_eq, List.append_assoc]
  unfold packings
  split <;> simp [numberBytes]

theorem Container.spells_encode {container : Container} (depth : Nat) (sized : container.encode.length ≤ Word.most) :
    container.Spells depth container.encode := by
  rw [Container.encode_eq] at sized ⊢
  simp only [List.length_append] at sized
  have name := spells_chunkRecords_of_le depth 1 textBytes (present container.name) (by decide) (by decide) (by omega)
  have devices := spells_chunkRecords_of_le depth 2 Devices.encode container.devices (by decide) (by decide) (by omega)
  have cpuIds := spells_chunkRecords_of_le depth 3 numberBytes (packings container.cpuIds) (by decide) (by decide)
    (by omega)
  refine ⟨_, name.append (devices.append cpuIds), chunks_of_eq textBytes ?_ ?_, chunks_of_eq Devices.encode ?_ ?_, ?_⟩
  · simp [SpellsText]
  · simp
  · intro devices member
    exact Devices.spells_encode depth (Nat.le_trans (length_le_chunks 2 member) (by omega))
  · simp
  · simpa using tallied_packings 3 container.cpuIds

theorem ListedPod.spells_encode {pod : ListedPod} (depth : Nat) (sized : pod.encode.length ≤ Word.most) :
    pod.Spells depth pod.encode := by
  simp only [ListedPod.encode, encodeText_eq, List.length_append, List.append_assoc] at sized ⊢
  have name := spells_chunkRecords_of_le depth 1 textBytes (present pod.name) (by decide) (by decide) (by omega)
  have domain := spells_chunkRecords_of_le depth 2 textBytes (present pod.domain) (by decide) (by decide) (by omega)
  have containers := spells_chunkRecords_of_le depth 3 Container.encode pod.containers (by decide) (by decide)
    (by omega)
  refine ⟨_, name.append (domain.append containers), chunks_of_eq textBytes ?_ ?_, chunks_of_eq textBytes ?_ ?_,
    chunks_of_eq Container.encode ?_ ?_⟩
  · simp [SpellsText]
  · simp
  · simp [SpellsText]
  · simp
  · intro container member
    exact Container.spells_encode depth (Nat.le_trans (length_le_chunks 3 member) (by omega))
  · simp

/-- Lengths are words of 64 bits, so no pod may take up more bytes. -/
def Listing.Sized (listing : Listing) : Prop := ∀ pod ∈ listing, pod.encode.length ≤ Word.most

theorem Listing.spells_encode {listing : Listing} (depth : Nat) (sized : listing.Sized) :
    listing.Spells depth listing.encode := by
  have pods := spells_chunkRecords depth 1 ListedPod.encode listing (by decide) (by decide) sized
  refine ⟨_, pods, chunks_of_eq ListedPod.encode ?_ (by simp)⟩
  intro pod member
  exact ListedPod.spells_encode depth (sized pod member)

theorem Listing.encode_append (listing later : Listing) :
    Listing.encode (listing ++ later) = listing.encode ++ later.encode := by
  simp [Listing.encode]

/-- What is written is read back. -/
theorem Listing.restored_of_encode {listing : Listing} (signed : listing.Signed) (sized : listing.Sized) :
    Listing.decode listing.encode = some listing :=
  Listing.decode_of_spells signed (Listing.spells_encode 0 sized) (by decide)

theorem Listing.restored_of_encode_negative :
    Listing.decode (Listing.encode [⟨"", "", [⟨"", [⟨"", [""]⟩], [-1, 300]⟩, ⟨"", [], []⟩]⟩]) =
      some [⟨"", "", [⟨"", [⟨"", [""]⟩], [-1, 300]⟩, ⟨"", [], []⟩]⟩] := by
  refine Listing.restored_of_encode ?_ ?_
  · simp [Listing.Signed, ListedPod.Signed, SignedWords, Word.leastSigned, Word.mostSigned]
  · unfold Listing.Sized
    decide +kernel

/-- Every spelling of a listing is read as the listing. What is written is one, and listings that are written one after
the other are read as one. -/
theorem Listing.restored_of_spells {depth : Nat} {listing : Listing} (signed : listing.Signed)
    (shallow : depth + 3 < maxNesting) :
    (∀ bytes, listing.Spells depth bytes → Listing.decode bytes = some listing) ∧
      (listing.Sized → listing.Spells depth listing.encode ∧
        ∀ later : Listing, later.Signed → later.Sized →
          Listing.decode (listing.encode ++ later.encode) = some (listing ++ later)) := by
  constructor
  · intro bytes spells
    exact Listing.decode_of_spells signed spells shallow
  intro sized
  refine ⟨Listing.spells_encode depth sized, ?_⟩
  intro later laterSigned laterSized
  have bothSigned : Listing.Signed (listing ++ later) := List.forall_mem_append.mpr ⟨signed, laterSigned⟩
  have bothSized : Listing.Sized (listing ++ later) := List.forall_mem_append.mpr ⟨sized, laterSized⟩
  rw [← Listing.encode_append]
  exact Listing.decode_of_spells bothSigned (Listing.spells_encode depth bothSized) shallow

/-- A container behind a group of an unknown field, with one number by itself and, behind the name, one in a chunk. -/
private def foreignBytes : Bytes :=
  (Key.encode ⟨7, .groupStart⟩ ++ Key.encode ⟨7, .groupEnd⟩) ++
    ((Key.encode ⟨3, .varint⟩ ++ Varint.encode (ofSigned (-1))) ++
    (Record.encodeChunk 1 (textBytes "a") ++ Record.encodeChunk 3 (numberBytes [300])))

private theorem spells_foreignBytes : Container.Spells 1 ⟨"a", [], [-1, 300]⟩ foreignBytes := by
  have unknown : Wire.Spells 1 [⟨7, .group⟩] (Key.encode ⟨7, .groupStart⟩ ++ Key.encode ⟨7, .groupEnd⟩) := by
    have start : Key.Spells ⟨7, .groupStart⟩ _ := Key.spells_encode (by decide) (by decide)
    have close : Key.Spells ⟨7, .groupEnd⟩ _ := Key.spells_encode (by decide) (by decide)
    simpa using Wire.Spells.group start (.nil 0) close (.nil 1)
  have single : Wire.Spells 1 [⟨3, .varint (ofSigned (-1))⟩]
      (Key.encode ⟨3, .varint⟩ ++ Varint.encode (ofSigned (-1))) := by
    have key : Key.Spells ⟨3, .varint⟩ _ := Key.spells_encode (by decide) (by decide)
    simpa using Wire.Spells.plain key (.varint (Varint.spells_encode (by decide))) (.nil 1)
  have name := spells_encodeChunk 1 1 (textBytes "a") (by decide) (by decide) (by decide +kernel)
  have packed := spells_encodeChunk 1 3 (numberBytes [300]) (by decide) (by decide) (by decide +kernel)
  have tallied : Tallied 3 [300] [⟨3, .chunk (numberBytes [300])⟩] := tallied_packings 3 [300]
  exact ⟨_, unknown.append (single.append (name.append packed)), .cons ⟨_, rfl, rfl⟩ .nil, .nil, .single tallied⟩

theorem Listing.restored_of_spells_foreign :
    Listing.decode (Record.encodeChunk 1 (Record.encodeChunk 3 foreignBytes)) =
      some [⟨"", "", [⟨"a", [], [-1, 300]⟩]⟩] := by
  have inside := spells_encodeChunk 1 3 foreignBytes (by decide) (by decide) (by decide +kernel)
  have around := spells_encodeChunk 1 1 _ (by decide) (by decide)
    (show (Record.encodeChunk 3 foreignBytes).length ≤ _ by decide +kernel)
  have pod : ListedPod.Spells 1 ⟨"", "", [⟨"a", [], [-1, 300]⟩]⟩ _ :=
    ⟨_, inside, .nil, .nil, .cons ⟨_, rfl, spells_foreignBytes⟩ .nil⟩
  have shallow : 1 + 3 < maxNesting := by decide
  refine (Listing.restored_of_spells ?_ shallow).1 _ ⟨_, around, .cons ⟨_, rfl, pod⟩ .nil⟩
  simp [Listing.Signed, ListedPod.Signed, SignedWords, Word.leastSigned, Word.mostSigned]

end PodBudget.Discovery
