/-!
Records kept under names, in the order of the names. A roster has each name once, which its type records.
Names are ordered by code point, which is also the order of their bytes.
-/
namespace PodBudget

/-- Entries in strictly ascending order of name. -/
structure Roster (β : Type) where
  entries : List (String × β)
  ascending : entries.Pairwise fun left right => left.1 < right.1

namespace Roster

variable {β γ δ σ : Type}

def empty : Roster β := ⟨[], .nil⟩

instance : Inhabited (Roster β) := ⟨empty⟩

def names (roster : Roster β) : List String := roster.entries.map (·.1)

def values (roster : Roster β) : List β := roster.entries.map (·.2)

def size (roster : Roster β) : Nat := roster.entries.length

def isEmpty (roster : Roster β) : Bool := roster.entries.isEmpty

def get? (roster : Roster β) (name : String) : Option β :=
  (roster.entries.find? fun entry => entry.1 == name).map (·.2)

def contains (roster : Roster β) (name : String) : Bool := (roster.get? name).isSome

def insertEntry (name : String) (value : β) : List (String × β) → List (String × β)
  | [] => [(name, value)]
  | (other, old) :: rest =>
    if name < other then (name, value) :: (other, old) :: rest
    else if name = other then (name, value) :: rest
    else (other, old) :: insertEntry name value rest

theorem fst_mem_insertEntry {name : String} {value : β} {entries : List (String × β)} {entry : String × β}
    (h : entry ∈ insertEntry name value entries) : entry = (name, value) ∨ entry ∈ entries := by
  induction entries with
  | nil => exact .inl (List.mem_singleton.mp h)
  | cons head rest ih =>
    obtain ⟨other, old⟩ := head
    simp only [insertEntry] at h
    split at h
    · simpa using h
    · split at h
      · rcases List.mem_cons.mp h with rfl | h
        · exact .inl rfl
        · exact .inr (List.mem_cons_of_mem _ h)
      · rcases List.mem_cons.mp h with rfl | h
        · exact .inr List.mem_cons_self
        · exact (ih h).imp_right (List.mem_cons_of_mem _)

theorem lt_of_not_lt_of_ne {a b : String} (not_lt : ¬ a < b) (ne : a ≠ b) : b < a :=
  String.not_le.mp fun le => ne (String.le_antisymm le (String.not_lt.mp not_lt))

theorem pairwise_insertEntry (name : String) (value : β) {entries : List (String × β)}
    (ascending : entries.Pairwise fun left right => left.1 < right.1) :
    (insertEntry name value entries).Pairwise fun left right => left.1 < right.1 := by
  induction entries with
  | nil => exact .cons (fun _ h => nomatch h) .nil
  | cons head rest ih =>
    obtain ⟨other, old⟩ := head
    obtain ⟨above, ascending⟩ := List.pairwise_cons.mp ascending
    simp only [insertEntry]
    split
    · next before =>
      refine .cons (fun entry h => ?_) (.cons above ascending)
      rcases List.mem_cons.mp h with rfl | h
      · exact before
      · exact String.lt_trans before (above entry h)
    · split
      · next same => exact .cons (fun entry h => same ▸ above entry h) ascending
      · next not_before ne =>
        refine .cons (fun entry h => ?_) (ih ascending)
        rcases fst_mem_insertEntry h with rfl | h
        · exact lt_of_not_lt_of_ne not_before ne
        · exact above entry h

def insert (roster : Roster β) (name : String) (value : β) : Roster β :=
  ⟨insertEntry name value roster.entries, pairwise_insertEntry name value roster.ascending⟩

def erase (roster : Roster β) (name : String) : Roster β :=
  ⟨roster.entries.filter fun entry => entry.1 != name, roster.ascending.filter _⟩

theorem get?_insert (roster : Roster β) (name other : String) (value : β) :
    (roster.insert name value).get? other = if name = other then some value else roster.get? other := by
  obtain ⟨entries, ascending⟩ := roster
  simp only [insert, get?]
  clear ascending
  induction entries with
  | nil => by_cases h : name = other <;> simp [insertEntry, h]
  | cons head rest ih =>
    obtain ⟨first, old⟩ := head
    simp only [insertEntry]
    by_cases before : name < first
    · simp only [before, ↓reduceIte]
      by_cases h : name = other <;> simp [List.find?_cons, h]
    · simp only [before, ↓reduceIte]
      by_cases same : name = first
      · subst same
        by_cases h : name = other <;> simp [h]
      · simp only [same, ↓reduceIte]
        by_cases h : first = other
        · subst h
          simp [same]
        · have differs : (first == other) = false := by simpa using h
          simp only [List.find?_cons, differs]
          exact ih

theorem get?_erase (roster : Roster β) (name other : String) :
    (roster.erase name).get? other = if name = other then none else roster.get? other := by
  obtain ⟨entries, ascending⟩ := roster
  simp only [erase, get?]
  clear ascending
  induction entries with
  | nil => simp
  | cons head rest ih =>
    obtain ⟨first, old⟩ := head
    by_cases h : first = name
    · subst h
      by_cases same : first = other
      · subst same
        simp
      · have differs : (first == other) = false := by simpa using same
        simp only [List.filter_cons, bne_self_eq_false, Bool.false_eq_true, ↓reduceIte, List.find?_cons, differs]
        exact ih
    · have kept : (first != name) = true := by simpa using h
      by_cases same : first = other
      · subst same
        simp [h, Ne.symm h]
      · have differs : (first == other) = false := by simpa using same
        simp only [List.filter_cons, kept, ↓reduceIte, List.find?_cons, differs]
        exact ih

theorem pairwise_of_names {entries : List (String × β)} {others : List (String × γ)}
    (same : others.map (·.1) = entries.map (·.1))
    (ascending : entries.Pairwise fun left right => left.1 < right.1) :
    others.Pairwise fun left right => left.1 < right.1 := by
  rw [← List.pairwise_map (f := Prod.fst) (R := (· < ·)), same, List.pairwise_map]
  exact ascending

def map (f : String → β → γ) (roster : Roster β) : Roster γ :=
  ⟨roster.entries.map fun entry => (entry.1, f entry.1 entry.2),
    pairwise_of_names (by simp) roster.ascending⟩

def modify (roster : Roster β) (name : String) (f : β → β) : Roster β :=
  roster.map fun other value => if other = name then f value else value

/-- Gives the entries one argument each, in order; entries beyond the arguments stay as they are. -/
def zipEntries (f : String → β → δ → StateM σ β) : List (String × β) → List δ → StateM σ (List (String × β))
  | (name, value) :: rest, argument :: others => do
    let value ← f name value argument
    let rest ← zipEntries f rest others
    pure ((name, value) :: rest)
  | entries, _ => pure entries

theorem names_zipEntries (f : String → β → δ → StateM σ β) (entries : List (String × β)) (arguments : List δ)
    (state : σ) : (zipEntries f entries arguments state).1.map (·.1) = entries.map (·.1) := by
  induction entries generalizing arguments state with
  | nil => cases arguments <;> rfl
  | cons head rest ih =>
    cases arguments with
    | nil => rfl
    | cons argument others => exact congrArg (head.1 :: ·) (ih _ _)

def zipTraverse (f : String → β → δ → StateM σ β) (roster : Roster β) (arguments : List δ) :
    StateM σ (Roster β) := fun state =>
  let out := zipEntries f roster.entries arguments state
  (⟨out.1, pairwise_of_names (names_zipEntries f roster.entries arguments state) roster.ascending⟩, out.2)

end Roster
end PodBudget
