import Mathlib.Data.List.Forall2
import Mathlib.Data.List.Perm.Basic
import PodBudget.Roster

/-! What the operations of a roster do to its names, and to the values that stand under them. -/
namespace PodBudget.Roster

variable {β γ δ σ : Type}

theorem get?_empty (name : String) : (empty : Roster β).get? name = none := rfl

theorem get?_eq_some_iff (roster : Roster β) (name : String) (value : β) :
    roster.get? name = some value ↔ (name, value) ∈ roster.entries := by
  obtain ⟨entries, ascending⟩ := roster
  simp only [get?]
  induction entries with
  | nil => simp
  | cons head rest ih =>
    obtain ⟨above, ascending⟩ := List.pairwise_cons.mp ascending
    by_cases same : head.1 = name
    · have absent : (name, value) ∉ rest := by
        intro member
        have before := above (name, value) member
        exact String.lt_irrefl name (same ▸ before)
      obtain ⟨first, kept⟩ := head
      subst same
      simp only [List.find?_cons, beq_self_eq_true, Option.map_some, List.mem_cons, absent, or_false,
        Prod.mk.injEq, true_and, Option.some.injEq]
      exact eq_comm
    · have differs : (head.1 == name) = false := by simpa using same
      rw [List.find?_cons, differs]
      simp only [List.mem_cons]
      rw [ih ascending]
      constructor
      · exact Or.inr
      · rintro (equal | member)
        · exact absurd (congrArg Prod.fst equal).symm same
        · exact member

theorem mem_names_iff (roster : Roster β) (name : String) :
    name ∈ roster.names ↔ ∃ value, roster.get? name = some value := by
  simp only [names, List.mem_map, get?_eq_some_iff]
  constructor
  · rintro ⟨entry, member, rfl⟩
    exact ⟨entry.2, member⟩
  · rintro ⟨value, member⟩
    exact ⟨(name, value), member, rfl⟩

theorem get?_eq_none_iff (roster : Roster β) (name : String) :
    roster.get? name = none ↔ name ∉ roster.names := by
  rw [mem_names_iff, Option.eq_none_iff_forall_ne_some, not_exists]

theorem contains_iff (roster : Roster β) (name : String) :
    roster.contains name = true ↔ name ∈ roster.names := by
  rw [contains, mem_names_iff, Option.isSome_iff_exists]

theorem mem_values_iff (roster : Roster β) (value : β) :
    value ∈ roster.values ↔ ∃ name, roster.get? name = some value := by
  simp only [values, List.mem_map, get?_eq_some_iff]
  constructor
  · rintro ⟨entry, member, rfl⟩
    exact ⟨entry.1, member⟩
  · rintro ⟨name, member⟩
    exact ⟨(name, value), member, rfl⟩

theorem ascending_names (roster : Roster β) : roster.names.Pairwise (· < ·) :=
  List.pairwise_map.mpr roster.ascending

theorem nodup_names (roster : Roster β) : roster.names.Nodup := by
  apply roster.ascending_names.imp
  intro left right before same
  exact String.lt_irrefl right (same ▸ before)

theorem entries_insert_last (roster : Roster β) (name : String) (value : β)
    (last : ∀ entry ∈ roster.entries, entry.1 < name) :
    (roster.insert name value).entries = roster.entries ++ [(name, value)] := by
  obtain ⟨entries, ascending⟩ := roster
  simp only [insert] at last ⊢
  clear ascending
  induction entries with
  | nil => rfl
  | cons head rest ih =>
    have before : head.1 < name := last head List.mem_cons_self
    have notAfter : ¬ name < head.1 := fun after => String.lt_irrefl name (String.lt_trans after before)
    have other : name ≠ head.1 := fun same => notAfter (same ▸ before)
    simp only [insertEntry, notAfter, other, ↓reduceIte, List.cons_append]
    rw [ih fun entry member => last entry (List.mem_cons_of_mem _ member)]

theorem names_eq_of_mem_iff {left : Roster β} {right : Roster γ}
    (same : ∀ name, name ∈ left.names ↔ name ∈ right.names) : left.names = right.names := by
  refine List.Perm.eq_of_pairwise ?_ left.ascending_names right.ascending_names ?_
  · intro one other _ _ early late
    exact absurd (String.lt_trans early late) (String.lt_irrefl one)
  · exact (List.perm_ext_iff_of_nodup left.nodup_names right.nodup_names).mpr same

theorem perm_names_insert (roster : Roster β) (name : String) (value : β) (fresh : name ∉ roster.names) :
    (roster.insert name value).names.Perm (name :: roster.names) := by
  refine (List.perm_ext_iff_of_nodup (nodup_names _) ?_).mpr ?_
  · exact List.nodup_cons.mpr ⟨fresh, roster.nodup_names⟩
  · intro other
    rw [mem_names_iff, List.mem_cons, mem_names_iff]
    simp only [get?_insert]
    by_cases same : name = other
    · simp [same]
    · simp [same, Ne.symm same]

theorem names_erase (roster : Roster β) (name : String) :
    (roster.erase name).names = roster.names.erase name := by
  rw [roster.nodup_names.erase_eq_filter]
  simp only [names, erase, List.filter_map]
  rfl

theorem perm_names_erase (roster : Roster β) (name : String) (present : name ∈ roster.names) :
    (name :: (roster.erase name).names).Perm roster.names := by
  rw [names_erase]
  exact (List.perm_cons_erase present).symm

theorem names_erase_of_absent (roster : Roster β) (name : String) (absent : name ∉ roster.names) :
    (roster.erase name).names = roster.names := by
  rw [names_erase, List.erase_of_not_mem absent]

theorem get?_map (f : String → β → γ) (roster : Roster β) (name : String) :
    (roster.map f).get? name = (roster.get? name).map (f name) := by
  obtain ⟨entries, ascending⟩ := roster
  simp only [get?, map]
  clear ascending
  induction entries with
  | nil => rfl
  | cons head rest ih =>
    rw [List.map_cons, List.find?_cons, List.find?_cons]
    cases same : head.1 == name with
    | true =>
      obtain rfl : head.1 = name := beq_iff_eq.mp same
      rfl
    | false => exact ih

/-- The same names, with values that are related one by one. -/
def Aligned (relation : β → γ → Prop) (before : Roster β) (after : Roster γ) : Prop :=
  List.Forall₂ (fun left right => left.1 = right.1 ∧ relation left.2 right.2) before.entries after.entries

theorem Aligned.names {relation : β → γ → Prop} {before : Roster β} {after : Roster γ}
    (aligned : Aligned relation before after) : after.names = before.names := by
  have same : List.Forall₂ (fun left right => left.1 = right.1) before.entries after.entries :=
    aligned.imp fun _ _ pair => pair.1
  have equal := List.forall₂_eq_eq_eq ▸ List.forall₂_map_left_iff.mpr (List.forall₂_map_right_iff.mpr same)
  exact equal.symm

private theorem related_left {relation : β → γ → Prop} {left : List β} {right : List γ}
    (related : List.Forall₂ relation left right) {value : γ} (member : value ∈ right) :
    ∃ old ∈ left, relation old value := by
  induction related with
  | nil => simp at member
  | cons head _ ih =>
    rcases List.mem_cons.mp member with rfl | inside
    · exact ⟨_, List.mem_cons_self, head⟩
    · obtain ⟨old, present, pair⟩ := ih inside
      exact ⟨old, List.mem_cons_of_mem _ present, pair⟩

theorem Aligned.get? {relation : β → γ → Prop} {before : Roster β} {after : Roster γ} {name : String} {value : γ}
    (aligned : Aligned relation before after) (found : after.get? name = some value) :
    ∃ old, before.get? name = some old ∧ relation old value := by
  obtain ⟨⟨other, old⟩, member, same, related⟩ := related_left aligned ((get?_eq_some_iff ..).mp found)
  change other = name at same
  subst other
  exact ⟨old, (get?_eq_some_iff ..).mpr member, related⟩

theorem Aligned.refl {relation : β → β → Prop} (same : ∀ value, relation value value) (roster : Roster β) :
    Aligned relation roster roster :=
  List.forall₂_same.mpr fun entry _ => ⟨rfl, same entry.2⟩

theorem Aligned.rel_get? {relation : β → γ → Prop} {before : Roster β} {after : Roster γ}
    (aligned : Aligned relation before after) (name : String) :
    Option.Rel relation (before.get? name) (after.get? name) := by
  cases present : after.get? name with
  | some value =>
    obtain ⟨old, found, related⟩ := aligned.get? present
    rw [found]
    exact .some related
  | none =>
    have absent := (get?_eq_none_iff ..).mp present
    rw [(before.get?_eq_none_iff name).mpr (aligned.names ▸ absent)]
    exact .none

theorem aligned_of_get? {relation : β → γ → Prop} {before : Roster β} {after : Roster γ}
    (related : ∀ name, Option.Rel relation (before.get? name) (after.get? name)) : Aligned relation before after := by
  have names : before.names = after.names := by
    apply names_eq_of_mem_iff
    intro name
    rw [← contains_iff, ← contains_iff, Roster.contains, Roster.contains]
    have pair := related name
    generalize before.get? name = old at pair ⊢
    generalize after.get? name = new at pair ⊢
    cases pair <;> rfl
  refine List.forall₂_iff_get.mpr ⟨by simpa [Roster.names] using congrArg List.length names, ?_⟩
  intro i left right
  have same : (before.entries.get ⟨i, left⟩).1 = (after.entries.get ⟨i, right⟩).1 := by
    have entry := congrArg (·[i]?) names
    simpa [Roster.names, left, right] using entry
  have first := (get?_eq_some_iff before _ _).mpr (List.get_mem before.entries ⟨i, left⟩)
  have second := (get?_eq_some_iff after _ _).mpr (List.get_mem after.entries ⟨i, right⟩)
  have pair := related (before.entries.get ⟨i, left⟩).1
  rw [first, same, second] at pair
  cases pair with
  | some holds => exact ⟨same, holds⟩

theorem ext_entries {left right : Roster β} (same : left.entries = right.entries) : left = right := by
  obtain ⟨entries, _⟩ := left
  obtain ⟨others, _⟩ := right
  cases same
  rfl

theorem ext_get? {left right : Roster β} (same : ∀ name, left.get? name = right.get? name) : left = right := by
  have aligned : Aligned Eq left right := by
    apply aligned_of_get?
    intro name
    rw [same name]
    cases right.get? name with
    | none => exact .none
    | some value => exact .some rfl
  exact ext_entries (List.forall₂_eq_eq_eq ▸ aligned.imp fun _ _ pair => Prod.ext pair.1 pair.2)

theorem map_map (f : String → β → γ) (g : String → γ → δ) (roster : Roster β) :
    (roster.map f).map g = roster.map fun name value => g name (f name value) := by
  apply ext_get?
  intro name
  rw [get?_map, get?_map, get?_map, Option.map_map]
  rfl

theorem Aligned.insert {relation : β → γ → Prop} {before : Roster β} {after : Roster γ}
    (aligned : Aligned relation before after) (name : String) {value : β} {other : γ} (related : relation value other) :
    Aligned relation (before.insert name value) (after.insert name other) := by
  apply aligned_of_get?
  intro place
  rw [get?_insert, get?_insert]
  split
  · exact .some related
  · exact aligned.rel_get? place

theorem Aligned.erase {relation : β → γ → Prop} {before : Roster β} {after : Roster γ}
    (aligned : Aligned relation before after) (name : String) :
    Aligned relation (before.erase name) (after.erase name) := by
  apply aligned_of_get?
  intro place
  rw [get?_erase, get?_erase]
  split
  · exact .none
  · exact aligned.rel_get? place

theorem Aligned.contains {relation : β → γ → Prop} {before : Roster β} {after : Roster γ}
    (aligned : Aligned relation before after) (name : String) : after.contains name = before.contains name := by
  rw [Bool.eq_iff_iff, contains_iff, contains_iff, aligned.names]

theorem Aligned.comp {first second relation : β → β → Prop} {before middle after : Roster β}
    (compose : ∀ left value right, first left value → second value right → relation left right)
    (early : Aligned first before middle) (late : Aligned second middle after) : Aligned relation before after := by
  obtain ⟨size, one⟩ := List.forall₂_iff_get.mp early
  obtain ⟨length, two⟩ := List.forall₂_iff_get.mp late
  refine List.forall₂_iff_get.mpr ⟨size.trans length, ?_⟩
  intro i left right
  have start := one i left (size ▸ left)
  have rest := two i (size ▸ left) right
  exact ⟨start.1.trans rest.1, compose _ _ _ start.2 rest.2⟩

theorem Aligned.flip {relation : β → γ → Prop} {before : Roster β} {after : Roster γ}
    (aligned : Aligned relation before after) : Aligned (fun right left => relation left right) after before :=
  (List.Forall₂.flip aligned).imp fun _ _ pair => ⟨pair.1.symm, pair.2⟩

theorem Aligned.trans {relation : β → β → Prop} {before middle after : Roster β}
    (compose : ∀ {left value right}, relation left value → relation value right → relation left right)
    (first : Aligned relation before middle) (second : Aligned relation middle after) :
    Aligned relation before after :=
  first.comp @compose second

theorem aligned_map {relation : β → γ → Prop} (f : String → β → γ) (roster : Roster β)
    (related : ∀ name value, roster.get? name = some value → relation value (f name value)) :
    Aligned relation roster (roster.map f) := by
  simp only [Aligned, map, List.forall₂_map_right_iff]
  refine List.forall₂_same.mpr ?_
  intro entry member
  exact ⟨rfl, related _ _ ((get?_eq_some_iff ..).mpr member)⟩

theorem aligned_zipEntries {relation : β → β → Prop} (f : String → β → δ → StateM σ β)
    (related : ∀ name value argument state, relation value (f name value argument state).1)
    (entries : List (String × β)) (arguments : List δ) (state : σ)
    (rest : entries.length ≤ arguments.length ∨ ∀ value, relation value value) :
    List.Forall₂ (fun left right => left.1 = right.1 ∧ relation left.2 right.2) entries
      (zipEntries f entries arguments state).1 := by
  induction entries generalizing arguments state with
  | nil => cases arguments <;> exact .nil
  | cons head others ih =>
    cases arguments with
    | nil =>
      have refl := rest.resolve_left (by simp)
      exact List.forall₂_same.mpr fun entry _ => ⟨rfl, refl entry.2⟩
    | cons argument more => exact .cons ⟨rfl, related ..⟩ (ih _ _ (rest.imp_left Nat.le_of_succ_le_succ))

theorem aligned_zipTraverse {relation : β → β → Prop} (f : String → β → δ → StateM σ β)
    (refl : ∀ value, relation value value)
    (related : ∀ name value argument state, relation value (f name value argument state).1)
    (roster : Roster β) (arguments : List δ) (state : σ) :
    Aligned relation roster (roster.zipTraverse f arguments state).1 :=
  aligned_zipEntries f related roster.entries arguments state (.inr refl)

theorem aligned_zipTraverse_of_size_le {relation : β → β → Prop} (f : String → β → δ → StateM σ β)
    (related : ∀ name value argument state, relation value (f name value argument state).1)
    (roster : Roster β) (arguments : List δ) (state : σ) (enough : roster.size ≤ arguments.length) :
    Aligned relation roster (roster.zipTraverse f arguments state).1 :=
  aligned_zipEntries f related roster.entries arguments state (.inl enough)

theorem zipTraverse_state_of_mem (relation : σ → σ → Prop) (f : String → β → δ → StateM σ β)
    (refl : ∀ state, relation state state)
    (compose : ∀ {before middle after}, relation before middle → relation middle after → relation before after)
    (roster : Roster β)
    (related : ∀ entry ∈ roster.entries, ∀ argument state, relation state (f entry.1 entry.2 argument state).2)
    (arguments : List δ) (state : σ) : relation state (roster.zipTraverse f arguments state).2 := by
  change relation state (zipEntries f roster.entries arguments state).2
  generalize roster.entries = entries at related
  induction entries generalizing arguments state with
  | nil => cases arguments <;> exact refl state
  | cons head rest ih =>
    cases arguments with
    | nil => exact refl state
    | cons argument others =>
      have later := ih others (f head.1 head.2 argument state).2 fun entry member =>
        related entry (List.mem_cons_of_mem _ member)
      exact compose (related head List.mem_cons_self argument state) later

theorem zipTraverse_state (relation : σ → σ → Prop) (f : String → β → δ → StateM σ β)
    (refl : ∀ state, relation state state)
    (compose : ∀ {before middle after}, relation before middle → relation middle after → relation before after)
    (related : ∀ name value argument state, relation state (f name value argument state).2)
    (roster : Roster β) (arguments : List δ) (state : σ) :
    relation state (roster.zipTraverse f arguments state).2 :=
  zipTraverse_state_of_mem relation f refl compose roster (fun entry _ => related entry.1 entry.2) arguments state

end PodBudget.Roster
