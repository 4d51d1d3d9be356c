import PodBudget.Proofs.PodActs

/-!
Acts with the pod that they are done for. The record of a node says what was read and written, and not for whom, and two
pods may have the same directory; so what a controller does is told in deeds, and the acts are read off them.
-/
namespace PodBudget.Monitor

variable {σ α β γ : Type}

/-- An act, and the pod that it is done for, if it is done for one. -/
structure Deed (α : Type) where
  pod : Option String
  act : Act α

def work (name : String) (acts : List (Act α)) : List (Deed α) := acts.map fun act => ⟨some name, act⟩

def own (name : String) (deeds : List (Deed α)) : List (Act α) :=
  (deeds.filter fun deed => deed.pod = some name).map (·.act)

@[simp] theorem own_append (name : String) (deeds more : List (Deed α)) :
    own name (deeds ++ more) = own name deeds ++ own name more := by
  rw [own, List.filter_append, List.map_append]
  rfl

@[simp] theorem own_work (name : String) (acts : List (Act α)) : own name (work name acts) = acts := by
  simp [own, work, List.filter_map, Function.comp_def]

theorem own_work_of_ne {name other : String} (differs : other ≠ name) (acts : List (Act α)) :
    own name (work other acts) = [] := by
  simp [own, work, List.filter_map, Function.comp_def, differs]

@[simp] theorem acts_work (name : String) (acts : List (Act α)) : (work name acts).map (·.act) = acts := by
  simp [work, Function.comp_def]

theorem pod_of_mem_work {name : String} {acts : List (Act α)} {deed : Deed α} (member : deed ∈ work name acts) :
    deed.pod = some name := by
  obtain ⟨act, _, rfl⟩ := List.mem_map.mp member
  rfl

theorem own_of_unowned {name : String} {deeds : List (Deed α)} (unowned : ∀ deed ∈ deeds, deed.pod = none) :
    own name deeds = [] := by
  have none : (deeds.filter fun deed => deed.pod = some name) = [] := by
    rw [List.filter_eq_nil_iff]
    intro deed member
    simp [unowned deed member]
  rw [own, none]
  rfl

theorem mem_own {name : String} {deeds : List (Deed α)} {deed : Deed α} (member : deed ∈ deeds)
    (owner : deed.pod = some name) : deed.act ∈ own name deeds :=
  List.mem_map_of_mem (List.mem_filter.mpr ⟨member, decide_eq_true owner⟩)

/-- Each name has its turn, and nothing else is done. -/
structure Turns (names : List String) (turn : String → List (Act α) → Prop) (deeds : List (Deed α)) : Prop where
  owned : ∀ deed ∈ deeds, deed.pod ≠ none
  taken : ∀ name ∈ names, turn name (own name deeds)
  idle : ∀ name ∉ names, own name deeds = []

section

variable {turn : String → List (Act α) → Prop} {names : List String} {deeds : List (Deed α)}

theorem turns_nil : Turns [] turn [] := ⟨nofun, nofun, fun _ _ => rfl⟩

theorem Turns.mono {weaker : String → List (Act α) → Prop} (turns : Turns names turn deeds)
    (implies : ∀ name acts, turn name acts → weaker name acts) : Turns names weaker deeds :=
  ⟨turns.owned, fun name member => implies name _ (turns.taken name member), turns.idle⟩

theorem Turns.cons {name : String} {acts : List (Act α)} (fresh : name ∉ names) (first : turn name acts)
    (rest : Turns names turn deeds) : Turns (name :: names) turn (work name acts ++ deeds) where
  owned deed member := by
    rcases List.mem_append.mp member with here | later
    · rw [pod_of_mem_work here]
      exact Option.some_ne_none _
    · exact rest.owned deed later
  taken other member := by
    rw [own_append]
    rcases List.mem_cons.mp member with rfl | later
    · rwa [own_work, rest.idle other fresh, List.append_nil]
    · have differs : name ≠ other := by
        intro same
        exact fresh (same ▸ later)
      rw [own_work_of_ne differs]
      exact rest.taken other later
  idle other absent := by
    obtain ⟨differs, absent⟩ := not_or.mp (mt List.mem_cons.mpr absent)
    rw [own_append, own_work_of_ne (Ne.symm differs), rest.idle other absent]
    rfl

theorem turns_flatMap (does : String → List (Act α)) (distinct : names.Nodup) :
    Turns names (fun name acts => acts = does name) (names.flatMap fun name => work name (does name)) := by
  induction names with
  | nil => exact turns_nil
  | cons name rest ih =>
    obtain ⟨fresh, distinct⟩ := List.nodup_cons.mp distinct
    exact .cons fresh rfl (ih distinct)

end

/-- The dealing comes to a result and does deeds of which `spec` holds. -/
def Carries (spec : β → List (Deed α) → Prop) (dealing : Dealing σ α β) : Prop :=
  Dealing.Performs (fun result acts => ∃ deeds, acts = deeds.map (·.act) ∧ spec result deeds) dealing

variable {spec : β → List (Deed α) → Prop}

theorem carries_pure {value : β} (holds : spec value []) : Carries (σ := σ) spec (pure value) :=
  Dealing.performs_pure ⟨[], rfl, holds⟩

theorem Carries.bind {first : Dealing σ α γ} {next : γ → Dealing σ α β} {middle : γ → List (Deed α) → Prop}
    (early : Carries middle first)
    (late : ∀ value deeds, middle value deeds → Carries (fun result more => spec result (deeds ++ more)) (next value)) :
    Carries spec (first >>= next) := by
  refine Dealing.Performs.bind early ?_
  rintro value _ ⟨deeds, rfl, holds⟩
  refine (late value deeds holds).weaken ?_
  rintro result _ ⟨more, rfl, meets⟩
  exact ⟨deeds ++ more, List.map_append.symm, meets⟩

theorem Carries.weaken {dealing : Dealing σ α β} {weaker : β → List (Deed α) → Prop} (strong : Carries spec dealing)
    (implies : ∀ result deeds, spec result deeds → weaker result deeds) : Carries weaker dealing := by
  refine Dealing.Performs.weaken strong ?_
  rintro result acts ⟨deeds, same, holds⟩
  exact ⟨deeds, same, implies result deeds holds⟩

theorem carries_work {dealing : Dealing σ α β} {spec : β → List (Act α) → Prop} (name : String)
    (performs : Dealing.Performs spec dealing) :
    Carries (fun result deeds => ∃ acts, deeds = work name acts ∧ spec result acts) dealing := by
  refine performs.weaken ?_
  intro result acts holds
  exact ⟨work name acts, (acts_work name acts).symm, acts, rfl, holds⟩

end PodBudget.Monitor
