import PodBudget.Node.FileTree
import Mathlib.Data.List.Induction

/-!
Where paths lead in a tree. The names of a directory's path go from directory to directory, and a file in it is
found by one name more, as long as its path is not too long to be asked for.
-/
namespace PodBudget.Node.FileTree

theorem endsWith_slash_iff (path : String) :
    path.endsWith "/" = true ↔ ∃ front, path.toList = front ++ ['/'] := by
  rw [String.endsWith_eq_endsWith_toSlice, String.Slice.endsWith_string_iff, String.copy_toSlice]
  constructor
  · rintro ⟨front, same⟩
    exact ⟨front, same.symm⟩
  · rintro ⟨front, same⟩
    exact ⟨front, same.symm⟩

structure IsName (name : String) : Prop where
  nonempty : name ≠ ""
  noSlash : '/' ∉ name.toList
  noNul : '\x00' ∉ name.toList
  notHere : name ≠ "."
  notUp : name ≠ ".."
  short : name.utf8ByteSize ≤ maxName

instance (name : String) : Decidable (IsName name) :=
  decidable_of_iff (name ≠ "" ∧ '/' ∉ name.toList ∧ '\x00' ∉ name.toList ∧ name ≠ "." ∧ name ≠ ".." ∧
      name.utf8ByteSize ≤ maxName)
    ⟨fun ⟨nonempty, noSlash, noNul, notHere, notUp, short⟩ => ⟨nonempty, noSlash, noNul, notHere, notUp, short⟩,
      fun h => ⟨h.nonempty, h.noSlash, h.noNul, h.notHere, h.notUp, h.short⟩⟩

variable {name directory : String}

theorem IsName.step_eq (isName : IsName name) (here : List String) : step here name = here ++ [name] := by
  simp [step, isName.notHere, isName.notUp]

theorem pieces_of_noSlash {chars : List Char} (noSlash : '/' ∉ chars) : pieces chars = [chars] := by
  induction chars with
  | nil => rfl
  | cons c rest ih =>
    simp only [List.mem_cons, not_or] at noSlash
    obtain ⟨other, below⟩ := noSlash
    simp [pieces, Ne.symm other, ih below]

theorem mem_pieces {chars : List Char} {c : Char} (mem : c ∈ chars) (other : c ≠ '/') :
    ∃ piece ∈ pieces chars, c ∈ piece := by
  induction chars with
  | nil => cases mem
  | cons first rest ih =>
    by_cases slash : first = '/'
    · have inRest : c ∈ rest := by
        rcases List.mem_cons.mp mem with same | inRest
        · exact absurd (same.trans slash) other
        · exact inRest
      obtain ⟨piece, listed, within⟩ := ih inRest
      exact ⟨piece, by simp [pieces, slash, listed], within⟩
    · cases parts : pieces rest with
      | nil => exact absurd parts (pieces_ne_nil rest)
      | cons head tail =>
        simp only [pieces, slash, ↓reduceIte, parts]
        rcases List.mem_cons.mp mem with rfl | inRest
        · exact ⟨c :: head, by simp, by simp⟩
        · obtain ⟨piece, listed, within⟩ := ih inRest
          rcases List.mem_cons.mp (parts ▸ listed) with rfl | inTail
          · exact ⟨first :: piece, by simp, List.mem_cons_of_mem _ within⟩
          · exact ⟨piece, List.mem_cons_of_mem _ inTail, within⟩

theorem mem_names {path : String} {c : Char} (mem : c ∈ path.toList) (other : c ≠ '/') :
    ∃ name ∈ names path, c ∈ name.toList := by
  obtain ⟨piece, listed, within⟩ := mem_pieces mem other
  refine ⟨String.ofList piece, List.mem_map.mpr ⟨piece, List.mem_filter.mpr ⟨listed, ?_⟩, rfl⟩, by simpa using within⟩
  cases piece with
  | nil => cases within
  | cons => rfl

theorem IsName.names_eq (isName : IsName name) : names name = [name] := by
  have filled : name.toList ≠ [] := by simpa using isName.nonempty
  simp [names, pieces_of_noSlash isName.noSlash, filled]

theorem names_append_slash (front rest : String) : names (front ++ "/" ++ rest) = names front ++ names rest := by
  have written : (front ++ "/" ++ rest).toList = front.toList ++ '/' :: rest.toList := by simp
  simp [names, written, pieces_append_slash]

theorem names_join (isName : IsName name) : names (join directory name) = names directory ++ [name] := by
  unfold join
  split
  next closed =>
    rcases Bool.or_eq_true_iff.mp closed with empty | slash
    · rw [String.isEmpty_iff.mp empty, String.empty_append, isName.names_eq]
      rfl
    · obtain ⟨front, written⟩ := (endsWith_slash_iff directory).mp slash
      have ends : directory = String.ofList front ++ "/" := String.toList_inj.mp (by simp [written])
      have alone : names directory = names (String.ofList front) := by
        have := names_append_slash (String.ofList front) ""
        rwa [String.append_empty, ← ends, show names "" = [] from rfl, List.append_nil] at this
      rw [alone, ends, names_append_slash, isName.names_eq]
  next => rw [names_append_slash, isName.names_eq]

theorem join_eq (directory name : String) :
    join directory name = directory ++ name ∨ join directory name = directory ++ "/" ++ name := by
  unfold join
  split
  · exact .inl rfl
  · exact .inr rfl

theorem IsName.join_endsWith (isName : IsName name) : (join directory name).endsWith "/" = false := by
  by_contra closed
  obtain ⟨front, written⟩ := (endsWith_slash_iff _).mp (by simpa using closed)
  obtain ⟨before, joined⟩ : ∃ before, join directory name = before ++ name := by
    rcases join_eq directory name with joined | joined <;> exact ⟨_, joined⟩
  have filled : name.toList ≠ [] := by simpa using isName.nonempty
  have last : name.toList.getLast filled = '/' := by
    have := congrArg List.getLast? written
    rw [joined, String.toList_append, List.getLast?_append, List.getLast?_append,
      List.getLast?_eq_some_getLast filled] at this
    simpa using this
  exact isName.noSlash (last ▸ List.getLast_mem filled)

/-- The names lead from one place to another through directories only. -/
inductive Leads (tree : FileTree) : List String → List String → List String → Prop
  | here (place : List String) : Leads tree place [] place
  | onward {here : List String} {name : String} {rest place : List String}
      (directory : tree.lookup (step here name) = some .directory) (further : Leads tree (step here name) rest place) :
      Leads tree here (name :: rest) place

def Contains (tree : FileTree) (directory name : String) : Prop :=
  ∃ place entry, Leads tree [] (names directory) place ∧ tree.lookup (place ++ [name]) = some entry

/-- Every entry has a name that entries can have, and stands in a directory. -/
structure IsProper (tree : FileTree) : Prop where
  named : ∀ entry ∈ tree.entries, ∀ name ∈ entry.1, IsName name
  inside : ∀ entry ∈ tree.entries, tree.lookup entry.1.dropLast = some .directory

variable {tree later : FileTree} {here path place : List String}

theorem mem_entries {entry : FileEntry} (found : tree.lookup place = some entry) (below : place ≠ []) :
    ∃ listed ∈ tree.entries, listed.1 = place := by
  simp only [lookup, below, ↓reduceIte, Option.map_eq_some_iff] at found
  obtain ⟨listed, picked, -⟩ := found
  exact ⟨listed, List.mem_of_find?_eq_some picked, by simpa using List.find?_some picked⟩

theorem IsProper.isName (proper : tree.IsProper) {entry : FileEntry} (found : tree.lookup place = some entry) :
    ∀ name ∈ place, IsName name := by
  by_cases root : place = []
  · simp [root]
  · obtain ⟨listed, mem, rfl⟩ := mem_entries found root
    exact proper.named listed mem

theorem IsProper.parent (proper : tree.IsProper) {entry : FileEntry}
    (found : tree.lookup (place ++ [name]) = some entry) : tree.lookup place = some .directory := by
  obtain ⟨listed, mem, same⟩ := mem_entries found (by simp)
  simpa [same] using proper.inside listed mem

theorem IsProper.above (proper : tree.IsProper) {entry : FileEntry} (rest : List String)
    (found : tree.lookup (place ++ rest ++ [name]) = some entry) : tree.lookup place = some .directory := by
  induction rest using List.reverseRecOn generalizing name entry with
  | nil => exact proper.parent (by simpa using found)
  | append_singleton rest last ih => exact ih (by simpa using proper.parent found)

theorem Leads.isName (leads : Leads tree here path place) (proper : tree.IsProper) :
    ∀ name ∈ path, name = "." ∨ name = ".." ∨ IsName name := by
  induction leads with
  | here => simp
  | @onward here name rest place directory further ih =>
    refine List.forall_mem_cons.mpr ⟨?_, ih⟩
    by_cases dot : name = "."
    · exact .inl dot
    · by_cases up : name = ".."
      · exact .inr (.inl up)
      · have child : step here name = here ++ [name] := by simp [step, dot, up]
        exact .inr (.inr (proper.isName (child ▸ directory) name (by simp)))

theorem Leads.plain (leads : Leads tree here path place) (proper : tree.IsProper) :
    ∀ name ∈ path, name.utf8ByteSize ≤ maxName ∧ '\x00' ∉ name.toList := by
  intro name mem
  rcases leads.isName proper name mem with rfl | rfl | isName
  · decide
  · decide
  · exact ⟨isName.short, isName.noNul⟩

theorem Leads.downwards (leads : Leads tree here path place) (noUp : ".." ∉ path) : here <+: place := by
  induction leads with
  | here => exact List.prefix_rfl
  | @onward here name rest place directory further ih =>
    simp only [List.mem_cons, not_or] at noUp
    obtain ⟨stays, below⟩ := noUp
    refine List.IsPrefix.trans ?_ (ih below)
    simp only [step, Ne.symm stays, ↓reduceIte]
    split
    · exact List.prefix_rfl
    · exact List.prefix_append _ _

/-- A path that never goes up leads where it led for as long as an entry is left there: every directory that it goes
through stands above that entry. -/
theorem Leads.stays (leads : Leads tree here path place) (noUp : ".." ∉ path) (proper : later.IsProper)
    {entry : FileEntry} (found : later.lookup (place ++ [name]) = some entry) : Leads later here path place := by
  induction leads with
  | here place => exact .here place
  | @onward here first rest place directory further ih =>
    have below : ".." ∉ rest := fun mem => noUp (List.mem_cons_of_mem _ mem)
    obtain ⟨between, down⟩ := further.downwards below
    exact .onward (proper.above between (by rwa [down])) (ih below found)

theorem Leads.follow (leads : Leads tree here path place) (short : ∀ name ∈ path, name.utf8ByteSize ≤ maxName)
    {rest : List String} (more : rest ≠ []) : tree.follow here (path ++ rest) = tree.follow place rest := by
  induction leads with
  | here => rfl
  | @onward here name others place directory further ih =>
    obtain ⟨first, others_short⟩ := List.forall_mem_cons.mp short
    simp [FileTree.follow, Nat.not_lt.mpr first, directory, more, ih others_short]

theorem leads_of_follow {target : List String} (followed : tree.follow here (path ++ [name]) = .ok target) :
    ∃ place, Leads tree here path place ∧ target = step place name := by
  induction path generalizing here with
  | nil =>
    simp only [List.nil_append, FileTree.follow, ↓reduceIte] at followed
    split at followed
    · cases followed
    · exact ⟨here, .here here, by simpa using followed.symm⟩
  | cons first rest ih =>
    simp only [List.cons_append, FileTree.follow, List.append_eq_nil_iff, List.cons_ne_self, and_false,
      ↓reduceIte] at followed
    split at followed
    · cases followed
    · cases found : tree.lookup (step here first) with
      | none => simp [found] at followed
      | some entry =>
        cases entry with
        | file => simp [found] at followed
        | directory =>
          obtain ⟨place, further, reached⟩ := ih (by simpa [found] using followed)
          exact ⟨place, .onward found further, reached⟩

theorem locate_join (isName : IsName name) :
    tree.locate (join directory name) =
      (checkPath (join directory name)).bind fun _ => tree.follow [] (names directory ++ [name]) := by
  simp only [locate, isName.join_endsWith, Bool.false_eq_true, ↓reduceIte, names_join isName]
  rfl

theorem checkPath_join (isName : IsName name) (clean : ∀ part ∈ names directory, '\x00' ∉ part.toList)
    (fits : (join directory name).utf8ByteSize ≤ maxPath) : checkPath (join directory name) = .ok () := by
  have noNul : '\x00' ∉ (join directory name).toList := by
    intro mem
    obtain ⟨part, listed, within⟩ := mem_names mem (by decide)
    rw [names_join isName, List.mem_append, List.mem_singleton] at listed
    rcases listed with above | rfl
    · exact clean part above within
    · exact isName.noNul within
  have filled : join directory name ≠ "" := by
    intro empty
    have parts : names (join directory name) = names directory ++ [name] := names_join isName
    simp [empty, show names "" = [] from rfl] at parts
  simp [checkPath, noNul, filled, Nat.not_lt.mpr fits]

theorem fits_of_checkPath {path : String} (passes : checkPath path = .ok ()) : path.utf8ByteSize ≤ maxPath := by
  unfold checkPath at passes
  grind

theorem locate_of_leads (proper : tree.IsProper) (isName : IsName name) (leads : Leads tree [] (names directory) place)
    (fits : (join directory name).utf8ByteSize ≤ maxPath) :
    tree.locate (join directory name) = .ok (place ++ [name]) := by
  rw [locate_join isName, checkPath_join isName (fun part mem => (leads.plain proper part mem).2) fits]
  show tree.follow [] (names directory ++ [name]) = _
  rw [leads.follow (fun part mem => (leads.plain proper part mem).1) (by simp)]
  simp [FileTree.follow, Nat.not_lt.mpr isName.short, isName.step_eq]

theorem leads_of_locate (isName : IsName name) {target : List String}
    (located : tree.locate (join directory name) = .ok target) :
    (join directory name).utf8ByteSize ≤ maxPath ∧
      ∃ place, Leads tree [] (names directory) place ∧ target = place ++ [name] := by
  rw [locate_join isName] at located
  cases passes : checkPath (join directory name) with
  | error => simp [passes, Except.bind] at located
  | ok =>
    obtain ⟨place, leads, rfl⟩ := leads_of_follow (by simpa [passes, Except.bind] using located)
    exact ⟨fits_of_checkPath passes, place, leads, isName.step_eq place⟩

theorem entry_of_locate {path : String} {target : List String} (located : tree.locate path = .ok target) :
    tree.entry path = match tree.lookup target with | some entry => .ok entry | none => .error .notFound := by
  unfold entry
  rw [located]
  simp only [bind, Except.bind]
  cases tree.lookup target <;> rfl

theorem exists?_join (proper : tree.IsProper) (isName : IsName name) :
    tree.exists? (join directory name) = true ↔
      tree.Contains directory name ∧ (join directory name).utf8ByteSize ≤ maxPath := by
  constructor
  · intro there
    cases located : tree.locate (join directory name) with
    | error => simp [exists?, entry, located, bind, Except.bind, Except.isOk, Except.toBool] at there
    | ok target =>
      obtain ⟨fits, place, leads, rfl⟩ := leads_of_locate isName located
      cases found : tree.lookup (place ++ [name]) with
      | none => simp [exists?, entry_of_locate located, found, Except.isOk, Except.toBool] at there
      | some entry => exact ⟨⟨place, entry, leads, found⟩, fits⟩
  · rintro ⟨⟨place, entry, leads, found⟩, fits⟩
    simp [exists?, entry_of_locate (locate_of_leads proper isName leads fits), found, Except.isOk, Except.toBool]

end PodBudget.Node.FileTree
