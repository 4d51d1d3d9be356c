import PodBudget.Node.ControlFiles
import PodBudget.Proofs.Node.Paths

/-!
The files that usage is read from, and the files that limits are written to. They have no name in common, so that
limits neither change a reading nor make a pod ready or gone.
-/
namespace PodBudget.Node

namespace FileTree

/-- Files of these names may have been written, or made where there was nothing. All else is as before. -/
def Touches (written : List String) (before after : FileTree) : Prop :=
  ∀ place, after.lookup place = before.lookup place ∨
    ∃ parent name content, place = parent ++ [name] ∧ name ∈ written ∧
      before.lookup place ≠ some .directory ∧ after.lookup place = some (.file content)

variable {written : List String} {before after : FileTree} {name : String}

theorem Touches.refl (written : List String) (tree : FileTree) : Touches written tree tree := fun _ => .inl rfl

theorem Touches.trans {between : FileTree} (first : Touches written before between)
    (second : Touches written between after) : Touches written before after := by
  intro place
  rcases second place with same | ⟨parent, name, content, spot, mem, noDirectory, now⟩
  · rcases first place with same' | ⟨parent, name, content, spot, mem, noDirectory, now⟩
    · exact .inl (same.trans same')
    · exact .inr ⟨parent, name, content, spot, mem, noDirectory, same.trans now⟩
  · rcases first place with same' | ⟨_, _, _, _, _, noDirectory', _⟩
    · exact .inr ⟨parent, name, content, spot, mem, same' ▸ noDirectory, now⟩
    · exact .inr ⟨parent, name, content, spot, mem, noDirectory', now⟩

theorem Touches.lookup_eq (touches : Touches written before after) (spared : name ∉ written) (parent : List String) :
    after.lookup (parent ++ [name]) = before.lookup (parent ++ [name]) := by
  rcases touches (parent ++ [name]) with same | ⟨_, other, _, spot, mem, _⟩
  · exact same
  · obtain rfl : name = other := List.singleton_inj.mp (List.append_inj' spot rfl).2
    exact absurd mem spared

theorem Touches.follow_eq (touches : Touches written before after) (here path : List String) :
    after.follow here path = before.follow here path ∨
      before.follow here path = .error .notFound ∧ after.follow here path = .error .notDirectory := by
  induction path generalizing here with
  | nil => exact .inl rfl
  | cons name rest ih =>
    by_cases long : maxName < name.utf8ByteSize
    · exact .inl (by simp [FileTree.follow, long])
    by_cases last : rest = []
    · exact .inl (by simp [FileTree.follow, long, last])
    simp only [FileTree.follow, long, last, ↓reduceIte]
    rcases touches (step here name) with same | ⟨_, _, _, _, _, noDirectory, now⟩
    · rw [same]
      cases before.lookup (step here name) with
      | none => exact .inl rfl
      | some entry =>
        cases entry with
        | file => exact .inl rfl
        | directory => exact ih _
    · -- A file stands on the way now, where there was a file or nothing.
      rw [now]
      cases found : before.lookup (step here name) with
      | none => exact .inr ⟨rfl, rfl⟩
      | some entry =>
        cases entry with
        | file => exact .inl rfl
        | directory => exact absurd found noDirectory

theorem Touches.entry_join (touches : Touches written before after) (isName : IsName name) (spared : name ∉ written)
    (directory : String) :
    after.entry (join directory name) = before.entry (join directory name) ∨
      before.entry (join directory name) = .error .notFound ∧
        after.entry (join directory name) = .error .notDirectory := by
  have fault {tree : FileTree} {cause : FileFault} (stopped : tree.locate (join directory name) = .error cause) :
      tree.entry (join directory name) = .error cause := by simp [entry, stopped, bind, Except.bind]
  cases passes : checkPath (join directory name) with
  | error cause =>
    have stopped (tree : FileTree) : tree.locate (join directory name) = .error cause := by
      rw [locate_join isName, passes]
      rfl
    exact .inl ((fault (stopped after)).trans (fault (stopped before)).symm)
  | ok =>
    have follows (tree : FileTree) :
        tree.locate (join directory name) = tree.follow [] (names directory ++ [name]) := by
      rw [locate_join isName, passes]
      rfl
    rcases touches.follow_eq [] (names directory ++ [name]) with same | ⟨nowhere, blocked⟩
    · -- The path leads to the same place in both trees, and its last name is not one that was written.
      left
      cases located : before.locate (join directory name) with
      | error cause =>
        rw [fault located, fault ((follows after).trans (same.trans ((follows before).symm.trans located)))]
      | ok target =>
        obtain ⟨-, place, -, rfl⟩ := leads_of_locate isName located
        have located' : after.locate (join directory name) = .ok (place ++ [name]) :=
          (follows after).trans (same.trans ((follows before).symm.trans located))
        rw [entry_of_locate located, entry_of_locate located', touches.lookup_eq spared]
    · exact .inr ⟨fault ((follows before).trans nowhere), fault ((follows after).trans blocked)⟩

theorem Touches.exists?_join (touches : Touches written before after) (isName : IsName name) (spared : name ∉ written)
    (directory : String) : after.exists? (join directory name) = before.exists? (join directory name) := by
  unfold exists?
  rcases touches.entry_join isName spared directory with same | ⟨was, now⟩
  · rw [same]
  · rw [was, now]
    rfl

theorem place_of_locateFile {tree : FileTree} {directory : String} {target : List String} (isName : IsName name)
    (located : tree.locateFile (join directory name) = .ok target) : ∃ parent, target = parent ++ [name] := by
  have last : (names (join directory name)).getLast? = some name := by simp [names_join isName]
  unfold locateFile at located
  cases passes : checkPath (join directory name) with
  | error => simp [passes, bind, Except.bind] at located
  | ok =>
    cases reached : tree.follow [] ((names (join directory name)).dropLast ++ ["."]) with
    | error => simp [passes, reached, bind, Except.bind] at located
    | ok parent =>
      refine ⟨parent, ?_⟩
      simpa [passes, reached, last, isName.join_endsWith, isName.notHere, isName.notUp,
        Nat.not_lt.mpr isName.short, bind, Except.bind, pure, Except.pure, eq_comm] using located

theorem put_of_write {directory : String} {content : ByteArray} (isName : IsName name)
    (wrote : before.write (join directory name) content = .ok after) :
    ∃ parent, before.lookup (parent ++ [name]) ≠ some .directory ∧
      after = before.put (parent ++ [name]) (.file content) := by
  unfold write at wrote
  cases located : before.locateFile (join directory name) with
  | error => simp [located, bind, Except.bind] at wrote
  | ok target =>
    obtain ⟨parent, rfl⟩ := place_of_locateFile isName located
    refine ⟨parent, ?_⟩
    simp only [located, bind, Except.bind] at wrote
    cases found : before.lookup (parent ++ [name]) with
    | none => exact ⟨by simp, by simpa [found, pure, Except.pure, eq_comm] using wrote⟩
    | some entry =>
      cases entry with
      | directory => simp [found, throw, throwThe, MonadExceptOf.throw] at wrote
      | file => exact ⟨by simp, by simpa [found, pure, Except.pure, eq_comm] using wrote⟩

theorem touches_of_write {directory : String} {content : ByteArray} (isName : IsName name) (mem : name ∈ written)
    (wrote : before.write (join directory name) content = .ok after) : Touches written before after := by
  obtain ⟨parent, noDirectory, rfl⟩ := put_of_write isName wrote
  intro place
  rw [lookup_put _ _ _ _ (by simp)]
  by_cases spot : place = parent ++ [name]
  · exact .inr ⟨parent, name, content, spot, mem, spot ▸ noDirectory, by simp [spot]⟩
  · exact .inl (by simp [spot])

end FileTree

namespace ControlFiles

open FileTree (IsName Touches Leads names join maxPath)

def counterFiles : List String := ["cpuacct.usage", "cpu.stat", "total_runtime"]

/-- The names of the files that limits are written to, over all versions. -/
def limitFileNames : List String := [quotaFile, maxFile, limitFile, requestFile]

theorem isName_of_limitFileNames : ∀ name ∈ limitFileNames, IsName name := by decide

theorem notMem_limitFileNames : ∀ name ∈ counterFiles, name ∉ limitFileNames := by decide

theorem counterFile_mem (files : ControlFiles) (kind : Kind) : files.counterFile kind ∈ counterFiles := by
  cases kind with
  | gpu => simp [counterFile, counterFiles, runtimeFile]
  | cpu => cases version : files.version <;> simp [counterFile, version, GroupVersion.usageFile, counterFiles]

theorem isName_of_counterFiles : ∀ name ∈ counterFiles, IsName name := by decide

theorem counterFile_isName (files : ControlFiles) (kind : Kind) : IsName (files.counterFile kind) :=
  isName_of_counterFiles _ (files.counterFile_mem kind)

def decoded (files : ControlFiles) (kind : Kind) (path text : String) : Except ProbeFault Nat :=
  if kind = .cpu ∧ files.version = .v2 then
    match ControlText.usageMicros? text.toList with
    | some micros => .ok (ControlText.nanosOfMicros micros)
    | none => .error (.malformed path "missing usage_usec")
  else
    match ControlText.counter? text.toList with
    | some value => .ok value
    | none => .error (.malformed path s!"not an integer: {Text.quoted (Text.trim text.toList)}")

def reading (files : ControlFiles) (kind : Kind) (path : String) : FileEntry → Except ProbeFault Nat
  | .directory => .error (.file path .isDirectory)
  | .file content =>
    match String.fromUTF8? content with
    | some text => files.decoded kind path text
    | none => .error (.file path .notText)

theorem reading_ne_missing (files : ControlFiles) (kind : Kind) (path gone : String) (entry : FileEntry) :
    files.reading kind path entry ≠ .error (.missing gone) := by
  unfold reading decoded
  grind

theorem readText_eq (tree : FileTree) (path : String) :
    readText tree path =
      match tree.entry path with
      | .error cause => .error (.ofFile path cause)
      | .ok .directory => .error (.file path .isDirectory)
      | .ok (.file content) =>
        match String.fromUTF8? content with
        | some text => .ok text
        | none => .error (.file path .notText) := by
  unfold readText FileTree.readText FileTree.read
  cases tree.entry path with
  | error => rfl
  | ok entry =>
    cases entry with
    | directory => rfl
    | file content =>
      simp only [bind, Except.bind, pure, Except.pure]
      cases String.fromUTF8? content <;> rfl

def counterPath (files : ControlFiles) (handle : Handle) : String := join handle.path (files.counterFile handle.kind)

theorem read_eq_decoded (files : ControlFiles) (tree : FileTree) (handle : Handle) :
    files.read tree handle =
      (readText tree (files.counterPath handle)).bind (files.decoded handle.kind (files.counterPath handle)) := by
  have number (path : String) (decoding : ¬(handle.kind = .cpu ∧ files.version = .v2)) :
      readCounterFile tree path = (readText tree path).bind (files.decoded handle.kind path) := by
    unfold readCounterFile
    cases readText tree path with
    | error => rfl
    | ok text =>
      simp only [decoded, decoding, ↓reduceIte, bind, Except.bind]
      cases ControlText.counter? text.toList <;> rfl
  have usage (path : String) (decoding : handle.kind = .cpu ∧ files.version = .v2) :
      readUsageFile tree path = (readText tree path).bind (files.decoded handle.kind path) := by
    unfold readUsageFile
    cases readText tree path with
    | error => rfl
    | ok text =>
      simp only [decoded, decoding, and_self, ↓reduceIte, bind, Except.bind]
      cases ControlText.usageMicros? text.toList <;> rfl
  unfold read
  split
  next kind version => exact usage _ ⟨kind, version⟩
  next other => exact number _ fun both => other both.1 both.2

theorem read_eq (files : ControlFiles) (tree : FileTree) (handle : Handle) :
    files.read tree handle =
      match tree.entry (files.counterPath handle) with
      | .error cause => .error (.ofFile (files.counterPath handle) cause)
      | .ok entry => files.reading handle.kind (files.counterPath handle) entry := by
  rw [read_eq_decoded, readText_eq]
  cases tree.entry (files.counterPath handle) with
  | error => rfl
  | ok entry =>
    cases entry with
    | directory => rfl
    | file content =>
      simp only [reading]
      cases String.fromUTF8? content <;> rfl

section Writing

variable {α : Type} [Number α]

/-- The tree after limits are written one after another, whatever each of the writes answers. -/
def afterLimits (files : ControlFiles) (now : Nat) (calls : List (Handle × α)) (tree : FileTree) : FileTree :=
  calls.foldl (fun tree call => ((files.node now).write tree call.1 call.2).2) tree

theorem path_of_limitFiles (files : ControlFiles) (handle : Handle) (limit : α) :
    ∀ file ∈ files.limitFiles handle limit, ∃ name ∈ limitFileNames, file.1 = join handle.path name := by
  unfold limitFiles limitFileNames
  split <;> simp

theorem touches_of_writeFiles (directory : String) (contents : List (String × String)) (tree : FileTree)
    (named : ∀ file ∈ contents, ∃ name ∈ limitFileNames, file.1 = join directory name) :
    Touches limitFileNames tree (writeFiles tree contents).2 := by
  induction contents generalizing tree with
  | nil => exact .refl _ _
  | cons first rest ih =>
    obtain ⟨path, value⟩ := first
    obtain ⟨⟨name, mem, rfl⟩, others⟩ := List.forall_mem_cons.mp named
    simp only [writeFiles, writeValue]
    cases wrote : tree.write (join directory name) value.toUTF8 with
    | error => exact .refl _ _
    | ok next =>
      exact (FileTree.touches_of_write (isName_of_limitFileNames name mem) mem wrote).trans (ih next others)

/-- Limits are written to files of their own, and nothing else is. -/
theorem touches_of_calls (files : ControlFiles) (now : Nat) (calls : List (Handle × α)) (tree : FileTree) :
    Touches limitFileNames tree (files.afterLimits now calls tree) := by
  induction calls generalizing tree with
  | nil => exact .refl _ _
  | cons call rest ih =>
    exact (touches_of_writeFiles call.1.path _ tree (files.path_of_limitFiles call.1 call.2)).trans (ih _)

end Writing

/-- The outcome of a reading, and of one more reading later. Only a path that led nowhere can answer otherwise, by
running into a file. -/
inductive SameReading (path : String) : Except ProbeFault Nat → Except ProbeFault Nat → Prop
  | same (outcome : Except ProbeFault Nat) : SameReading path outcome outcome
  | blocked : SameReading path (.error (.missing path)) (.error (.file path .notDirectory))

/-- Two trees with the same counters: they have the same pods ready, and the same readings. -/
structure SameCounters (files : ControlFiles) (before after : FileTree) : Prop where
  entries : ∀ name ∈ counterFiles, ∀ place, after.lookup (place ++ [name]) = before.lookup (place ++ [name])
  ready : ∀ pod, files.resolve after pod = files.resolve before pod
  readings : ∀ handle, SameReading (files.counterPath handle) (files.read before handle) (files.read after handle)

theorem sameCounters_of_touches (files : ControlFiles) {before after : FileTree}
    (touches : Touches limitFileNames before after) : files.SameCounters before after := by
  have spared (kind : Kind) : files.counterFile kind ∉ limitFileNames :=
    notMem_limitFileNames _ (files.counterFile_mem kind)
  refine ⟨fun name mem place => touches.lookup_eq (notMem_limitFileNames name mem) place, ?_, ?_⟩
  · intro pod
    simp only [resolve, touches.exists?_join (files.counterFile_isName _) (spared _)]
  · intro handle
    rw [read_eq, read_eq]
    rcases touches.entry_join (files.counterFile_isName handle.kind) (spared handle.kind) handle.path with same | ⟨was, now⟩
    · rw [show after.entry (files.counterPath handle) = before.entry (files.counterPath handle) from same]
      exact .same _
    · rw [show before.entry (files.counterPath handle) = _ from was,
        show after.entry (files.counterPath handle) = _ from now]
      exact .blocked

def Shows (files : ControlFiles) (tree : FileTree) (kind : Kind) (directory : String) : Prop :=
  tree.Contains directory (files.counterFile kind) ∧ (files.counterPath ⟨kind, directory⟩).utf8ByteSize ≤ maxPath

theorem resolve_eq_some_iff (files : ControlFiles) {tree : FileTree} (proper : tree.IsProper) (pod : String)
    (paths : PerKind String) :
    files.resolve tree pod = some paths ↔
      paths = PerKind.of (fun kind => Template.resolve files.templates kind pod) ∧
        ∀ kind, files.Shows tree kind (paths.get kind) := by
  have shown (directory : String) (kind : Kind) :
      tree.exists? (join directory (files.counterFile kind)) = true ↔ files.Shows tree kind directory :=
    FileTree.exists?_join proper (files.counterFile_isName kind)
  simp only [resolve]
  split
  next there =>
    rw [List.all_eq_true] at there
    constructor
    · intro same
      obtain rfl := Option.some.inj same
      exact ⟨rfl, fun kind => (shown _ _).mp (there kind (Kind.mem_all kind))⟩
    · rintro ⟨rfl, -⟩
      rfl
  next absent =>
    constructor
    · intro impossible
      cases impossible
    · rintro ⟨rfl, shows⟩
      exact absurd (List.all_eq_true.mpr fun kind _ => (shown _ kind).mpr (shows kind)) absent

/-- Where a directory leads, the entry in it is read, whatever it is by then. -/
theorem read_of_leads (files : ControlFiles) {tree : FileTree} (proper : tree.IsProper) (handle : Handle)
    {place : List String} {entry : FileEntry} (leads : Leads tree [] (names handle.path) place)
    (found : tree.lookup (place ++ [files.counterFile handle.kind]) = some entry)
    (fits : (files.counterPath handle).utf8ByteSize ≤ maxPath) :
    files.read tree handle = files.reading handle.kind (files.counterPath handle) entry := by
  have located := FileTree.locate_of_leads proper (files.counterFile_isName handle.kind) leads fits
  rw [read_eq, show tree.entry (files.counterPath handle) = .ok entry by
    rw [counterPath, FileTree.entry_of_locate located, found]]

/-- A pod's directories are found exactly when each holds its counter, on a path that is not too long. Its counter is
then what is read, and is not missing for as long as it stays, if a path that goes up still leads there. Limits, for
whatever handles and values, leave all of this as it is. -/
theorem undisturbed_of_limits {α : Type} [Number α] (files : ControlFiles) (tree : FileTree) (proper : tree.IsProper) :
    (∀ pod paths, files.resolve tree pod = some paths ↔
      paths = PerKind.of (fun kind => Template.resolve files.templates kind pod) ∧
        (tree.Contains paths.cpu files.version.usageFile ∧ tree.Contains paths.gpu "total_runtime") ∧
        (join paths.cpu files.version.usageFile).utf8ByteSize ≤ 4095 ∧
        (join paths.gpu "total_runtime").utf8ByteSize ≤ 4095) ∧
    (∀ pod paths kind place later entry, files.resolve tree pod = some paths →
      Leads tree [] (names (paths.get kind)) place → later.IsProper →
      later.lookup (place ++ [files.counterFile kind]) = some entry →
      (".." ∈ names (paths.get kind) → Leads later [] (names (paths.get kind)) place) →
      files.read later ⟨kind, paths.get kind⟩ =
          files.reading kind (join (paths.get kind) (files.counterFile kind)) entry ∧
        ∀ gone, files.read later ⟨kind, paths.get kind⟩ ≠ .error (.missing gone)) ∧
    ∀ now (calls : List (Handle × α)), files.SameCounters tree (files.afterLimits now calls tree) := by
  refine ⟨?_, ?_, ?_⟩
  · intro pod paths
    rw [resolve_eq_some_iff files proper]
    constructor
    · rintro ⟨own, shows⟩
      exact ⟨own, ⟨(shows .cpu).1, (shows .gpu).1⟩, (shows .cpu).2, (shows .gpu).2⟩
    · rintro ⟨own, ⟨cpu, gpu⟩, cpuFits, gpuFits⟩
      refine ⟨own, fun kind => ?_⟩
      cases kind with
      | cpu => exact ⟨cpu, cpuFits⟩
      | gpu => exact ⟨gpu, gpuFits⟩
  · intro pod paths kind place later entry resolved leads proper' found returns
    have fits := (((resolve_eq_some_iff files proper pod paths).mp resolved).2 kind).2
    have leads' : Leads later [] (names (paths.get kind)) place := by
      by_cases up : ".." ∈ names (paths.get kind)
      · exact returns up
      · exact leads.stays up proper' found
    have outcome := files.read_of_leads proper' ⟨kind, paths.get kind⟩ leads' found fits
    refine ⟨outcome, fun gone => ?_⟩
    rw [outcome]
    exact reading_ne_missing _ _ _ _ _
  · exact fun now calls => files.sameCounters_of_touches (files.touches_of_calls now calls tree)

private def held : FileTree :=
  ⟨[(["$ROOT"], .directory), (["$ROOT", "p"], .directory),
    (["$ROOT", "p", "cpuacct.usage"], .file "1".toUTF8), (["$ROOT", "p", "total_runtime"], .file "2".toUTF8)]⟩

private theorem held_isProper : held.IsProper := ⟨by decide, by simp [held, FileTree.lookup]⟩

private def placed (template : String) : ControlFiles :=
  ⟨.v1, ⟨template, "$ROOT/" ++ String.ofList Template.placeholder⟩, "$ROOT/resource_conf"⟩

private def direct : ControlFiles := placed ("$ROOT/" ++ String.ofList Template.placeholder)

private theorem held_leads : Leads held [] ["$ROOT", "p"] ["$ROOT", "p"] := .onward rfl (.onward rfl (.here _))

theorem undisturbed_of_limits_resolved :
    held.IsProper ∧ direct.resolve held "p" = some ⟨"$ROOT/p", "$ROOT/p"⟩ ∧
      direct.read held ⟨.gpu, "$ROOT/p"⟩ = .ok 2 ∧
      direct.SameCounters held (direct.afterLimits 0 [(⟨.cpu, "$ROOT/p"⟩, (50 : Rat)), (⟨.gpu, "$ROOT/q"⟩, 5)] held) := by
  obtain ⟨resolved, readings, limits⟩ := undisturbed_of_limits (α := Rat) direct held held_isProper
  have contained (name : String) (entry : FileEntry) (found : held.lookup ["$ROOT", "p", name] = some entry) :
      held.Contains "$ROOT/p" name := ⟨["$ROOT", "p"], entry, held_leads, found⟩
  have paths : direct.resolve held "p" = some ⟨"$ROOT/p", "$ROOT/p"⟩ :=
    (resolved "p" _).mpr ⟨by decide, ⟨contained "cpuacct.usage" _ rfl, contained "total_runtime" _ rfl⟩,
      by decide +kernel, by decide +kernel⟩
  have runtime := (readings "p" _ .gpu ["$ROOT", "p"] held (.file "2".toUTF8) paths held_leads held_isProper rfl
    fun _ => held_leads).1
  exact ⟨held_isProper, paths, runtime.trans (by decide +kernel), limits 0 _⟩

private def slashes (count : Nat) : String := String.ofList (List.replicate count '/')

private theorem slashes_succ (count : Nat) : slashes (count + 1) = "/" ++ slashes count :=
  String.toList_inj.mp (by simp [slashes, List.replicate_succ])

private theorem names_slashes (count : Nat) (rest : String) : names (slashes count ++ rest) = names rest := by
  induction count with
  | zero => simp [slashes]
  | succ count ih =>
    rw [slashes_succ, ← String.empty_append (s := "/"), String.append_assoc, FileTree.names_append_slash, ih]
    rfl

private theorem size_slashes (count : Nat) : (slashes count).utf8ByteSize = count := by
  induction count with
  | zero => rfl
  | succ count ih =>
    rw [slashes_succ, String.utf8ByteSize_append, ih]
    exact Nat.add_comm 1 count

private theorem fill_slashes (name : List Char) (count : Nat) (rest : List Char) :
    Template.fill name (List.replicate count '/' ++ rest) = List.replicate count '/' ++ Template.fill name rest := by
  induction count with
  | zero => rfl
  | succ count ih => simp [List.replicate_succ, Template.fill, ih]

/-- The pod's directory, with a gap of slashes in its path. -/
private def distant (gap : Nat) : ControlFiles := placed ("$ROOT" ++ slashes gap ++ String.ofList Template.placeholder)

private theorem distant_directory (gap : Nat) :
    Template.resolve (distant gap).templates .cpu "p" = "$ROOT" ++ slashes gap ++ "p" := by
  apply String.toList_inj.mp
  have written : ((distant gap).templates.get .cpu).toList =
      "$ROOT".toList ++ (List.replicate gap '/' ++ Template.placeholder) := by
    simp [distant, placed, PerKind.get, slashes]
  rw [Template.resolve, written, String.toList_ofList]
  simp [Template.fill, fill_slashes, slashes, Template.placeholder]

private theorem distant_contained (gap : Nat) :
    held.Contains (Template.resolve (distant (gap + 1)).templates .cpu "p") "cpuacct.usage" := by
  have along : names ("$ROOT" ++ slashes (gap + 1) ++ "p") = ["$ROOT", "p"] := by
    rw [slashes_succ, ← String.append_assoc, String.append_assoc, FileTree.names_append_slash, names_slashes]
    decide
  rw [distant_directory]
  exact ⟨["$ROOT", "p"], .file "1".toUTF8, along ▸ held_leads, rfl⟩

private theorem distant_runtime (gap : Nat) :
    held.Contains (Template.resolve (distant gap).templates .gpu "p") "total_runtime" := by
  have directory : Template.resolve (distant gap).templates .gpu "p" = "$ROOT/p" :=
    show Template.resolve direct.templates .gpu "p" = "$ROOT/p" by decide
  rw [directory]
  exact ⟨["$ROOT", "p"], .file "2".toUTF8, held_leads, rfl⟩

private theorem distant_resolve {gap : Nat} (long : 4077 ≤ gap) : (distant gap).resolve held "p" = none := by
  rw [Option.eq_none_iff_forall_ne_some]
  intro paths found
  obtain ⟨rfl, shows⟩ := (resolve_eq_some_iff _ held_isProper "p" paths).mp found
  have fits : (join (Template.resolve (distant gap).templates .cpu "p") "cpuacct.usage").utf8ByteSize ≤ 4095 :=
    (shows .cpu).2
  have sizes : "$ROOT".utf8ByteSize = 5 ∧ "p".utf8ByteSize = 1 ∧ "/".utf8ByteSize = 1 ∧
      "cpuacct.usage".utf8ByteSize = 13 := by decide
  rw [distant_directory] at fits
  rcases FileTree.join_eq ("$ROOT" ++ slashes gap ++ "p") "cpuacct.usage" with joined | joined
  · simp only [joined, String.utf8ByteSize_append, size_slashes] at fits
    omega
  · simp only [joined, String.utf8ByteSize_append, size_slashes] at fits
    omega

private def beside : FileTree := ⟨held.entries ++ [(["$ROOT", "a"], .directory)]⟩

/-- The pod's directory by way of the one beside it. -/
private def roundabout : ControlFiles := placed ("$ROOT/a/../" ++ String.ofList Template.placeholder)

/-- An entry is not found on a path that is too long; it is missing once a directory is gone that the path went
through and back; and where nothing was, a limit's file can stand in the way later. -/
theorem unfound_of_entries :
    (held.IsProper ∧ held.Contains (Template.resolve (distant 4077).templates .cpu "p") "cpuacct.usage" ∧
      held.Contains (Template.resolve (distant 4077).templates .gpu "p") "total_runtime" ∧
      (distant 4077).resolve held "p" = none) ∧
    (beside.IsProper ∧ roundabout.resolve beside "p" = some ⟨"$ROOT/a/../p", "$ROOT/p"⟩ ∧
      beside.lookup ["$ROOT", "p", "cpuacct.usage"] = some (.file "1".toUTF8) ∧
      held.lookup ["$ROOT", "p", "cpuacct.usage"] = some (.file "1".toUTF8) ∧
      roundabout.read held ⟨.cpu, "$ROOT/a/../p"⟩ = .error (.missing "$ROOT/a/../p/cpuacct.usage")) ∧
    direct.read held ⟨.cpu, "$ROOT/p/cpu.cfs_quota_us"⟩ =
        .error (.missing "$ROOT/p/cpu.cfs_quota_us/cpuacct.usage") ∧
      direct.read (direct.afterLimits 0 [(⟨.cpu, "$ROOT/p"⟩, (5 : Rat))] held) ⟨.cpu, "$ROOT/p/cpu.cfs_quota_us"⟩ =
        .error (.file "$ROOT/p/cpu.cfs_quota_us/cpuacct.usage" .notDirectory) := by
  refine ⟨⟨held_isProper, distant_contained 4076, distant_runtime 4077, distant_resolve (Nat.le_refl _)⟩, ?_, ?_⟩
  · exact ⟨⟨by decide, by simp [beside, held, FileTree.lookup]⟩, by decide +kernel, rfl, rfl, by decide +kernel⟩
  · exact ⟨by decide +kernel, by decide +kernel⟩

end ControlFiles
end PodBudget.Node
