import PodBudget.Node.Probe

/-!
A tree of directories and files, without links, and the reading and writing of files by path. A path is
followed name by name: every name before the last has to be a directory.
-/
namespace PodBudget.Node

inductive FileEntry where
  | directory
  | file (content : ByteArray)

/-- The entries below the root by the names that lead to them. The root itself is always a directory. -/
structure FileTree where
  entries : List (List String × FileEntry)

namespace FileTree

def empty : FileTree := ⟨[]⟩

def lookup (tree : FileTree) (place : List String) : Option FileEntry :=
  if place = [] then some .directory
  else (tree.entries.find? fun entry => entry.1 == place).map (·.2)

def put (tree : FileTree) (place : List String) (entry : FileEntry) : FileTree :=
  ⟨tree.entries.filter (fun other => other.1 != place) ++ [(place, entry)]⟩

theorem lookup_put (tree : FileTree) (place other : List String) (entry : FileEntry) (below : place ≠ []) :
    (tree.put place entry).lookup other = if other = place then some entry else tree.lookup other := by
  by_cases root : other = []
  · subst root
    simp [lookup, Ne.symm below]
  · simp only [lookup, root, ↓reduceIte, put, List.find?_append, List.find?_filter]
    by_cases same : other = place
    · subst same
      have nothing : (tree.entries.find? fun _ => false) = none := List.find?_eq_none.mpr (by simp)
      simp [nothing]
    · have differs : (place == other) = false := by simpa using Ne.symm same
      simp only [same, ↓reduceIte, List.find?_cons, differs, List.find?_nil, Option.or_none]
      congr 2
      funext candidate
      by_cases h : candidate.1 = other
      · simp [h, same]
      · simp [h]

def pieces : List Char → List (List Char)
  | [] => [[]]
  | c :: rest =>
    if c = '/' then [] :: pieces rest
    else
      match pieces rest with
      | [] => [[c]]
      | first :: others => (c :: first) :: others

theorem pieces_ne_nil (path : List Char) : pieces path ≠ [] := by
  cases path with
  | nil => simp [pieces]
  | cons c rest =>
    simp only [pieces]
    split
    · simp
    · split <;> simp

theorem pieces_append_slash (first second : List Char) :
    pieces (first ++ '/' :: second) = pieces first ++ pieces second := by
  induction first with
  | nil => simp [pieces]
  | cons c rest ih =>
    by_cases h : c = '/'
    · simp [pieces, h, ih]
    · simp only [List.cons_append, pieces, h, ↓reduceIte, ih]
      cases split : pieces rest with
      | nil => exact absurd split (pieces_ne_nil rest)
      | cons head tail => rfl

def names (path : String) : List String :=
  ((pieces path.toList).filter (!·.isEmpty)).map String.ofList

def join (directory name : String) : String :=
  if directory.isEmpty || directory.endsWith "/" then directory ++ name else directory ++ "/" ++ name

def maxName : Nat := 255

def maxPath : Nat := 4095

def step (here : List String) (name : String) : List String :=
  if name = "." then here else if name = ".." then here.dropLast else here ++ [name]

/-- The place that a path is about, whatever is there. -/
def placeOf (path : String) : List String := (names path).foldl step []

def follow (tree : FileTree) (here : List String) : List String → Except FileFault (List String)
  | [] => .ok here
  | name :: rest =>
    if maxName < name.utf8ByteSize then .error .nameTooLong
    else
      let place := step here name
      if rest = [] then .ok place
      else
        match tree.lookup place with
        | none => .error .notFound
        | some (.file _) => .error .notDirectory
        | some .directory => tree.follow place rest

def checkPath (path : String) : Except FileFault Unit :=
  if path.toList.contains '\x00' then .error .nulInName
  else if path.isEmpty then .error .notFound
  else if maxPath < path.utf8ByteSize then .error .nameTooLong
  else .ok ()

/-- The place that a path leads to. A slash at the end asks for a directory, as a final dot does. -/
def locate (tree : FileTree) (path : String) : Except FileFault (List String) := do
  checkPath path
  tree.follow [] (if path.endsWith "/" then names path ++ ["."] else names path)

/-- The place of a file that may have to be made. A path that can only lead to a directory is refused. -/
def locateFile (tree : FileTree) (path : String) : Except FileFault (List String) := do
  checkPath path
  let parent ← tree.follow [] ((names path).dropLast ++ ["."])
  match (names path).getLast? with
  | none => throw .isDirectory
  | some name =>
    if path.endsWith "/" ∨ name = "." ∨ name = ".." then throw .isDirectory
    else if maxName < name.utf8ByteSize then throw .nameTooLong
    else return parent ++ [name]

def entry (tree : FileTree) (path : String) : Except FileFault FileEntry := do
  match tree.lookup (← tree.locate path) with
  | some entry => return entry
  | none => throw .notFound

def exists? (tree : FileTree) (path : String) : Bool := (tree.entry path).isOk

def read (tree : FileTree) (path : String) : Except FileFault ByteArray := do
  match ← tree.entry path with
  | .directory => throw .isDirectory
  | .file content => return content

def readText (tree : FileTree) (path : String) : Except FileFault String := do
  match String.fromUTF8? (← tree.read path) with
  | some text => return text
  | none => throw .notText

def write (tree : FileTree) (path : String) (content : ByteArray) : Except FileFault FileTree := do
  let place ← tree.locateFile path
  match tree.lookup place with
  | some .directory => throw .isDirectory
  | _ => return tree.put place (.file content)

def makeDirectory (tree : FileTree) (path : String) : FileTree :=
  let visit (progress : List String × FileTree) (name : String) : List String × FileTree :=
    let place := step progress.1 name
    match progress.2.lookup place with
    | none => (place, progress.2.put place .directory)
    | some _ => (place, progress.2)
  ((names path).foldl visit ([], tree)).2

/-- Takes an entry away, with everything below it. A path that ends in dots names a directory from within,
which is emptied and stays. -/
def remove (tree : FileTree) (path : String) : FileTree :=
  match tree.locate path with
  | .error _ => tree
  | .ok place =>
    let stays := (names path).getLast? == some "." || (names path).getLast? == some ".."
    ⟨tree.entries.filter fun entry => !place.isPrefixOf entry.1 || (stays && entry.1 == place)⟩

def listing (tree : FileTree) (path : String) : List String :=
  match tree.locate path with
  | .error _ => []
  | .ok place =>
    let below := tree.entries.filter fun entry => place.isPrefixOf entry.1 && entry.1 != place
    let shown := below.map fun entry =>
      "/".intercalate (entry.1.drop place.length) ++ (match entry.2 with | .directory => "/" | .file _ => "")
    shown.mergeSort fun a b => !decide (b < a)

end FileTree
end PodBudget.Node
