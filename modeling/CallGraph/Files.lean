import CallGraph.Text.Lines

/-!
# Files

A tree of folders and files, and how paths lead through it. Where files are kept is not the same
for a program that runs and for one that is reasoned about, so programs use any store of files.

* `FileFault`: why a path cannot be read or written.
* `FileTree`: files and folders by their location, the names on the way from the root.
* `FileTree.get?`, `FileTree.put`: one entry, with `get?_put_self` and `get?_put_of_ne`.
* `FileTree.walk`: follows the names of a path.
* `FileTree.read`, `FileTree.write`, `FileTree.makeFolder`, `FileTree.listing`: what programs do.
* `FileStore`: effects that read and write files, for which the state of a `FileTree` is a store.
* `readText`: the text of a file.
-/

namespace CallGraph

/-! ### Faults -/

/-- Why a path cannot be read or written. -/
inductive FileFault where
  | notFound
  | notFolder
  | isFolder
  | notText
  | other (message : String)
  deriving DecidableEq, Repr

/-- The wording of a fault. -/
def FileFault.message : FileFault → String
  | .notFound => "No such file or directory (os error 2)"
  | .notFolder => "Not a directory (os error 20)"
  | .isFolder => "Is a directory (os error 21)"
  | .notText => "stream did not contain valid UTF-8"
  | .other message => message

/-! ### Trees -/

/-- The names on the way from the root to an entry. -/
abbrev Location : Type := List String

/-- What stands at a location. -/
inductive Entry where
  | file (content : ByteArray)
  | folder

/-- Whether an entry is a folder. -/
def Entry.isFolder : Entry → Bool
  | .folder => true
  | .file _ => false

/-- Entries by location. The root is a folder without being listed. -/
structure FileTree where
  entries : List (Location × Entry) := []
  deriving Inhabited

namespace FileTree

/-- The entry at a location. -/
def get? (t : FileTree) (location : Location) : Option Entry :=
  if location = [] then some .folder else t.entries.lookup location

/-- The tree with another entry at a location. -/
def put (t : FileTree) (location : Location) (entry : Entry) : FileTree :=
  ⟨(location, entry) :: t.entries⟩

/-- What was put is there. -/
theorem get?_put_self (t : FileTree) {location : Location} (entry : Entry) (h : location ≠ []) :
    (t.put location entry).get? location = some entry := by
  simp only [get?, put, if_neg h, List.lookup_cons, beq_self_eq_true]

/-- All else stays as it was. -/
theorem get?_put_of_ne (t : FileTree) {location other : Location} (entry : Entry)
    (h : other ≠ location) : (t.put location entry).get? other = t.get? other := by
  simp only [get?, put, List.lookup_cons, beq_false_of_ne h]

/-! ### Paths -/

/-- The names of a path between its slashes. -/
def names (path : String) : List String := (Text.splitAt '/' path.toList).map String.ofList

/-- The location a name leads to. The root is its own parent. -/
def step (here : Location) (name : String) : Location :=
  if name = "" ∨ name = "." then here
  else if name = ".." then here.dropLast
  else here ++ [name]

/-- The location names lead to from a folder; every one of them needs a folder to start from. -/
def walk (t : FileTree) (here : Location) : List String → Except FileFault Location
  | [] => .ok here
  | name :: more =>
    match t.get? here with
    | none => .error .notFound
    | some (.file _) => .error .notFolder
    | some .folder => t.walk (step here name) more

/-! ### Operations -/

/-- The content of the file at a path. -/
def read (t : FileTree) (path : String) : Except FileFault ByteArray :=
  if path = "" then .error .notFound
  else
    match t.walk [] (names path) with
    | .error fault => .error fault
    | .ok location =>
      match t.get? location with
      | none => .error .notFound
      | some .folder => .error .isFolder
      | some (.file content) => .ok content

/-- The names of a path without the empty ones at its end. -/
def trimmedNames (path : String) : List String :=
  ((names path).reverse.dropWhile (· = "")).reverse

/-- A file is written as a whole, over what it held before. A path that ends in a slash names a
folder. -/
def write (t : FileTree) (path : String) (content : ByteArray) : Except FileFault FileTree :=
  if path = "" then .error .notFound
  else
    match t.walk [] (trimmedNames path) with
    | .error fault => .error fault
    | .ok location =>
      if path.toList.getLast? = some '/' ∨ (t.get? location).any Entry.isFolder then
        .error .isFolder
      else .ok (t.put location (.file content))

/-- Folders are made where names lead, as far as they are missing. -/
def makeFolders (t : FileTree) (here : Location) : List String → Except FileFault FileTree
  | [] => .ok t
  | name :: more =>
    let next := step here name
    match t.get? next with
    | none => (t.put next .folder).makeFolders next more
    | some (.file _) => .error .notFolder
    | some .folder => t.makeFolders next more

/-- The folder at a path, with those above it. -/
def makeFolder (t : FileTree) (path : String) : Except FileFault FileTree :=
  if path = "" then .error .notFound else t.makeFolders [] (names path)

/-- A location as a path; those of folders end in a slash. -/
def pathOf (location : Location) (entry : Entry) : String :=
  "/".intercalate location ++ (if entry.isFolder then "/" else "")

/-- The paths of all entries in order. -/
def listing (t : FileTree) : List String :=
  let locations := (t.entries.map Prod.fst).eraseDups
  let paths := locations.filterMap fun location => (t.get? location).map (pathOf location)
  paths.mergeSort fun a b => a ≤ b

end FileTree

/-! ### Stores -/

/-- Effects that read and write files by their paths. -/
class FileStore (m : Type → Type) where
  readBytes : String → m (Except FileFault ByteArray)
  writeBytes : String → ByteArray → m (Except FileFault Unit)

/-- A tree that is carried along is a store; writing that fails leaves it as it was. -/
instance : FileStore (StateM FileTree) where
  readBytes path := do return (← get).read path
  writeBytes path content := do
    match (← get).write path content with
    | .ok tree =>
      set tree
      return .ok ()
    | .error fault => return .error fault

/-- The text whose encoding bytes are. -/
def textOf (bytes : ByteArray) : Except FileFault String :=
  match String.fromUTF8? bytes with
  | some text => .ok text
  | none => .error .notText

/-- The text of a file. -/
def readText {m : Type → Type} [Monad m] [FileStore m] (path : String) :
    m (Except FileFault String) := do
  match ← FileStore.readBytes path with
  | .ok bytes => return textOf bytes
  | .error fault => return .error fault

end CallGraph
