import GrammarChart.Fault
import GrammarChart.Files.Content

/-!
# File trees

A file tree is a set of directories and files under a root, seen from a working directory. The
operations refuse what a file system refuses: a path leads through directories only, a directory
is neither read nor written, and a file is created in a directory that exists. `get?_put` says
what a change does to each location.
-/

set_option autoImplicit false

namespace GrammarChart

/-- A place in a file tree: the names that lead to it from the root. -/
abbrev Location := List String

/-- What stands at a location. -/
inductive Entry where
  | directory
  | file (content : Content)
  deriving DecidableEq, Repr

/-- Directories and files. The root is always a directory; every other entry is listed. -/
structure FileTree where
  entries : List (Location × Entry)
  workingDirectory : Location
  deriving Repr

namespace FileTree

/-- What is listed for a location. -/
def lookup : List (Location × Entry) → Location → Option Entry
  | [], _ => none
  | (l, e) :: rest, location => if l = location then some e else lookup rest location

/-- Lists an entry for a location in the place of the one before. -/
def replace : List (Location × Entry) → Location → Entry → List (Location × Entry)
  | [], location, entry => [(location, entry)]
  | (l, e) :: rest, location, entry =>
    if l = location then (l, entry) :: rest else (l, e) :: replace rest location entry

/-- What stands at a location. -/
def get? (tree : FileTree) (location : Location) : Option Entry :=
  if location = [] then some .directory else lookup tree.entries location

/-- The tree with an entry at a location. -/
def put (tree : FileTree) (location : Location) (entry : Entry) : FileTree :=
  { tree with entries := replace tree.entries location entry }

/-- The tree without a location and everything below it. -/
def erase (tree : FileTree) (location : Location) : FileTree :=
  { tree with entries := tree.entries.filter fun e => !location.isPrefixOf e.1 }

/-- Listing an entry changes what is listed for its location only. -/
theorem lookup_replace (entries : List (Location × Entry)) (location other : Location)
    (entry : Entry) : lookup (replace entries location entry) other =
      if location = other then some entry else lookup entries other := by
  induction entries with
  | nil => simp [replace, lookup]
  | cons head rest ih =>
    obtain ⟨l, e⟩ := head
    by_cases h : l = location
    · subst h; by_cases h' : l = other <;> simp [replace, lookup, h']
    · by_cases h' : l = other
      · subst h'; simp [replace, lookup, h, Ne.symm h]
      · simp [replace, lookup, h, h', ih]

/-- A change shows at its location and nowhere else. -/
theorem get?_put (tree : FileTree) (location other : Location) (entry : Entry)
    (h : location ≠ []) : (tree.put location entry).get? other =
      if location = other then some entry else tree.get? other := by
  by_cases ho : other = []
  · simp [get?, ho, h]
  · simp [get?, put, ho, lookup_replace]

/-- The longest name of a directory entry, in octets. -/
def maxNameLength : Nat := 255

/-- The longest path, in octets. -/
def maxPathLength : Nat := 4095

/-- Follows names from a directory on: every name but the last one must lead to a directory. -/
def follow (tree : FileTree) : Location → List String → Except FileProblem Location
  | current, [] => .ok current
  | current, ".." :: rest => follow tree current.dropLast rest
  | current, part :: rest =>
    if maxNameLength < part.utf8ByteSize then .error .nameTooLong
    else
      let next := current ++ [part]
      if rest = [] then .ok next
      else match tree.get? next with
        | some .directory => follow tree next rest
        | some (.file _) => .error .notADirectory
        | none => .error .notFound

/-- Where a path starts. -/
def start (tree : FileTree) (path : FilePath) : Location :=
  if path.anchor = .relative then tree.workingDirectory else []

/-- The location that a path leads to. A null character ends the name for the system, so a path
with one is refused, and so is a path that is too long. -/
def locate (tree : FileTree) (path : FilePath) : Except Fault Location :=
  if path.parts.any (·.toList.contains '\x00') then .error .nullCharacter
  else if maxPathLength < path.text.utf8ByteSize then .error (.file .nameTooLong path.text)
  else match tree.follow (tree.start path) path.parts with
    | .ok location => .ok location
    | .error problem => .error (.file problem path.text)

/-- The location that a path names when double dots are taken back by name alone, whether the
directories exist or not. -/
def resolve (tree : FileTree) (path : FilePath) : Except Fault Location :=
  if path.parts.any (·.toList.contains '\x00') then .error .nullCharacter
  else .ok (path.parts.foldl (fun l part => if part = ".." then l.dropLast else l ++ [part])
    (tree.start path))

/-- The absolute path of a location. -/
def absolute (location : Location) : FilePath :=
  ⟨.root, location⟩

/-- What a path leads to; nothing when it leads nowhere. -/
def find? (tree : FileTree) (path : FilePath) : Except Fault (Option Entry) :=
  match tree.locate path with
  | .ok location => .ok (tree.get? location)
  | .error (.file .nameTooLong text) => .error (.file .nameTooLong text)
  | .error _ => .ok none

/-- The path leads to something. -/
def contains (tree : FileTree) (path : FilePath) : Except Fault Bool :=
  (tree.find? path).map Option.isSome

/-- Reads a text file, with its line ends unified. -/
def readText (tree : FileTree) (path : FilePath) : Except Fault String := do
  let location ← tree.locate path
  match tree.get? location with
  | none => throw (.file .notFound path.text)
  | some .directory => throw (.file .isADirectory path.text)
  | some (.file content) =>
    match content.reading with
    | .ok text => return text
    | .error fault => throw (.undecodable fault)

/-- Opens a file for writing: it exists and is empty afterwards. -/
def truncate (tree : FileTree) (path : FilePath) : Except Fault (FileTree × Location) := do
  let location ← tree.locate path
  match tree.get? location with
  | some .directory => throw (.file .isADirectory path.text)
  | _ => return (tree.put location (.file (.plain "")), location)

/-- Writes a text file in place of what it held. -/
def writeText (tree : FileTree) (path : FilePath) (text : String) : Except Fault FileTree := do
  let (tree, location) ← tree.truncate path
  return tree.put location (.file (.plain text))

/-- Makes one directory, in a directory that exists. -/
def makeDirectory (tree : FileTree) (path : FilePath) : Except Fault FileTree := do
  let location ← tree.locate path
  match tree.get? location with
  | some _ => throw (.file .alreadyExists path.text)
  | none => return tree.put location .directory

/-- Makes one directory, unless it is there. -/
def ensureDirectory (tree : FileTree) (path : FilePath) : Except Fault FileTree :=
  match tree.makeDirectory path with
  | .ok tree => .ok tree
  | .error (.file problem text) =>
    if problem = .notFound then .error (.file problem text)
    else match tree.find? path with
      | .ok (some .directory) => .ok tree
      | _ => .error (.file problem text)
  | .error fault => .error fault

/-- Makes a directory and the missing ones above it. Directories made before a failure stay. -/
def ensureDirectories (tree : FileTree) (path : FilePath) : FileTree × Option Fault :=
  go path.anchor path.parts.reverse tree
where
  /-- The same for a path given by its names, the last one first. -/
  go (anchor : Anchor) : List String → FileTree → FileTree × Option Fault
    | [], tree =>
      match tree.ensureDirectory ⟨anchor, []⟩ with
      | .ok tree => (tree, none)
      | .error fault => (tree, some fault)
    | name :: above, tree =>
      let path : FilePath := ⟨anchor, (name :: above).reverse⟩
      match tree.ensureDirectory path with
      | .ok tree => (tree, none)
      | .error (.file .notFound _) =>
        match go anchor above tree with
        | (tree, some fault) => (tree, some fault)
        | (tree, none) =>
          match tree.ensureDirectory path with
          | .ok tree => (tree, none)
          | .error fault => (tree, some fault)
      | .error fault => (tree, some fault)

end FileTree
end GrammarChart
