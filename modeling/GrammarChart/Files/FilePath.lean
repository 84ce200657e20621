/-!
# File paths

A path is an anchor and the names that lead on from it. Reading a path drops empty names and
single dots and keeps double dots, so a path has no two spellings. The last name splits into a stem
and a suffix at its last dot, unless that dot is its first or its last character.
-/

set_option autoImplicit false

namespace GrammarChart

/-- Where a path starts: at the working directory, at the root, or at the root written with two
slashes, which is kept apart. -/
inductive Anchor where
  | relative
  | root
  | doubleRoot
  deriving DecidableEq, Repr

/-- A path in a file system. -/
structure FilePath where
  anchor : Anchor
  parts : List String
  deriving DecidableEq, Repr

namespace FilePath

/-- Why a path has no version with another suffix. -/
inductive Fault where
  | emptyName (path : FilePath)
  | badSuffix (suffix : String)
  deriving DecidableEq, Repr

/-- The anchor of a text: two leading slashes are special, three or more are not. -/
def anchorOf (text : List Char) : Anchor :=
  match (text.takeWhile (· == '/')).length with
  | 0 => .relative
  | 2 => .doubleRoot
  | _ => .root

/-- A name that is kept in a path. -/
def isPart (name : List Char) : Bool :=
  !name.isEmpty && name != ['.']

/-- Reads a path. -/
def ofText (text : String) : FilePath :=
  let names := text.toList.splitOn '/'
  ⟨anchorOf text.toList, (names.filter isPart).map String.ofList⟩

/-- The text of an anchor. -/
def Anchor.text : Anchor → String
  | .relative => ""
  | .root => "/"
  | .doubleRoot => "//"

/-- The text of a path; a relative path without names is written as a dot. -/
def text (path : FilePath) : String :=
  if path.anchor = .relative ∧ path.parts = [] then "."
  else Anchor.text path.anchor ++ "/".intercalate path.parts

/-- The path continued by another one, which replaces it when it has an anchor of its own. -/
def join (path other : FilePath) : FilePath :=
  if other.anchor = .relative then ⟨path.anchor, path.parts ++ other.parts⟩ else other

/-- The path of the directory; an anchor is its own directory. -/
def parent (path : FilePath) : FilePath :=
  ⟨path.anchor, path.parts.dropLast⟩

/-- The last name of the path, or nothing. -/
def name (path : FilePath) : String :=
  path.parts.getLast?.getD ""

/-- The number of characters before the last dot of a name, when the name has a suffix. -/
def splitPoint? (name : List Char) : Option Nat :=
  let tail := name.reverse.takeWhile (· != '.')
  if name.contains '.' then
    let point := name.length - tail.length - 1
    if 0 < point ∧ 0 < tail.length then some point else none
  else none

/-- A name without its suffix. -/
def stemOf (name : String) : String :=
  match splitPoint? name.toList with
  | some point => String.ofList (name.toList.take point)
  | none => name

/-- The last name without its suffix. -/
def stem (path : FilePath) : String :=
  stemOf path.name

/-- The path with the suffix of its last name replaced, or added if it has none. -/
def withSuffix (path : FilePath) (suffix : String) : Except Fault FilePath :=
  let good := suffix = "" ∨
    (suffix.toList.head? = some '.' ∧ suffix ≠ "." ∧ '/' ∉ suffix.toList)
  if ¬ good then .error (.badSuffix suffix)
  else if path.parts = [] then .error (.emptyName path)
  else .ok ⟨path.anchor, path.parts.dropLast ++ [stemOf path.name ++ suffix]⟩

/-- The directories above the path, from the nearest one on. -/
def ancestors (path : FilePath) : List FilePath :=
  (List.range path.parts.length).map fun k =>
    ⟨path.anchor, path.parts.take (path.parts.length - k - 1)⟩

end FilePath
end GrammarChart
