import GrammarChart.Tool.Shell.Machine
import GrammarChart.Tool.Shell.Pattern

/-!
# Fields

What a word expands to is a sequence of atoms: letters, edges that show that a word is there even
if it is empty, and gaps between the arguments of a script. The atoms are split into fields at the
separators among the letters that may be split, and a field that is a pattern is replaced by the
files that it describes.
-/

set_option autoImplicit false

namespace GrammarChart.Tool.Shell

/-- A piece of an expanded word. -/
inductive Atom where
  | letter (c : Char) (quoted splits : Bool)
  | edge
  | gap
  deriving DecidableEq, Repr

/-- The atoms of a text. -/
def atomsOf (text : List Char) (quoted splits : Bool) : List Atom :=
  text.map fun c => .letter c quoted splits

/-- The letters of atoms that are not split. -/
def lettersOf (atoms : List Atom) : List PatternLetter :=
  atoms.filterMap fun
    | .letter c quoted _ => some (c, quoted)
    | .edge => none
    | .gap => some (' ', true)

/-- The text of atoms that are not split. -/
def textOfAtoms (atoms : List Atom) : String :=
  String.ofList ((lettersOf atoms).map Prod.fst)

/-- A separator that is a blank. -/
def isBlankSeparator (separators : List Char) (c : Char) : Bool :=
  separators.contains c && (c == ' ' || c == '\t' || c == '\n')

/-- Splits atoms into fields. The current field is given backwards, when there is one; the flag
tells that a blank has just ended a field, so that another separator belongs to that end. -/
def split (separators : List Char) : Option (List PatternLetter) → Bool → List Atom →
    List (List PatternLetter)
  | field, _, [] => (field.map List.reverse).toList
  | field, ended, atom :: rest =>
    let close : List (List PatternLetter) := (field.map List.reverse).toList
    match atom with
    | .edge => split separators (some (field.getD [])) false rest
    | .gap => close ++ split separators none false rest
    | .letter c quoted splits =>
      if !splits || !separators.contains c then
        split separators (some ((c, quoted) :: field.getD [])) false rest
      else if isBlankSeparator separators c then
        close ++ split separators none (ended || field.isSome) rest
      else if ended && field.isNone then split separators none false rest
      else (field.getD []).reverse :: split separators none false rest

/-- Atoms without letters to split and without gaps make up one field, the text of their
letters. -/
theorem split_letters (separators : List Char) (letters field : List PatternLetter)
    (ended : Bool) :
    split separators (some field) ended (letters.map fun l => .letter l.1 l.2 false) =
      [field.reverse ++ letters] := by
  induction letters generalizing field ended with
  | nil => simp [split]
  | cons l rest ih => simp [split, ih]

/-- The letters form a pattern. -/
def isPattern (letters : List PatternLetter) : Bool :=
  letters.any fun (c, quoted) => !quoted && (c == '*' || c == '?' || c == '[')

/-- The names of what a directory of a tree holds, in the order of their octets. -/
def namesIn (tree : FileTree) (directory : Location) : List String :=
  let names := tree.entries.filterMap fun (location, _) =>
    if location ≠ [] ∧ location.dropLast = directory then
      location.getLast?.map Octets.encode
    else none
  names.mergeSort fun a b => decide (a ≤ b)

/-- The location of a directory and how its path is written, continued by the names that parts of
a pattern describe. -/
def describedPaths (tree : FileTree) : List (List PatternLetter) → Location → String →
    List String
  | [], _, path => [path]
  | part :: rest, directory, path =>
    let ending := if rest.isEmpty then "" else "/"
    let follow (name : String) : List String :=
      let location := directory ++ [Octets.decode name]
      let isThere := if rest.isEmpty then (tree.get? location).isSome
        else tree.get? location = some .directory
      if isThere then describedPaths tree rest location (path ++ name ++ ending) else []
    let text := String.ofList (part.map Prod.fst)
    if text = "" then describedPaths tree rest directory (path ++ ending)
    else if text = "." then describedPaths tree rest directory (path ++ text ++ ending)
    else if text = ".." then
      describedPaths tree rest directory.dropLast (path ++ text ++ ending)
    else if isPattern part then
      let names := (namesIn tree directory).filter fun name =>
        (!name.startsWith "." || text.startsWith ".") && accepts (patternOf part) name.toList
      names.flatMap follow
    else follow text

/-- The texts that a field stands for: the paths that it describes, or itself. -/
def described (tree : FileTree) (field : List PatternLetter) : List String :=
  let text := String.ofList (field.map Prod.fst)
  if !isPattern field then [text]
  else
    let parts := field.splitOnP fun (c, _) => c == '/'
    let start := if text.startsWith "/" then [] else tree.workingDirectory
    match describedPaths tree parts start "" with
    | [] => [text]
    | paths => paths

/-- The fields of an expanded word. -/
def fieldsOfAtoms (atoms : List Atom) : Eval (List String) := do
  let fields := split (← separators) none false atoms
  if ← hasOption 'f' then return fields.map fun field => String.ofList (field.map Prod.fst)
  else return fields.flatMap (described (← get).tree)

end GrammarChart.Tool.Shell
