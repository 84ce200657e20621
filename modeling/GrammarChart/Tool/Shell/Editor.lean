import GrammarChart.Tool.Edit.Reading
import GrammarChart.Tool.Edit.Running
import GrammarChart.Tool.Shell.Given
import GrammarChart.Tool.Shell.Utilities

/-!
# The stream editor

`sed` edits its input line by line as an edit script says, and writes it, or puts it in the place of
the files that it edits.
-/

set_option autoImplicit false

namespace GrammarChart.Tool.Shell

namespace Editor

open Edit (Script Manner Outcome State)

/-- The options of `sed`. -/
def known : Known where
  plain := ['n', 'E', 'r', 's', 'u', 'z', 'P', 'D', 'S', 'F']
  valued := ['e', 'f', 'l']
  joined := ['i']
  long := [("quiet", 'n'), ("silent", 'n'), ("expression", 'e'), ("file", 'f'),
    ("regexp-extended", 'E'), ("separate", 's'), ("unbuffered", 'u'), ("null-data", 'z'),
    ("zero-terminated", 'z'), ("line-length", 'l'), ("in-place", 'i'), ("posix", 'P'),
    ("debug", 'D'), ("sandbox", 'S'), ("follow-symlinks", 'F')]

/-- How `sed` is used. -/
def usage : String :=
  "Usage: sed [OPTION]... \x7bscript-only-if-no-other-script\x7d [input-file]...\n\n" ++
  "  -n, --quiet, --silent\n                 suppress automatic printing of pattern space\n" ++
  "      --debug\n                 annotate program execution\n" ++
  "  -e script, --expression=script\n" ++
  "                 add the script to the commands to be executed\n" ++
  "  -f script-file, --file=script-file\n" ++
  "                 add the contents of script-file to the commands to be executed\n" ++
  "  --follow-symlinks\n                 follow symlinks when processing in place\n" ++
  "  -i[SUFFIX], --in-place[=SUFFIX]\n" ++
  "                 edit files in place (makes backup if SUFFIX supplied)\n"

/-- A part of the script: the file that it comes from, if it does, and its text. -/
abbrev Source := Option String × List Char

/-- The place in the sources at which so many characters have been read: the number of the source,
which is found as given from the first one on. -/
def place (taken : Nat) : Nat → List Source → String
  | number, (name, text) :: rest =>
    let isHere := taken ≤ text.length || rest.isEmpty
    let number := if name.isNone then number + 1 else number
    if isHere then
      match name with
      | none => "-e expression #" ++ toString number ++ ", char " ++ toString taken ++ ": "
      | some name =>
        let line := (text.take (taken - 1)).count '\n' + 1
        "file " ++ name ++ " line " ++ toString line ++ ": "
    else place (taken - (text.length + 1)) number rest
  | _, [] => ""

/-- The complaint about a script. -/
def explain (sources : List Source) (length : Nat) (problem : Edit.Problem) : String :=
  match problem.place with
  | .beforeEnd count => place (length - count) 0 sources ++ problem.message
  | .nowhere => "-e expression #1, char 0: " ++ problem.message
  | .everywhere => problem.message

/-- The sources of the script, and the operands that are left. Nothing is told when a file is
missing. -/
def sources? (given : Given) : Eval (Option (List Source) × List String) := do
  let found ← given.options.mapM fun (letter, value) => do
    if letter = 'e' then return some [((none, value.toList) : Source)]
    if letter ≠ 'f' then return some []
    match ← readFile value with
    | .ok text =>
      let letters := text.toList
      let body := if letters.getLast? = some '\n' then letters.dropLast else letters
      return some [(some value, body)]
    | .error problem =>
      utilityComplain "sed" ("couldn\x27t open file " ++ value ++ ": " ++ problem.message)
      return none
  if found.any Option.isNone then return (none, [])
  match (found.filterMap id).flatten, given.operands with
  | [], script :: paths => return (some [(none, script.toList)], paths)
  | [], [] => return (some [], [])
  | sources, paths => return (some sources, paths)

/-- A text that is edited. -/
structure Input where
  name : String
  location : Option Location
  text : String

/-- How reading the inputs went: the status, and whether it was given up. -/
structure Readiness where
  status : Nat
  isGivenUp : Bool

/-- Reads the inputs. -/
def inputs (isInPlace : Bool) : List String → Eval (List Input × Readiness)
  | [] => return ([], ⟨0, false⟩)
  | path :: rest => do
    let found ← if path = "-" ∧ !isInPlace then pure (Except.ok (← readInput)) else readFile path
    match found with
    | .ok text =>
      let location ← locationOf path
      let (others, readiness) ← inputs isInPlace rest
      return (⟨path, location.toOption, text⟩ :: others, readiness)
    | .error problem =>
      if problem = .isADirectory then
        if isInPlace then
          utilityComplain "sed" ("couldn\x27t edit " ++ path ++ ": not a regular file")
          let (others, readiness) ← inputs isInPlace rest
          return (others, { readiness with status := 4 })
        else
          utilityComplain "sed" ("read error on " ++ path ++ ": " ++ problem.message)
          return ([], ⟨4, true⟩)
      else
        utilityComplain "sed" ("can\x27t read " ++ path ++ ": " ++ problem.message)
        let (others, readiness) ← inputs isInPlace rest
        return (others, { readiness with status := max 2 readiness.status })

/-- The lines of inputs. -/
def linesFrom (ending : Char) (reading : String → List Char) : Nat → List Input → List Edit.Line
  | _, [] => []
  | number, input :: rest =>
    let text := reading input.text
    let lines := State.linesOf ending text
    let isEnded := text.getLast? = some ending
    let last := lines.length - 1
    let isFinal := rest.all fun input => input.text = ""
    lines.zipIdx.map (fun (line, k) =>
      (⟨line, isEnded || k ≠ last || !isFinal, number, input.name⟩ : Edit.Line)) ++
      linesFrom ending reading (number + 1) rest

/-- The text is made of characters. -/
def isDecoded (text : String) : Bool :=
  match Text.Utf8.decode (Octets.toBytes text) with
  | .ok _ => true
  | .error _ => false

/-- The name of the file that keeps the text before an edit. -/
def backupName (ending path : String) : String :=
  let letters := path.toList.reverse
  let name := (letters.takeWhile (· != '/')).reverse
  let directory := (letters.dropWhile (· != '/')).reverse
  let kept := if ending.toList.contains '*' then
      ending.toList.flatMap fun c => if c == '*' then name else [c]
    else name ++ ending.toList
  String.ofList (if kept.contains '/' then kept else directory ++ kept)

/-- Puts a text into a file. -/
def putText (location : Location) (text : String) : Eval Unit :=
  modify fun machine =>
    { machine with tree := appended (machine.tree.put location (.file (.plain ""))) location text }

/-- The paths that a script writes to. -/
def targetsOf (script : Script) : List String :=
  (script.instructions.toList.filterMap fun instruction =>
    match instruction.action with
    | .write path => some path
    | .writeLine path => some path
    | .substitute substitution => substitution.target
    | _ => none).eraseDups

/-- Empties the files that a script writes to. Tells the complaint about one that cannot be
opened. -/
def clearTargets (encoding : List Char → String) : List String → Eval (Option String)
  | [] => return none
  | path :: rest => do
    let name := encoding path.toList
    if path.startsWith "/dev/" then return ← clearTargets encoding rest
    match ← locationOf name with
    | .error problem => return some ("couldn\x27t open file " ++ name ++ ": " ++ problem.message)
    | .ok location =>
      if (← get).tree.get? location == some .directory then
        return some ("couldn\x27t open file " ++ name ++ ": " ++ FileProblem.isADirectory.message)
      putText location ""
      clearTargets encoding rest

/-- Puts what was written for other files where it belongs. -/
def putTargets (encoding : List Char → String) (state : State) : Eval Unit :=
  state.targets.reverse.forM fun (path, text, _) => do
    if path = "/dev/stderr" then write 2 (encoding text)
    else match ← locationOf (encoding path.toList) with
      | .ok location =>
        modify fun machine => { machine with tree := appended machine.tree location (encoding text) }
      | .error _ => return ()

/-- Edits inputs as a script says. -/
def run (given : Given) (script : Script) (isWide : Bool) (found : List Input) (status : Nat) :
    Eval Nat := do
  let reading (text : String) : List Char :=
    if isWide then (Octets.decode text).toList else text.toList
  let encoding (text : List Char) : String :=
    if isWide then Octets.encode (String.ofList text) else String.ofList text
  let isInPlace := given.has 'i'
  let ending := if given.has 'z' then '\x00' else '\n'
  let tree := (← get).tree
  let contents (path : String) : Option (List Char) :=
    match tree.locate (.ofText path) with
    | .ok location =>
      match tree.get? location with
      | some (.file content) => some (reading (fileText content))
      | _ => none
    | .error _ => none
  let manner : Manner :=
    { isQuiet := given.has 'n' || script.isQuiet, isSeparate := given.has 's' || isInPlace
      ending := ending, width := ((given.value? 'l').bind String.toNat?).getD 70
      contents := contents }
  match Edit.edit script manner (linesFrom ending reading 0 found) with
  | .endless => throw .endless
  | .noExpression state =>
    utilityComplain "sed" "-e expression #1, char 0: no previous regular expression"
    write 1 (encoding state.output)
    return 1
  | .finished ended state =>
    if isInPlace then
      found.zipIdx.forM fun (input, k) => do
        if let some kept := (given.value? 'i').filter (· ≠ "") then
          if let .ok location ← locationOf (backupName kept input.name) then
            putText location input.text
        if let some location := input.location then
          putText location (encoding (state.outputOf k))
    else write 1 (encoding state.output)
    putTargets encoding state
    return if status = 0 then ended else status

end Editor

open Editor in
/-- Edits lines. -/
def sed (words : List String) : Eval Nat := do
  match Editor.known.read words with
  | .error wrong =>
    utilityComplain "sed" wrong.message
    write 2 usage
    return 1
  | .ok given =>
    match ← sources? given with
    | (none, _) => return 4
    | (some [], _) =>
      write 2 usage
      return 1
    | (some sources, paths) =>
      let isWideScript := sources.all fun source => isDecoded (String.ofList source.2)
      let sources := if isWideScript then
          sources.map fun (name, text) => (name, (Octets.decode (String.ofList text)).toList)
        else sources
      let text := ['\n'].intercalate (sources.map Prod.snd)
      match Edit.parse (given.has 'E' || given.has 'r') text with
      | .error problem =>
        utilityComplain "sed" (explain sources text.length problem)
        return 1
      | .ok script =>
        let encoding (text : List Char) : String :=
          if isWideScript then Octets.encode (String.ofList text) else String.ofList text
        if let some message ← clearTargets encoding (targetsOf script) then
          utilityComplain "sed" message
          return 4
        if let some name := script.lost? then
          utilityComplain "sed"
            ("can\x27t find label for jump to \x60" ++ encoding name.toList ++ "\x27")
          return 4
        let isInPlace := given.has 'i'
        if isInPlace && paths.isEmpty then
          utilityComplain "sed" "no input files"
          return 4
        let (found, readiness) ← inputs isInPlace (if paths.isEmpty then ["-"] else paths)
        let isWide := isWideScript && found.all fun input => isDecoded input.text
        let status ← run given script isWide found readiness.status
        return if readiness.isGivenUp then 4 else status

end GrammarChart.Tool.Shell
