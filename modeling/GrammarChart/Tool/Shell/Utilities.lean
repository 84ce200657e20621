import GrammarChart.Tool.Shell.Fields
import GrammarChart.Tool.Shell.Given

/-!
# Utilities

What the small programs have in common that scripts make use of: they complain in the same way, and
they read lines from files or from their input.
-/

set_option autoImplicit false

namespace GrammarChart.Tool.Shell

/-- Writes a complaint of a utility. -/
def utilityComplain (name message : String) : Eval Unit :=
  write 2 (name ++ ": " ++ message ++ "\n")

/-- The complaint about a wrong use of a utility, which ends with the given status. -/
def misuseWith (status : Nat) (name message : String) : Eval Nat := do
  utilityComplain name (message ++ "\nTry \x27" ++ name ++ " --help\x27 for more information.")
  return status

/-- The complaint about a wrong use of a utility. -/
def misuse (name message : String) : Eval Nat := misuseWith 1 name message

/-- Reads the words given to a utility and goes on with them. -/
def withGiven (name : String) (known : Known) (words : List String) (run : Given → Eval Nat) :
    Eval Nat :=
  match known.read words with
  | .error wrong => misuse name wrong.message
  | .ok given => run given

/-- A text between the quotation marks of a utility. -/
def inCurlyMarks (text : String) : String :=
  Octets.encode "‘" ++ text ++ Octets.encode "’"

/-- The location of a path of a script, or why there is none. -/
def locationOf (path : String) : Eval (Except FileProblem Location) := do
  if path = "" then return .error .notFound
  match (← get).tree.locate (.ofText (Octets.decode path)) with
  | .ok location => return .ok location
  | .error (.file problem _) => return .error problem
  | .error _ => return .error .notFound

/-- The text of a file, or why it cannot be read. -/
def readFile (path : String) : Eval (Except FileProblem String) := do
  if path = "/dev/null" then return .ok ""
  match ← locationOf path with
  | .error problem => return .error problem
  | .ok location =>
    match (← get).tree.get? location with
    | some (.file content) => return .ok (fileText content)
    | some .directory => return .error .isADirectory
    | none => return .error .notFound

/-- The text of a file of a utility, or of its input. A file that cannot be read is complained
about. -/
def readOrComplain (name path : String) : Eval (Option String) := do
  if path = "-" then return some (← readInput)
  match ← readFile path with
  | .ok text => return some text
  | .error problem =>
    utilityComplain name (path ++ ": " ++ problem.message)
    return none

/-- The texts of the files of a utility, with their names; without names, of its input. Files that
cannot be read are left out; the flag tells that there were none of them. -/
def readFiles (name : String) (paths : List String) : Eval (List (String × String) × Bool) := do
  if paths.isEmpty then return ([("", ← readInput)], true)
  let texts ← paths.mapM fun path => do
    return (← readOrComplain name path).map fun text => (path, text)
  return (texts.filterMap id, texts.all Option.isSome)

/-- The lines of a text, each with its end. -/
def linesOf (text : List Char) : List (List Char) :=
  let lines := (text.splitOn '\n').map (· ++ ['\n'])
  match lines.reverse with
  | ['\n'] :: before => before.reverse
  | last :: before => (last.dropLast :: before).reverse
  | [] => []

/-- The text of a line without its end. -/
def lineText (line : List Char) : List Char :=
  if line.getLast? = some '\n' then line.dropLast else line

/-- Writes lines, each with its end. -/
def writeLines (lines : List (List Char)) : Eval Unit :=
  write 1 (String.ofList (lines.flatMap (· ++ ['\n'])))

/-- A text with blanks in front, up to a width. -/
def padded (width : Nat) (text : String) : String :=
  String.ofList (List.replicate (width - text.length) ' ') ++ text

/-- A text between quotation marks. -/
def quoted (text : String) : String := "\x27" ++ text ++ "\x27"

/-- The status of a utility whose parts went well or not. -/
def statusOf (good : List Bool) : Nat := if good.all id then 0 else 1

end GrammarChart.Tool.Shell
