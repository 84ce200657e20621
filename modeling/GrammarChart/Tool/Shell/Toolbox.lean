import GrammarChart.Tool.Shell.Columns
import GrammarChart.Tool.Shell.Comparing
import GrammarChart.Tool.Shell.Copying
import GrammarChart.Tool.Shell.Counting
import GrammarChart.Tool.Shell.Editor
import GrammarChart.Tool.Shell.Filing
import GrammarChart.Tool.Shell.Finding
import GrammarChart.Tool.Shell.Numbers
import GrammarChart.Tool.Shell.Search
import GrammarChart.Tool.Shell.Showing

/-!
# The toolbox

The utilities by their names, and the few that only tell about the shell that runs them.
-/

set_option autoImplicit false

namespace GrammarChart.Tool.Shell

/-- The variables that a program is started with, each with its value. -/
def environment : Eval (List (String × String)) := do
  return (← scope).bindings.reverse.filterMap fun (name, entry) =>
    if entry.isExported then entry.value.map fun value => (name, value) else none

/-- Writes the variables of the environment, or the values of some of them. -/
def printEnvironment (words : List String) : Eval Nat :=
  withGiven "printenv" ⟨['0'], [], [], [("null", '0')]⟩ words fun given => do
    let entries ← environment
    if given.operands.isEmpty then
      entries.forM fun (name, value) => write 1 (name ++ "=" ++ value ++ "\n")
      return 0
    else
      let good ← given.operands.mapM fun name => do
        match entries.lookup name with
        | some value =>
          write 1 (value ++ "\n")
          return true
        | none => return false
      return statusOf good

/-- Writes a line again and again. A reader takes as many lines as fit between the programs. -/
def repeatLine (words : List String) : Eval Nat := do
  let line := if words.isEmpty then "y\n" else " ".intercalate words ++ "\n"
  match (← scope).descriptors.lookup 1 with
  | some (.buffer number) =>
    if number < 2 then throw .endless
    write 1 (String.join (List.replicate (65536 / line.length) line))
    return 0
  | _ => throw .endless

/-- Writes the name of the system. -/
def systemName (words : List String) : Eval Nat := do
  if words.isEmpty ∨ words = ["-s"] then
    write 1 "Linux\n"
    return 0
  else misuse "uname" ("extra operand " ++ inCurlyMarks (words.headD ""))

/-- The utilities by their names. -/
def utility? (name : String) : Option (List String → Eval Nat) :=
  match name with
  | "cat" => some cat
  | "tac" => some reverseLines
  | "rev" => some reverseLetters
  | "nl" => some numberLines
  | "head" => some (Ends.write "head" true)
  | "tail" => some (Ends.write "tail" false)
  | "tee" => some tee
  | "wc" => some count
  | "sort" => some order
  | "uniq" => some unique
  | "cut" => some cut
  | "paste" => some paste
  | "tr" => some replaceLetters
  | "grep" => some grep
  | "egrep" => some fun words => grep ("-E" :: words)
  | "fgrep" => some fun words => grep ("-F" :: words)
  | "sed" => some sed
  | "cmp" => some cmp
  | "diff" => some diff
  | "basename" => some baseName
  | "dirname" => some directoryName
  | "touch" => some touch
  | "mkdir" => some makeDirectories
  | "rmdir" => some removeDirectories
  | "rm" => some remove
  | "cp" => some copyFiles
  | "mv" => some moveFiles
  | "ls" => some list
  | "sleep" => some sleep
  | "seq" => some sequence
  | "expr" => some expr
  | "printenv" => some printEnvironment
  | "yes" => some repeatLine
  | "uname" => some systemName
  | _ => none

end GrammarChart.Tool.Shell
