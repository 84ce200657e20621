import GrammarChart.Settings.Environment
import GrammarChart.Tool.Render
import GrammarChart.Tool.Shell.Evaluation

/-!
# A small shell

Runs the commands that can be carried out without any other program: scripts of the command
language, and the small programs that scripts make use of. Anything else is a missing program.
-/

set_option autoImplicit false

namespace GrammarChart.Tool.Shell

/-- The programs that can be started by their names alone. -/
def programs : List String :=
  ["true", "false", "echo", "printf", "sleep", "cat", "sh", "dash"]

/-- How starting a program that is not among the known ones ends. A name that means a directory
cannot be run, and neither can a file of the tree. -/
def refusal (tree : FileTree) (name : String) : FileProblem :=
  if name = "" ∨ name = "." ∨ name = ".." then .permissionDenied
  else if name.toList.contains '/' then
    match tree.locate (.ofText name) with
    | .ok location => if (tree.get? location).isSome then .permissionDenied else .notFound
    | .error (.file problem _) => problem
    | .error _ => .notFound
  else if FileTree.maxNameLength < name.utf8ByteSize then .nameTooLong
  else .notFound

/-- The number of steps that a script may take. -/
def maxSteps : Nat := 20000

/-- The number of the process that a command runs in. -/
def firstProcess : Nat := 2

/-- The variables of a shell that is started in an environment. -/
def bindingsIn (env : Environment) : List (String × Variable) :=
  let given := env.filterMap fun (name, value) =>
    if isName name then
      some (name, (⟨some (Octets.encode value), true, false⟩ : Variable))
    else none
  startingVariables given

/-- A machine that has run nothing. Its first two buffers are the outputs. -/
def start (env : Environment) (tree : FileTree) (name : String) : Machine where
  scope :=
    { bindings := bindingsIn env, functions := [], name := name, arguments := [], options := []
      traps := [], aliases := [], mask := 18, place := .start, descriptors := [(0, .nowhere), (1, .buffer 0), (2, .buffer 1)]
      speaker := none, line := 0
      loops := 0, locals := none, depth := 0, process := firstProcess }
  status := 0
  tree := tree
  buffers := #["", ""]
  opened := []
  clock := 0
  deadline := none
  jobs := []
  processes := firstProcess
  parts := 0
  substituted := 0

/-- The octets of a buffer. -/
def contents (machine : Machine) (number : Nat) : List UInt8 :=
  Octets.toBytes ((machine.buffers[number]?).getD "")

/-- Runs a program. -/
def program (name : String) (arguments : List String) : Eval Unit :=
  if programName name = "sh" ∨ programName name = "dash" then
    runProcess maxSteps firstProcess name arguments
  else runProgram maxSteps (name :: arguments)

/-- Runs a command in an environment. -/
def runner (env : Environment) : Runner := fun tree words =>
  let name := words.headD ""
  let isFound := programName name ≠ name || ((env.get? "PATH").map leadsToPrograms).getD true
  if !programs.contains (programName name) || !isFound then ⟨tree, .refused (refusal tree name)⟩
  else
    let action := program (Octets.encode name) ((words.drop 1).map Octets.encode)
    let (ending, machine) := action.run.run (start env tree name)
    let finished (status : Int) : Ending :=
      .finished status (contents machine 0) (contents machine 1) machine.ending
    let left := { machine.tree with workingDirectory := tree.workingDirectory }
    match ending with
    | .error .endless => ⟨left, .endless⟩
    | .error (.killed _ signal) => ⟨left, finished (-signal)⟩
    | _ => ⟨left, finished machine.status⟩

end GrammarChart.Tool.Shell
