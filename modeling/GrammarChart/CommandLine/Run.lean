import GrammarChart.CommandLine.Command
import GrammarChart.Diagram.Compilation
import GrammarChart.Diagram.Saving
import GrammarChart.Document.Loading
import GrammarChart.Settings.Settings

/-!
# Runs of the program

A run reads its settings and its arguments, compiles the grammar, and prints the diagram or saves
it. What it leaves is the files, what it wrote to its two channels, and its exit status, or the
fault that ended it. A run that writes no diagram leaves the files alone.
-/

set_option autoImplicit false

namespace GrammarChart.CommandLine

/-- What a run leaves. -/
structure Outcome where
  tree : FileTree
  output : String
  errors : String
  ending : Except Fault Nat

/-- The exit statuses. -/
inductive Status where
  | good
  | badInput
  | badUse
  | grammarErrors
  | internal
  deriving DecidableEq, Repr

/-- The number of a status. -/
def Status.number : Status → Nat
  | .good => 0
  | .badInput => 1
  | .badUse => 2
  | .grammarErrors => 2
  | .internal => 3

namespace Outcome

/-- The run ends with a status and lines on the channel for messages. -/
def told (tree : FileTree) (messages : List String) (status : Status) : Outcome :=
  ⟨tree, "", String.join (messages.map (· ++ "\n")), .ok status.number⟩

/-- The run ends with a text as its output. -/
def printed (tree : FileTree) (messages : List String) (text : String) : Outcome :=
  { told tree messages .good with output := text }

/-- The outcome of a run that told something before. -/
def after (outcome : Outcome) (messages : List String) : Outcome :=
  { outcome with errors := String.join (messages.map (· ++ "\n")) ++ outcome.errors }

/-- The run ends by a fault. -/
def stopped (tree : FileTree) (messages : List String) (fault : Fault) : Outcome :=
  { told tree messages .good with ending := .error fault }

end Outcome

/-- Hands a saved diagram to the drawing tool, after the given messages. -/
def render (runner : Tool.Runner) (settings : Settings) (command : CompileCommand)
    (tree : FileTree) (messages : List String) (diagram : FilePath) : Outcome :=
  let format := (command.format.map Json.str).getD (.arr [])
  let rendering := Tool.render runner tree (.str diagram.text) format (.str settings.toolCommand)
    (.int settings.toolTimeout)
  match rendering.answer with
  | .error fault => .stopped rendering.tree messages fault
  | .ok (.failed reason) =>
    .told rendering.tree (messages ++ ["Error: " ++ reason]) .badInput
  | .ok (.drawn picture) =>
    .told rendering.tree (messages ++ ["  Rendered " ++ picture.text]) .good

/-- Saves a diagram, and has it rendered if that is asked for. -/
def save (runner : Tool.Runner) (settings : Settings) (command : CompileCommand)
    (tree : FileTree) (messages : List String) (writer : Writer) (output : String) : Outcome :=
  let path := FilePath.ofText output
  match writer.save tree path with
  | (tree, some fault) =>
    if fault.isFileFault then
      .told tree (messages ++ ["Error: cannot write " ++ output ++ ": " ++ fault.message]) .badInput
    else .stopped tree messages fault
  | (tree, none) =>
    let messages := messages ++ ["  Diagram written to " ++ path.text]
    if command.render then render runner settings command tree messages path
    else .told tree messages .good

/-- The end of a run that a fault stopped while it read or compiled a file. -/
def giveUp (tree : FileTree) (messages : List String) (file : FilePath) (fault : Fault) :
    Outcome :=
  match fault with
  | .violation what => .told tree (messages ++ ["Internal error: " ++ what.message]) .internal
  | fault =>
    if fault.isInputFault then
      .told tree (messages ++ ["Error: " ++ file.text ++ ": " ++ fault.message]) .badInput
    else .stopped tree messages fault

/-- Compiles the grammar in a file. -/
def compile (runner : Tool.Runner) (settings : Settings) (command : CompileCommand)
    (tree : FileTree) : Outcome :=
  let file := FilePath.ofText command.file
  match tree.contains file with
  | .error fault => .stopped tree [] fault
  | .ok false => .told tree ["Error: Input file not found: " ++ file.text] .badInput
  | .ok true =>
    match Loader.run (Loader.loadFile tree file) with
    | .error fault => giveUp tree [] file fault
    | .ok (m, id) =>
      let verbose := command.verbose || settings.verbose
      let compiled := m.compileGrammar verbose command.withImports id .idle
      match compiled.result, command.output with
      | .error fault, _ => giveUp tree compiled.notes file fault
      | .ok none, _ =>
        .told tree (compiled.notes ++
          ["Error: " ++ file.text ++ " has errors, no diagram generated"]) .grammarErrors
      | .ok (some diagram), none => .printed tree compiled.notes diagram
      | .ok (some _), some output =>
        save runner settings command tree compiled.notes compiled.writer output

/-- Runs what the arguments ask for. -/
def perform (runner : Tool.Runner) (settings : Settings) (tree : FileTree) :
    Command → Outcome
  | .showHelp text => .printed tree [] text
  | .refuse text => { Outcome.told tree [] .badUse with errors := text }
  | .compile command => compile runner settings command tree

/-- Runs the program in an environment that is complete. -/
def runIn (runner : Tool.Runner) (env : Environment) (tree : FileTree)
    (arguments : List String) : Outcome :=
  match Settings.ofEnvironment env with
  | .error fault =>
    if fault.isInputFault then
      .told tree ["Error: invalid configuration: " ++ fault.message] .badInput
    else .stopped tree [] fault
  | .ok settings => perform runner settings tree (.ofArguments arguments)

/-- Runs the program. The environment is completed by the nearest environment file first, and a tool
is run in the environment that is complete. -/
def run (runner : Environment → Tool.Runner) (env : Environment) (tree : FileTree)
    (arguments : List String) : Outcome :=
  let completion := env.load tree tree.here
  let outcome := match completion.result with
    | .error fault => Outcome.stopped tree [] fault
    | .ok _ =>
      runIn (runner completion.environment) completion.environment tree arguments
  outcome.after completion.warnings

end GrammarChart.CommandLine
