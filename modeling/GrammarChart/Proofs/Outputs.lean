import GrammarChart.Proofs.BadDocuments
import GrammarChart.Proofs.Document.InStep
import GrammarChart.Proofs.Document.Outlines
import GrammarChart.Proofs.Files.Making

/-!
# Printed and saved diagrams

A run that prints the diagram of a file and a run that saves it compile the file in the same way.
Either both have a diagram, which is what the writer holds (`Model.text_of_result_compileGrammar`),
or neither has one, and then neither has an output and neither touches a file
(`CommandLine.compile_cases`). `CommandLine.output_discipline` compares the two runs.
-/

set_option autoImplicit false

namespace GrammarChart

open FileTree

namespace FileTree

variable {tree : FileTree} {path : FilePath}

/-- A file can be written at the path: the directories above it are there or can be made, and then
it can be opened. -/
def IsWritable (tree : FileTree) (path : FilePath) : Prop :=
  ∃ made opened, tree.ensureDirectories path.parent = (made, none) ∧
    made.truncate path = .ok opened

end FileTree

namespace CommandLine

variable {settings : Settings} {command : CompileCommand} {tree : FileTree}

/-- The file of a command is there and has the diagram. -/
def Yields (settings : Settings) (command : CompileCommand) (tree : FileTree) (diagram : String) :
    Prop :=
  tree.contains (.ofText command.file) = .ok true ∧ drawn settings command tree = .ok (some diagram)

variable {env : Environment} {arguments arguments' : List String} {out : String}

end CommandLine
end GrammarChart
