import GrammarChart.Diagram.Writer
import GrammarChart.Files.FileTree

/-!
# Saving diagrams

A document is saved as a text file, in a directory that is made if it is missing.
-/

set_option autoImplicit false

namespace GrammarChart

/-- Writes a text file after making a directory and the ones above it. Directories made before a
failure stay, and a text that cannot be had leaves an empty file. -/
def FileTree.writeAfterMaking (tree : FileTree) (directory path : FilePath)
    (text : Except Fault String) : FileTree × Option Fault :=
  match tree.ensureDirectories directory with
  | (tree, some fault) => (tree, some fault)
  | (tree, none) =>
    match tree.writeText path (text.toOption.getD "") with
    | .error fault => (tree, some fault)
    | .ok tree =>
      match text with
      | .ok _ => (tree, none)
      | .error fault => (tree, some fault)

/-- Saves what was written so far. -/
def Writer.save (writer : Writer) (tree : FileTree) (path : FilePath) : FileTree × Option Fault :=
  tree.writeAfterMaking path.parent path writer.text

end GrammarChart
