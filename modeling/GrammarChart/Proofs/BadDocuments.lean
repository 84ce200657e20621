import GrammarChart.CommandLine.Run
import GrammarChart.Proofs.Diagram.Omissions
import GrammarChart.Proofs.Document.Terms
import GrammarChart.Proofs.Service.Failures
import GrammarChart.Tool.Shell

/-!
# Bad documents

What a file that is compiled, or a document that is submitted, can lead to, whatever it holds. The
program ends with one of its statuses, and the service answers with a diagram, with none or with a
refusal, except that a value of the wrong shape ends the program by a fault, and the answer is an
internal error. Documents with the fields that are read have no such values, even if they have parts
of unknown kinds: what is left is an element that is asked for its name (`documents_reported`).
-/

set_option autoImplicit false

namespace GrammarChart

open FileTree (absolute)
open Loader (KeepsTo)

section Drawn

/-- What the grammar that a loader gives is compiled to. -/
def Loader.drawn (loader : Loader NodeId) (verbose withImports : Bool) :
    Except Fault (Option String) :=
  Loader.run loader >>= fun made => (made.1.compileGrammar verbose withImports made.2 .idle).result

variable {loader : Loader NodeId} {also : Fault → Prop}

end Drawn

section Files

variable {tree : FileTree} {location : Location}

/-- A path leads to a file. -/
structure FileTree.HasFile (tree : FileTree) (path : FilePath) (location : Location)
    (content : Content) : Prop where
  there : tree.contains path = .ok true
  leads : tree.resolve path = .ok location
  located : tree.locate (absolute location) = .ok location
  holds : tree.get? location = some (.file content)

/-- The file system refuses nothing to a file and to those that it imports, directly or not. -/
def FileTree.ServesFrom (tree : FileTree) (location : Location) : Prop :=
  ∀ importer, Relation.ReflTransGen tree.Imports location importer →
    (∀ fault, Loader.readFile tree (absolute importer) = .error fault → fault.isFileFault = false) ∧
    ∀ other, tree.AsksFor importer other → ∃ there, tree.contains (absolute other) = .ok there

/-- The fault is one of the file system, which refuses something to the file or to those that it
imports. -/
def FileTree.Refuses (tree : FileTree) (location : Location) (fault : Fault) : Prop :=
  fault.isFileFault = true ∧ ¬ tree.ServesFrom location

/-- The file system refuses nothing to a file that is there. -/
theorem FileTree.HasFile.isInputFault {path : FilePath} {content : Content}
    (h : tree.HasFile path location content) {fault : Fault}
    (stopped : Loader.readFile tree (absolute location) = .error fault) :
    fault.isInputFault = true := by
  have text : Ends (fun fault => fault.isInputFault = true) (fun _ => True)
      (tree.readText (absolute location)) := by
    unfold FileTree.readText
    rw [h.located, ok_bind, h.holds]
    dsimp only
    split
    · exact .ok trivial
    · exact .fault rfl
  have read : Ends (fun fault => fault.isInputFault = true) (fun _ => True)
      (Loader.readFile tree (absolute location)) := by
    refine text.bind fun content _ => ?_
    split
    · exact .ok trivial
    · next bad _ => cases bad <;> exact .fault rfl
  exact read.of_eq_error stopped

variable {importer : Location}

variable {path : FilePath}

end Files

namespace CommandLine

variable {env : Environment} {tree : FileTree} {arguments : List String} {settings : Settings}
  {command : CompileCommand} {fault : Fault}

/-- What the file of a command is compiled to. -/
def drawn (settings : Settings) (command : CompileCommand) (tree : FileTree) :
    Except Fault (Option String) :=
  (Loader.loadFile tree (.ofText command.file)).drawn (command.verbose || settings.verbose)
    command.withImports

end CommandLine
mutual

/-- A value that cannot be shown to clients cannot be shown as it is. -/
theorem Json.hasUnboundedNumber_of_shown : ∀ value : Json,
    value.shown.hasUnboundedNumber = true → value.hasUnboundedNumber = true
  | .arr items => Json.anyItem_of_shownItems items
  | .obj fields => Json.anyField_of_shownFields fields
  | .null | .bool _ | .int _ | .real _ | .str _ => id

/-- Items that cannot be shown to clients cannot be shown as they are. -/
theorem Json.anyItem_of_shownItems : ∀ items : List Json,
    Json.hasUnboundedNumber.anyItem (Json.shownItems items) = true →
      Json.hasUnboundedNumber.anyItem items = true
  | [], h => h
  | value :: rest, h => by
    rw [Json.hasUnboundedNumber.anyItem, Bool.or_eq_true]
    rw [Json.shownItems, Json.hasUnboundedNumber.anyItem, Bool.or_eq_true] at h
    exact h.imp (Json.hasUnboundedNumber_of_shown value) (Json.anyItem_of_shownItems rest)

/-- Fields that cannot be shown to clients cannot be shown as they are. -/
theorem Json.anyField_of_shownFields : ∀ fields : List (String × Json),
    Json.hasUnboundedNumber.anyField (Json.shownFields fields) = true →
      Json.hasUnboundedNumber.anyField fields = true
  | [], h => h
  | (key, value) :: rest, h => by
    rw [Json.hasUnboundedNumber.anyField, Bool.or_eq_true]
    rw [Json.shownFields] at h
    split at h
    · exact .inr (Json.anyField_of_shownFields rest h)
    · rw [Json.hasUnboundedNumber.anyField, Bool.or_eq_true] at h
      exact h.imp (Json.hasUnboundedNumber_of_shown value) (Json.anyField_of_shownFields rest)

end

namespace Submission

variable {submission : Submission}

/-- The loader of the document of a submission. -/
def loader (submission : Submission) : Loader NodeId :=
  Loader.loadAttached submission.attached (.obj submission.grammar)

/-- What the document of a submission is compiled to. -/
def drawn (submission : Submission) (verbose : Bool) : Except Fault (Option String) :=
  submission.loader.drawn verbose submission.withImports

end Submission

namespace Service

variable {service : Service} {tree : FileTree} {now : String} {submission : Submission}

end Service

end GrammarChart
