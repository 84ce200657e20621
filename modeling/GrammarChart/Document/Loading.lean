import GrammarChart.Document.Binding
import GrammarChart.Files.FileTree

/-!
# Loading grammars

A document is loaded by first resolving its imports, in order, and then reading and linking the
document itself. Documents that are imported come from a table of attached documents or from files
beside the importing one. A loader remembers what it met, so that every document is loaded once
and a circle of imports ends.
-/

set_option autoImplicit false

namespace GrammarChart

/-- What was loaded so far: the model, and under each path or file name its grammar. An attached
document that is still being loaded has none yet. -/
structure Loaded where
  model : Model
  known : List (String × Option NodeId)

/-- What is known under a name. -/
def Loaded.get? (loaded : Loaded) (name : String) : Option (Option NodeId) :=
  (loaded.known.find? (·.1 == name)).map Prod.snd

/-- Notes a grammar under a name. The latest note counts. -/
def Loaded.note (loaded : Loaded) (name : String) (grammar : Option NodeId) : Loaded :=
  { loaded with known := (name, grammar) :: loaded.known }

/-- A computation that loads grammars. -/
abbrev Loader := StateT Loaded (Except Fault)

/-- Finds the grammar of an import path. -/
abbrev Resolver := Json → Loader (Option NodeId)

namespace Loader

/-- The resolver that knows no documents. -/
def noImports : Resolver := fun _ => pure none

/-- Resolves import paths in order. A path that is not present is passed over. Only a text has a
stem to note its grammar under. -/
def importAll (resolve : Resolver) : List Json → Imported → Loader Imported
  | [], imported => pure imported
  | path :: rest, imported => do
    if path.isPresent then
      match ← resolve path, path with
      | none, _ => importAll resolve rest imported
      | some id, .str text => importAll resolve rest (imported.insert (FilePath.ofText text).stem id)
      | some _, _ => throw .wrongType
    else importAll resolve rest imported

/-- Loads the document that a value is the written form of. -/
def load (resolve : Resolver) (value : Json) : Loader NodeId := do
  let fields ← Document.fieldsOf value
  let paths ← Document.importPaths fields
  let imported ← importAll resolve paths []
  let document ← Document.ofFields fields
  let loaded ← get
  let (model, id) ← document.link fields imported loaded.model
  set { loaded with model := model }
  return id

/-- Finds the grammar of a path among attached documents, by loading it with the given function
unless it was met before. -/
def attachedImport (attached : Fields) (loadDocument : Json → Loader NodeId) : Resolver
  | .str path => do
    match (← get).get? path with
    | some known => return known
    | none =>
      modify (·.note path none)
      match attached.get? path with
      | none => return none
      | some value =>
        let id ← loadDocument value
        modify (·.note path (some id))
        return some id
  | path => if path.isAtom then return none else throw .wrongType

/-- Loads a document with imports from attached documents, down to the given depth. -/
def loadAttachedTo (attached : Fields) : Nat → Json → Loader NodeId
  | 0, value => load noImports value
  | depth + 1, value => load (attachedImport attached (loadAttachedTo attached depth)) value

/-- Loads a document with imports from attached documents. No chain of imports has more documents
than there are. -/
def loadAttached (attached : Fields) (value : Json) : Loader NodeId :=
  loadAttachedTo attached (attached.length + 1) value

/-- The text of a file as a written value. -/
def readFile (tree : FileTree) (file : FilePath) : Except Fault Json := do
  let text ← tree.readText file
  match Json.read text with
  | .ok value => return value
  | .error fault => throw (.ofReadFault fault)

/-- Loads the file at a location. While it is being loaded, an empty grammar of its name stands
for it; a grammar without a name is called by the stem of its file. -/
def loadFileWith (tree : FileTree) (location : Location) (resolve : Resolver) :
    Loader NodeId := do
  let file := FileTree.absolute location
  let value ← readFile tree file
  let fields ← value.fields
  let name := (fields.getD "name" .null).orElse (.str file.stem)
  let loaded ← get
  let (model, standIn) := loaded.model.add (.ofShape (.grammar
    ⟨.value name, .ofNodes [], .ofNodes [], .ofNodes [], .ofNodes [],
      .value (.str file.text)⟩) .nothing)
  set ({ loaded with model := model }.note file.text (some standIn))
  let id ← load resolve value
  modify fun loaded =>
    { loaded with
      model := loaded.model.updateGrammar id fun g =>
        { g with path := .value (.str file.text),
                 name := g.name.orElse (.value (.str file.stem)) } }.note
      file.text (some id)
  return id

/-- The location of the file that an import path names, seen from the file that imports it. -/
def importLocation (tree : FileTree) (importer : Location) (path : String) :
    Except Fault Location :=
  let directory := (FileTree.absolute importer).parent
  match (directory.join (FilePath.ofText path)).withSuffix ".json" with
  | .error fault => .error (.badPath fault)
  | .ok candidate => tree.resolve candidate

/-- The locations of the files that the file at a location imports, as far as it can be read. -/
def importLocations (tree : FileTree) (importer : Location) : List Location :=
  let paths := do
    let value ← readFile tree (FileTree.absolute importer)
    Document.importPaths (← value.fields)
  match paths with
  | .error _ => []
  | .ok paths => paths.filterMap fun path => do
    match importLocation tree importer (← path.text?) with
    | .ok location => some location
    | .error _ => none

/-- Finds the grammar of a path beside the file that imports it, by loading its file with the given
function unless it was met before. A path without such a file has no grammar. -/
def fileImport (tree : FileTree) (importer : Location) (loadFile : Location → Loader NodeId) :
    Resolver
  | .str path => do
    let location ← importLocation tree importer path
    let file := FileTree.absolute location
    match (← get).get? file.text with
    | some known => return known
    | none => if ← tree.contains file then return some (← loadFile location) else return none
  | _ => throw .wrongType

/-- Loads a file with the files it imports, down to the given depth. -/
def loadFileTo (tree : FileTree) : Nat → Location → Loader NodeId
  | 0, location => loadFileWith tree location noImports
  | depth + 1, location =>
    loadFileWith tree location (fileImport tree location (loadFileTo tree depth))

/-- Loads a file with the files it imports. No chain of imports has more files than there are. -/
def loadFile (tree : FileTree) (path : FilePath) : Loader NodeId := do
  loadFileTo tree (tree.entries.length + 1) (← tree.resolve path)

/-- Runs a loader that starts with nothing. -/
def run (loader : Loader NodeId) : Except Fault (Model × NodeId) := do
  let (id, loaded) ← StateT.run loader ⟨.empty, []⟩
  return (loaded.model, id)

end Loader
end GrammarChart
