import GrammarChart.Diagram.ClassBlock
import GrammarChart.Diagram.Relationship
import GrammarChart.Diagram.Writer
import GrammarChart.Model.Reach

/-!
# Compilation

A list of rules becomes one document: the class blocks in rule order, then the relationship lines
in rule order. A grammar with errors gives no document. Beside the document a compilation may tell
what it is doing, as notes.
-/

set_option autoImplicit false

namespace GrammarChart

/-- What a pass produces: a fragment of the document or a note. -/
inductive Output where
  | fragment (text : String)
  | note (text : String)
  deriving DecidableEq, Repr

/-- The text of a fragment. -/
def Output.fragment? : Output → Option String
  | .fragment text => some text
  | .note _ => none

/-- The text of a note. -/
def Output.note? : Output → Option String
  | .fragment _ => none
  | .note text => some text

/-- How a compilation ended: the writer afterwards, the notes, and the result or the fault that
stopped it. -/
structure Compilation (α : Type) where
  writer : Writer
  notes : List String
  result : Except Fault α

/-- Writes what an emission produces. What was written before a fault stays written. -/
def Emission.writeTo (e : Emission String) (writer : Writer) : Writer × Option Fault :=
  let (written, refusal) := writer.appendAll e.items
  (written, refusal.or e.fault)

namespace Model

/-- The fragments of an emission as outputs. -/
def asFragments (e : Emission String) : Emission Output :=
  ⟨e.items.map .fragment, e.fault⟩

/-- The note on the rules of a compilation. -/
def rulesNote (m : Model) (rules : List Item) : Emission Output :=
  .ofExcept do
    let names ← rules.mapM m.nameOf
    match names.mapM Item.text? with
    | some texts => return .note ("[uml] rules: " ++ ", ".intercalate texts)
    | none => throw .wrongType

/-- The note on a class that was drawn. -/
def classNote (m : Model) (rule : Item) : Emission Output :=
  match m.drawnRule? rule with
  | some (name, _) => .ofList [.note ("[uml] class " ++ m.display name)]
  | none => .nothing

/-- The outputs of a compilation. -/
def compilationOutputs (m : Model) (verbose : Bool) (rules : List Item) : Emission Output :=
  let told (note : Emission Output) : Emission Output := if verbose then note else .nothing
  let classes := Emission.ofEach
    (fun rule => (asFragments (m.classBlock rule)).append (told (m.classNote rule))) rules
  let relationships := Emission.ofEach (fun rule => asFragments (m.relationshipLines rule)) rules
  (told (m.rulesNote rules)).append (classes.append relationships)

/-- Compiles rules into a document with the given writer, whatever it wrote before. -/
def compileRules (m : Model) (verbose : Bool) (rules : List Item) (writer : Writer) :
    Compilation String :=
  let outputs := m.compilationOutputs verbose rules
  let notes := outputs.items.filterMap Output.note?
  let (written, refusal) := writer.reset.appendAll (outputs.items.filterMap Output.fragment?)
  match refusal.or outputs.fault with
  | some fault => ⟨written, notes, .error fault⟩
  | none =>
    match written.finish with
    | .ok closed => ⟨closed, notes, closed.text⟩
    | .error fault => ⟨written, notes, .error fault⟩

/-- The note on a grammar with errors. -/
def errorsNote (m : Model) (id : NodeId) : Except Fault String := do
  return "[uml] " ++ m.display (← m.nameOf (.node id)) ++ ": has errors, no diagram"

/-- Compiles a grammar. A grammar with errors has no diagram and leaves the writer alone. -/
def compileGrammar (m : Model) (verbose withImports : Bool) (id : NodeId) (writer : Writer) :
    Compilation (Option String) :=
  match m.hasErrors (.node id) with
  | .error fault => ⟨writer, [], .error fault⟩
  | .ok true =>
    if verbose then
      match m.errorsNote id with
      | .ok note => ⟨writer, [note], .ok none⟩
      | .error fault => ⟨writer, [], .error fault⟩
    else ⟨writer, [], .ok none⟩
  | .ok false =>
    match m.collectRules id withImports with
    | .error fault => ⟨writer, [], .error fault⟩
    | .ok rules =>
      let compiled := m.compileRules verbose rules writer
      ⟨compiled.writer, compiled.notes, compiled.result.map some⟩

end Model
end GrammarChart
