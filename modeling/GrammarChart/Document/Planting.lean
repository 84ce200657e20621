import GrammarChart.Document.Basic

/-!
# Planting documents

Makes the nodes of a model out of the trees of a document. Nodes are made bottom up, so that each
one becomes the container of its children, and the place of every node in the document is noted
beside its number. References are made unbound; those with an address are noted for binding, in the
order in which they are written.
-/

set_option autoImplicit false

namespace GrammarChart

/-- A model under construction, with the nodes of the document by position and the references that
are still to be bound. -/
structure Planting where
  model : Model
  places : List (Position × NodeId)
  pending : List (NodeId × Json)

namespace Planting

/-- Adds a node that stands at a position of the document. -/
def node (p : Planting) (position : Position) (node : Node) : Planting × NodeId :=
  let (model, id) := p.model.add node
  ({ p with model := model, places := p.places ++ [(position, id)] }, id)

/-- Adds a reference. -/
def link (p : Planting) (reference : Reference) : Planting × NodeId :=
  let (model, id) := p.model.add (.ofShape (.reference ⟨.value reference.text, .nothing⟩) .nothing)
  ({ p with model := model, pending := p.pending ++ (reference.address.map (id, ·)).toList }, id)

/-- Adds a reference that may be missing. -/
def link? (p : Planting) (reference : Option Reference) : Planting × Item :=
  match reference with
  | none => (p, .nothing)
  | some reference =>
    let (p, id) := p.link reference
    (p, .node id)

/-- The node at a position of the document. -/
def place? (p : Planting) (position : Position) : Option NodeId :=
  (p.places.find? (·.1 == position)).map Prod.snd

end Planting

mutual

/-- Makes the nodes of an element that stands at a position. -/
def Element.plant (position : Position) (p : Planting) : Element → Planting × NodeId
  | .keyword value mark => p.node position (.ofShape (.keyword (.value value)) (.value mark))
  | .ruleCall rule mark =>
    let (p, rule) := p.link rule
    p.node position (.ofShape (.ruleCall (.node rule)) (.value mark))
  | .crossReference type none mark =>
    let (p, type) := p.link type
    p.node position (.ofShape (.crossReference (.node type) .nothing) (.value mark))
  | .crossReference type (some terminal) mark =>
    let (p, type) := p.link type
    let (p, terminal) := terminal.plant (position ++ [.field "terminal"]) p
    p.node position (.ofShape (.crossReference (.node type) (.node terminal)) (.value mark))
  | .assignment feature operator terminal mark =>
    let (p, terminal) := terminal.plant (position ++ [.field "terminal"]) p
    p.node position
      (.ofShape (.assignment (.value feature) (.value operator) (.node terminal)) (.value mark))
  | .alternatives elements mark =>
    let (p, elements) := Element.plantAll position 0 p elements
    p.node position (.ofShape (.alternatives (.ofNodes elements)) (.value mark))
  | .group elements mark =>
    let (p, elements) := Element.plantAll position 0 p elements
    p.node position (.ofShape (.group (.ofNodes elements)) (.value mark))
  | .action type inferredType feature operator mark =>
    let (p, type) := p.link? type
    p.node position (.ofShape
      (.action type (.value inferredType) (.value feature) (.value operator)) (.value mark))

/-- Makes the nodes of the members of a group, the first of which has the given index. -/
def Element.plantAll (position : Position) (index : Nat) (p : Planting) :
    List Element → Planting × List NodeId
  | [] => (p, [])
  | element :: rest =>
    let (p, id) := element.plant (position ++ [.field "elements", .item index]) p
    let (p, ids) := Element.plantAll position (index + 1) p rest
    (p, id :: ids)

end

/-- The shape of a parser rule with the given body. -/
def Shape.ofParserRule (name : Json) (body : Item) (inferredType : Json) (entry fragment : Bool) :
    Shape :=
  .parserRule (.value name) body (.value inferredType) (.value (.bool entry))
    (.value (.bool fragment))

/-- Makes the nodes of a rule that stands at a position. -/
def Rule.plant (position : Position) (p : Planting) : Rule → Planting × NodeId
  | .parser name none inferredType entry fragment =>
    p.node position (.ofShape (.ofParserRule name .nothing inferredType entry fragment) .nothing)
  | .parser name (some definition) inferredType entry fragment =>
    let (p, id) := definition.plant (position ++ [.field "definition"]) p
    p.node position (.ofShape (.ofParserRule name (.node id) inferredType entry fragment) .nothing)
  | .terminal name regex hidden fragment =>
    p.node position (.ofShape (.terminalRule (.value name) (.value regex) (.value (.bool hidden))
      (.value (.bool fragment))) .nothing)

/-- Makes the node of a declaration that stands at a position. -/
def Declaration.plant (position : Position) (p : Planting) (declaration : Declaration) :
    Planting × NodeId :=
  p.node position (.ofShape
    (.typeDeclaration (.value declaration.name) (.value declaration.kind)) .nothing)

/-- Makes the nodes of the items of a list that stands in a field of the document, the first of
which has the given index. -/
def Planting.each {α : Type} (plant : Position → Planting → α → Planting × NodeId)
    (field : String) (index : Nat) (p : Planting) : List α → Planting × List NodeId
  | [] => (p, [])
  | a :: rest =>
    let (p, id) := plant [.field field, .item index] p a
    let (p, ids) := Planting.each plant field (index + 1) p rest
    (p, id :: ids)

/-- Adds the node of a diagnostic. -/
def Model.addDiagnostic (m : Model) (diagnostic : Diagnostic) : Model × NodeId :=
  m.add (.ofShape (.diagnostic (.value diagnostic.severity) (.value diagnostic.message)) .nothing)

/-- Adds the nodes of diagnostics. -/
def Model.addDiagnostics (m : Model) : List Diagnostic → Model × List NodeId
  | [] => (m, [])
  | diagnostic :: rest =>
    let (m, id) := m.addDiagnostic diagnostic
    let (m, ids) := m.addDiagnostics rest
    (m, id :: ids)

/-- Makes the grammar of a document with the given imports. -/
def Document.plant (document : Document) (model : Model) (imports : List NodeId) :
    Planting × NodeId :=
  let p : Planting := ⟨model, [], []⟩
  let (p, rules) := Planting.each Rule.plant "rules" 0 p document.rules
  let (p, interfaces) := Planting.each Declaration.plant "interfaces" 0 p document.interfaces
  let (p, types) := Planting.each Declaration.plant "types" 0 p document.types
  let (model, diagnostics) := p.model.addDiagnostics document.diagnostics
  let (model, id) := model.add (.ofShape (.grammar
    ⟨.value document.name, .ofNodes rules, .ofNodes (interfaces ++ types), .ofNodes imports,
      .ofNodes diagnostics, .nothing⟩) .nothing)
  ({ p with model := model }, id)

end GrammarChart
