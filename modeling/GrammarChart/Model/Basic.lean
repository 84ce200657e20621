import GrammarChart.Emission
import GrammarChart.Model.Item

/-!
# Linked models

A model holds the rules, declarations and rule bodies of any number of grammars, their references
and the grammars themselves as nodes. A node knows its container, an element that names a rule or a
type holds a reference, and a reference has the target that it was bound to, if any. Adding a node
makes it the container of its children, so the containers of a tree that is added bottom up lead
back to its root; `Model.node?_adoptAll` says what that does to every node.
-/

set_option autoImplicit false

namespace GrammarChart

/-- A reference of an element: its text, and its target once it is resolved. -/
structure Link where
  text : Item
  target : Item
  deriving Repr

/-- The reference is resolved. -/
def Link.isResolved (link : Link) : Bool :=
  !link.target.isNothing

/-- The severities of errors: the word, or the number one in any of its forms. -/
def Item.isErrorSeverity (severity : Item) : Bool :=
  severity.isText "error" || severity.isText "Error" || severity.sameAtom (.value (.int 1))

/-- A grammar: its rules, its declared types, the grammars that it imports, what its document said
about errors, and the path of its file. -/
structure Grammar where
  name : Item
  rules : Item
  types : Item
  imports : Item
  diagnostics : Item
  path : Item
  deriving Repr

/-- What a node is. Names, features, operators and the like hold whatever the document holds. -/
inductive Shape where
  | keyword (value : Item)
  | ruleCall (rule : Item)
  | crossReference (type terminal : Item)
  | assignment (feature operator terminal : Item)
  | alternatives (elements : Item)
  | group (elements : Item)
  | action (type inferredType feature operator : Item)
  | parserRule (name definition inferredType entry fragment : Item)
  | terminalRule (name regex hidden fragment : Item)
  | typeDeclaration (name kind : Item)
  | reference (link : Link)
  | diagnostic (severity message : Item)
  | grammar (grammar : Grammar)
  /-- A node of a kind that no pass knows. -/
  | unknown (kind : String)
  deriving Repr

namespace Shape

/-- The name of the kind. -/
def kind : Shape → String
  | .keyword .. => "Keyword"
  | .ruleCall .. => "RuleCall"
  | .crossReference .. => "CrossReference"
  | .assignment .. => "Assignment"
  | .alternatives .. => "Alternatives"
  | .group .. => "Group"
  | .action .. => "Action"
  | .parserRule .. => "ParserRule"
  | .terminalRule .. => "TerminalRule"
  | .typeDeclaration .. => "TypeDeclaration"
  | .reference .. => "Reference"
  | .diagnostic .. => "Diagnostic"
  | .grammar .. => "Grammar"
  | .unknown kind => kind

/-- The parts that nodes of this shape are made of, in order. -/
def parts : Shape → Parts
  | .keyword value => [("value", value)]
  | .ruleCall rule => [("rule", rule)]
  | .crossReference type terminal => [("type", type), ("terminal", terminal)]
  | .assignment feature operator terminal =>
    [("feature", feature), ("operator", operator), ("terminal", terminal)]
  | .alternatives elements => [("elements", elements)]
  | .group elements => [("elements", elements)]
  | .action type inferredType feature operator =>
    [("type", type), ("inferred_type", inferredType), ("feature", feature),
      ("operator", operator)]
  | .parserRule name definition inferredType entry fragment =>
    [("name", name), ("definition", definition), ("inferred_type", inferredType),
      ("entry", entry), ("fragment", fragment)]
  | .terminalRule name regex hidden fragment =>
    [("name", name), ("regex", regex), ("hidden", hidden), ("fragment", fragment)]
  | .typeDeclaration name kind => [("name", name), ("kind", kind)]
  | .reference link => [("text", link.text), ("ref", link.target)]
  | .diagnostic severity message => [("severity", severity), ("message", message)]
  | .grammar g =>
    [("name", g.name), ("rules", g.rules), ("types", g.types), ("imports", g.imports),
      ("diagnostics", g.diagnostics), ("path", g.path)]
  | .unknown _ => []

/-- Nodes of this shape stand in something. -/
def isContained : Shape → Bool
  | .reference _ | .diagnostic .. | .grammar _ => false
  | _ => true

/-- Nodes of this shape are made with a mark. -/
def hasMark : Shape → Bool
  | .keyword .. | .ruleCall .. | .crossReference .. | .assignment .. | .alternatives .. | .group ..
  | .action .. => true
  | _ => false

/-- The nodes among items, up to the first item that cannot stand in a node. -/
def contained : List Item → Emission NodeId
  | [] => .nothing
  | .node id :: rest => (Emission.ofList [id]).append (contained rest)
  | _ :: _ => .fail .noField

/-- The node in a place that may be empty. -/
def containedIn (place : Item) : Emission NodeId :=
  if place.isNothing then .nothing else contained [place]

/-- The nodes that stand directly in a node of this shape, up to the first item that cannot. -/
def children : Shape → Emission NodeId
  | .crossReference _ terminal => containedIn terminal
  | .assignment _ _ terminal => containedIn terminal
  | .alternatives elements => (Emission.ofExcept elements.items).flatMap contained
  | .group elements => (Emission.ofExcept elements.items).flatMap contained
  | .parserRule _ definition _ _ _ => containedIn definition
  | .grammar g =>
    (Emission.ofExcept do return (← g.rules.items) ++ (← g.types.items)).flatMap contained
  | _ => .nothing

/-- Nodes can stand in a node. -/
theorem contained_nodes (ids : List NodeId) : contained (ids.map .node) = .ofList ids := by
  induction ids with
  | nil => rfl
  | cons id rest ih => simp [contained, ih, Emission.append, Emission.ofList]

end Shape

/-- A node of a model. A node of a special kind behaves like its shape, and messages call it by the
name of that kind. A node of a kind that stands in nothing has no container at all. The extras are
parts that were given to the node beyond those of its shape. -/
structure Node where
  shape : Shape
  cardinality : Item
  special : Option String
  container : Option Item
  extras : Parts
  deriving Repr

namespace Node

/-- A node that stands nowhere yet. -/
def ofShape (shape : Shape) (cardinality : Item) : Node :=
  ⟨shape, cardinality, none, if shape.isContained then some .nothing else none, []⟩

/-- What messages call the node. -/
def kindName (node : Node) : String :=
  node.special.getD node.shape.kind

/-- The node is of the named kind or a special case of it. -/
def isKind (node : Node) (kind : String) : Bool :=
  node.shape.kind == kind || node.special == some kind

/-- The node is a parser rule or a terminal rule. -/
def isRule (node : Node) : Bool :=
  match node.shape with
  | .parserRule .. => true
  | .terminalRule .. => true
  | _ => false

/-- The parts that a node is made of, in order; where it stands is none of them. -/
def parts (node : Node) : Parts :=
  node.shape.parts ++ (if node.shape.hasMark then [("cardinality", node.cardinality)] else [])

/-- The part of a node that has the given name. -/
def part? (node : Node) (name : String) : Option Item :=
  match name with
  | "container" => node.container
  | "cardinality" => some node.cardinality
  | name => (node.shape.parts ++ node.extras).lookup name

end Node

/-- Nodes, numbered in the order of their making. -/
structure Model where
  nodes : List Node
  deriving Repr

namespace Model

/-- The model without anything. -/
def empty : Model := ⟨[]⟩

/-- The node of a number. -/
def node? (m : Model) (id : NodeId) : Option Node :=
  m.nodes[id.index]?

/-- The shape of a node. -/
def shape? (m : Model) (id : NodeId) : Option Shape :=
  (m.node? id).map Node.shape

/-- The shape of the node that stands in a place. -/
def shapeIn? (m : Model) (item : Item) : Option Shape :=
  item.node?.bind m.shape?

/-- The reference that a node is. -/
def link? (m : Model) (id : NodeId) : Option Link :=
  match m.shape? id with
  | some (.reference link) => some link
  | _ => none

/-- The grammar that a node is. -/
def grammar? (m : Model) (id : NodeId) : Option Grammar :=
  match m.shape? id with
  | some (.grammar grammar) => some grammar
  | _ => none

/-- Changes a node without touching the containers of its children. -/
def update (m : Model) (id : NodeId) (change : Node → Node) : Model :=
  ⟨m.nodes.modify id.index change⟩

/-- Makes a node the container of another one, in place of the one before. -/
def adopt (m : Model) (parent child : NodeId) : Model :=
  m.update child ({ · with container := some (.node parent) })

/-- Makes a node the container of several nodes. -/
def adoptAll (m : Model) (parent : NodeId) (children : List NodeId) : Model :=
  children.foldl (fun m child => m.adopt parent child) m

/-- Adds a node and makes it the container of its children, as far as they can stand in it. -/
def add (m : Model) (node : Node) : Model × NodeId :=
  let id : NodeId := ⟨m.nodes.length⟩
  let grown : Model := ⟨m.nodes ++ [node]⟩
  (grown.adoptAll id node.shape.children.items, id)

/-- Binds a reference to a target. -/
def bind (m : Model) (id : NodeId) (target : Item) : Model :=
  m.update id fun node =>
    match node.shape with
    | .reference link => { node with shape := .reference { link with target := target } }
    | _ => node

/-- Changes a grammar without touching the containers of its rules. -/
def updateGrammar (m : Model) (id : NodeId) (change : Grammar → Grammar) : Model :=
  m.update id fun node =>
    match node.shape with
    | .grammar grammar => { node with shape := .grammar (change grammar) }
    | _ => node

/-- A part of what stands in a place. Only a node has parts. -/
def partOf (m : Model) (item : Item) (name : String) : Except Fault Item :=
  match (item.node?.bind m.node?).bind (·.part? name) with
  | some part => .ok part
  | none => .error .noField

/-- The parts of a node are those that the node has. -/
theorem partOf_node {m : Model} {id : NodeId} {node : Node} (h : m.node? id = some node)
    (name : String) :
    m.partOf (.node id) name = (node.part? name).elim (.error .noField) .ok := by
  simp only [partOf, Item.node?, Option.bind_some, h]
  cases node.part? name <;> rfl

/-- The items of a part that can be gone through. -/
def itemsOf (m : Model) (item : Item) (name : String) : Except Fault (List Item) := do
  (← m.partOf item name).items

/-- What a reference leads to. -/
def targetOf (m : Model) (reference : Item) : Except Fault Item :=
  m.partOf reference "ref"

/-- The shape of the node that a reference leads to. -/
def targetShape (m : Model) (reference : Item) : Except Fault (Option Shape) :=
  (m.targetOf reference).map m.shapeIn?

/-- Whether a reference is resolved. What is no reference may have a part that says so. -/
def resolvedOf (m : Model) (item : Item) : Except Fault Item :=
  match m.shapeIn? item with
  | some (.reference link) => .ok (.value (.bool link.isResolved))
  | _ => m.partOf item "resolved"

/-- The reference is resolved. -/
def isResolved (m : Model) (item : Item) : Except Fault Bool :=
  (m.resolvedOf item).map Item.isPresent

/-- The name of what stands in a place. -/
def nameOf (m : Model) (item : Item) : Except Fault Item :=
  m.partOf item "name"

/-- Whether a diagnostic is an error. What is no diagnostic may have a part that says so. -/
def errorOf (m : Model) (item : Item) : Except Fault Item :=
  match m.shapeIn? item with
  | some (.diagnostic severity _) => .ok (.value (.bool severity.isErrorSeverity))
  | _ => m.partOf item "is_error"

/-- Some item is an error, the items before it being diagnostics. -/
def anyError (m : Model) : List Item → Except Fault Bool
  | [] => .ok false
  | item :: rest => do
    if (← m.errorOf item).isPresent then return true else anyError m rest

/-- Whether some diagnostic of a grammar is an error. What is no grammar may have a part that says
so. -/
def errorsOf (m : Model) (item : Item) : Except Fault Item :=
  match m.shapeIn? item with
  | some (.grammar grammar) => do
    return .value (.bool (← m.anyError (← grammar.diagnostics.items)))
  | _ => m.partOf item "has_errors"

/-- The grammar has errors. -/
def hasErrors (m : Model) (item : Item) : Except Fault Bool :=
  (m.errorsOf item).map Item.isPresent

/-- The item can be a member of a set. -/
def isAtom (m : Model) : Item → Bool
  | .value v => v.isAtom
  | .node id => match m.shape? id with
    | some (.diagnostic ..) => false
    | _ => true
  | .list _ => false

/-- The quoted form of a node: its kind with its parts, and dots for a node within itself. Nodes
lie within each other at most as deep as there are nodes. -/
def quotedNode (m : Model) : Nat → List NodeId → NodeId → String
  | 0, _, _ => "..."
  | depth + 1, around, id =>
    if id ∈ around then "..."
    else match m.node? id with
      | none => ""
      | some node =>
        let shown (part : String × Item) : String :=
          part.1 ++ "=" ++ part.2.quotedWith (quotedNode m depth (id :: around))
        node.kindName ++ "(" ++ ", ".intercalate (node.parts.map shown) ++ ")"

/-- The form of an item in running text. -/
def display (m : Model) : Item → String
  | .value v => v.display
  | item => item.quotedWith (m.quotedNode (m.nodes.length + 1) [])

/-- A value is displayed as it is. -/
@[simp] theorem display_value (m : Model) (v : Json) : m.display (.value v) = v.display := rfl

/-- What messages call what stands in a place. -/
def kindName (m : Model) : Item → String
  | .value value => value.kindName
  | .list _ => "list"
  | .node id => ((m.node? id).map Node.kindName).getD ""

/-- A change of a node changes that node and nothing else. -/
theorem node?_update (m : Model) (changed id : NodeId) (change : Node → Node) :
    (m.update changed change).node? id =
      if changed = id then (m.node? id).map change else m.node? id := by
  obtain ⟨c⟩ := changed
  obtain ⟨i⟩ := id
  simp only [update, node?, List.getElem?_modify, NodeId.mk.injEq]
  split <;> simp

/-- Adopting changes the container of the child and nothing else. -/
theorem node?_adopt (m : Model) (parent child id : NodeId) :
    (m.adopt parent child).node? id =
      if child = id then (m.node? id).map ({ · with container := some (.node parent) })
      else m.node? id :=
  m.node?_update child id _

/-- Adopting several children changes their containers and nothing else. -/
theorem node?_adoptAll (m : Model) (parent : NodeId) (children : List NodeId) (id : NodeId) :
    (m.adoptAll parent children).node? id =
      if id ∈ children then (m.node? id).map ({ · with container := some (.node parent) })
      else m.node? id := by
  induction children generalizing m with
  | nil => simp [adoptAll]
  | cons child rest ih =>
    have step : m.adoptAll parent (child :: rest) = (m.adopt parent child).adoptAll parent rest :=
      rfl
    rw [step, ih, node?_adopt]
    by_cases h : child = id
    · subst h
      by_cases hr : child ∈ rest <;> simp [hr, Function.comp_def]
    · have h' : ¬ id = child := fun e => h e.symm
      by_cases hr : id ∈ rest <;> simp [hr, h, h']

end Model
end GrammarChart
