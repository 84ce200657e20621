import GrammarChart.Model.Basic

/-!
# Building models by hand

A node can be built from named parts and have its parts set afterwards. Nothing checks what stands
in a place; only the names of the parts have to be those of the kind, and a node that is made has
to be able to contain its children. Setting a part moves no containers.
-/

set_option autoImplicit false

namespace GrammarChart

namespace Shape

/-- The shape of a kind before any part of it is given. -/
def blank : String → Option Shape
  | "Reference" => some (.reference ⟨.nothing, .nothing⟩)
  | "Keyword" => some (.keyword .nothing)
  | "RuleCall" => some (.ruleCall .nothing)
  | "CrossReference" => some (.crossReference .nothing .nothing)
  | "Assignment" => some (.assignment .nothing .nothing .nothing)
  | "Alternatives" => some (.alternatives (.list []))
  | "Group" => some (.group (.list []))
  | "Action" => some (.action .nothing .nothing .nothing .nothing)
  | "ParserRule" => some (.parserRule .nothing .nothing .nothing .no .no)
  | "TerminalRule" => some (.terminalRule .nothing .nothing .no .no)
  | "TypeDeclaration" => some (.typeDeclaration .nothing (.value (.str "Interface")))
  | "Diagnostic" => some (.diagnostic .nothing (.value (.str "")))
  | "Grammar" => some (.grammar ⟨.nothing, .list [], .list [], .list [], .list [], .nothing⟩)
  | _ => none

/-- The parts that have to be given for a node of this shape. -/
def required : Shape → List String
  | .reference _ => ["text"]
  | .keyword _ => ["value"]
  | .ruleCall _ => ["rule"]
  | .crossReference .. => ["type"]
  | .assignment .. => ["feature", "operator", "terminal"]
  | .parserRule .. => ["name"]
  | .terminalRule .. => ["name"]
  | .typeDeclaration .. => ["name"]
  | .diagnostic .. => ["severity"]
  | .grammar _ => ["name"]
  | _ => []

/-- What can be asked of a node of this shape but is not one of its parts. -/
def derived : Shape → List String
  | .reference _ => ["resolved"]
  | .action .. => ["type_name"]
  | .diagnostic .. => ["is_error"]
  | .grammar _ => ["has_errors"]
  | _ => []

/-- The grammar with a part of it set. -/
def grammarWithPart (g : Grammar) (name : String) (item : Item) : Option Grammar :=
  match name with
  | "name" => some { g with name := item }
  | "rules" => some { g with rules := item }
  | "types" => some { g with types := item }
  | "imports" => some { g with imports := item }
  | "diagnostics" => some { g with diagnostics := item }
  | "path" => some { g with path := item }
  | _ => none

/-- The shape with a part of it set, if it has that part. -/
def withPart (shape : Shape) (name : String) (item : Item) : Option Shape :=
  match shape, name with
  | .reference l, "text" => some (.reference { l with text := item })
  | .reference l, "ref" => some (.reference { l with target := item })
  | .keyword _, "value" => some (.keyword item)
  | .ruleCall _, "rule" => some (.ruleCall item)
  | .crossReference _ t, "type" => some (.crossReference item t)
  | .crossReference r _, "terminal" => some (.crossReference r item)
  | .assignment _ o t, "feature" => some (.assignment item o t)
  | .assignment f _ t, "operator" => some (.assignment f item t)
  | .assignment f o _, "terminal" => some (.assignment f o item)
  | .alternatives _, "elements" => some (.alternatives item)
  | .group _, "elements" => some (.group item)
  | .action _ i f o, "type" => some (.action item i f o)
  | .action t _ f o, "inferred_type" => some (.action t item f o)
  | .action t i _ o, "feature" => some (.action t i item o)
  | .action t i f _, "operator" => some (.action t i f item)
  | .parserRule _ d i e f, "name" => some (.parserRule item d i e f)
  | .parserRule n _ i e f, "definition" => some (.parserRule n item i e f)
  | .parserRule n d _ e f, "inferred_type" => some (.parserRule n d item e f)
  | .parserRule n d i _ f, "entry" => some (.parserRule n d i item f)
  | .parserRule n d i e _, "fragment" => some (.parserRule n d i e item)
  | .terminalRule _ r h f, "name" => some (.terminalRule item r h f)
  | .terminalRule n _ h f, "regex" => some (.terminalRule n item h f)
  | .terminalRule n r _ f, "hidden" => some (.terminalRule n r item f)
  | .terminalRule n r h _, "fragment" => some (.terminalRule n r h item)
  | .typeDeclaration _ k, "name" => some (.typeDeclaration item k)
  | .typeDeclaration n _, "kind" => some (.typeDeclaration n item)
  | .diagnostic _ m, "severity" => some (.diagnostic item m)
  | .diagnostic s _, "message" => some (.diagnostic s item)
  | .grammar g, name => (grammarWithPart g name item).map .grammar
  | _, _ => none

end Shape

namespace Node

/-- The node with a part of it set, if nodes of its kind are made with that part. -/
def withPart (node : Node) (name : String) (item : Item) : Option Node :=
  match name with
  | "container" => if node.container.isSome then some { node with container := item } else none
  | "cardinality" =>
    if node.shape.hasMark then some { node with cardinality := item } else none
  | name => (node.shape.withPart name item).map ({ node with shape := · })

/-- Gives parts to a node one after the other. -/
def withParts (node : Node) : Parts → Except Fault Node
  | [] => .ok node
  | (name, item) :: rest =>
    match node.withPart name item with
    | some node => withParts node rest
    | none => .error .wrongType

/-- Builds a node of a kind from its parts. -/
def build (kind : String) (parts : Parts) : Except Fault Node :=
  match Shape.blank kind with
  | none => .error (.missingKey kind)
  | some shape =>
    if shape.required.all fun name => parts.any (·.1 == name) then
      (ofShape shape .nothing).withParts parts
    else .error .wrongType

/-- Puts a part into its place, or among the extras when nodes of its kind have no such part. -/
def put (node : Node) (name : String) (item : Item) : Node :=
  match name with
  | "container" => { node with container := item }
  | "cardinality" => { node with cardinality := item }
  | name =>
    match node.shape.withPart name item with
    | some shape => { node with shape := shape }
    | none => { node with extras := node.extras.insert name item }

/-- A node of a kind that no pass knows. It takes any parts. -/
def ofUnknownKind (kind : String) (parts : Parts) : Node :=
  parts.foldl (fun node (name, item) => node.put name item) (ofShape (.unknown kind) .nothing)

/-- Sets a part of a node. What is only asked of a node cannot be set. -/
def set (node : Node) (name : String) (item : Item) : Except Fault Node :=
  if node.shape.derived.contains name then .error .noField else .ok (node.put name item)

/-- Adds an item at the end of a part that is a list. -/
def push (node : Node) (name : String) (item : Item) : Except Fault Node :=
  match node.part? name with
  | some (.list items) => .ok (node.put name (.list (items ++ [item])))
  | _ => .error .noField

end Node

/-- Adds a node that was built by hand, unless it cannot contain its children. Children that it
can contain before that have it as their container all the same. -/
def Model.addBuilt (m : Model) (node : Node) : Model × Except Fault NodeId :=
  let (m, id) := m.add node
  match node.shape.children.fault with
  | some fault => (m, .error fault)
  | none => (m, .ok id)

end GrammarChart
