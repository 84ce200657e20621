import GrammarChart.Model.Basic

/-!
# Containment

Upward walks over the containers of a node. `Model.ancestors` lists the nodes that a node stands
in, from the nearest one on; the rule that owns an element is the first rule among them, and a
search for an enclosing element looks no further than that rule.
-/

set_option autoImplicit false

namespace GrammarChart.Model

/-- The nodes met on the way up from a container, at most the given number of them. What is no node
or has no container ends the way. -/
def climb (m : Model) : Nat → Item → List NodeId
  | steps + 1, .node id =>
    match m.node? id with
    | some node => id :: climb m steps (node.container.getD .nothing)
    | none => []
  | _, _ => []

/-- What a node stands in. Only nodes of some kinds stand in anything. -/
def containerOf (m : Model) (id : NodeId) : Except Fault Item :=
  match (m.node? id).bind Node.container with
  | some container => .ok container
  | none => .error .noField

/-- The nodes that a node stands in, from the nearest one on. No way up meets more nodes than there
are, unless it goes in circles. -/
def ancestors (m : Model) (id : NodeId) : List NodeId :=
  match m.node? id with
  | some node => m.climb m.nodes.length (node.container.getD .nothing)
  | none => []

/-- The node of a number has the property. -/
def nodeIs (m : Model) (property : Node → Bool) (id : NodeId) : Bool :=
  (m.node? id).any property

/-- The innermost rule that an element stands in. -/
def ownerRule (m : Model) (id : NodeId) : Except Fault NodeId :=
  match (m.ancestors id).find? (m.nodeIs Node.isRule) with
  | some rule => .ok rule
  | none => .error (.violation (.uncontained (m.kindName (.node id))))

/-- The name of the diagram class that an element belongs to. -/
def ownerName (m : Model) (id : NodeId) : Except Fault Item := do
  m.nameOf (.node (← m.ownerRule id))

/-- The nodes between an element and the rule that owns it, from the nearest one on. -/
def enclosing (m : Model) (id : NodeId) : List NodeId :=
  (m.ancestors id).takeWhile fun a => !m.nodeIs Node.isRule a

/-- The nearest node with the property that an element stands in, within its rule. -/
def nearest (m : Model) (property : Node → Bool) (id : NodeId) : Option NodeId :=
  (m.enclosing id).find? (m.nodeIs property)

/-- The rule that owns an element is a rule. -/
theorem isRule_of_ownerRule {m : Model} {id rule : NodeId} (h : m.ownerRule id = .ok rule) :
    m.nodeIs Node.isRule rule := by
  unfold ownerRule at h
  split at h
  · next found e =>
    simp only [Except.ok.injEq] at h
    subst h
    exact List.find?_some e
  · simp at h

end GrammarChart.Model
