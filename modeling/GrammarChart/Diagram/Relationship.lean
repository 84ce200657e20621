import GrammarChart.Model.Visit
import GrammarChart.Model.Multiplicity
import GrammarChart.Diagram.ClassBlock

/-!
# Relationship lines

Every element that names another rule or a declared type draws at most one line:

* an assignment of a parser rule, from its owner to the rule;
* an assignment of a cross reference, from the declared type to its owner;
* a bare rule call or cross reference, from its owner;
* an action, from its type to its owner.

A rule whose whole body is a rule call is an alias and draws one line without bounds. Calls of
terminal rules are attributes, and unresolved references draw nothing.
-/

set_option autoImplicit false

namespace GrammarChart

/-- The arrows of a diagram. -/
inductive Arrow where
  | composition
  | aggregation
  | association
  | inheritance
  deriving DecidableEq, Repr

/-- How an arrow is written. -/
def Arrow.text : Arrow → String
  | .composition => "*--"
  | .aggregation => "o--"
  | .association => "-->"
  | .inheritance => "<|---"

/-- The arrow that nodes of a shape draw. -/
def Shape.arrow? : Shape → Option Arrow
  | .assignment _ operator _ =>
    some (if operator.isText "=" then .aggregation else .composition)
  | .action .. => some .inheritance
  | .crossReference .. => some .association
  | .ruleCall .. => some .composition
  | _ => none

/-- The parts of a line joined by spaces; every part has to be a text. -/
def joinParts (parts : List Item) : Except Fault String :=
  match parts.mapM Item.text? with
  | some texts => .ok (" ".intercalate texts)
  | none => .error .wrongType

/-- A relationship line. The bounds are left out when they are not present, and the feature when
there is none to show. -/
def relationshipLine (source bounds arrow target : Item) (feature : Option String) :
    Except Fault String :=
  let quotedFeature := feature.map fun shown => Item.value (.str ("\"" ++ shown ++ "\""))
  let parts := source :: (if bounds.isPresent then [bounds] else []) ++ arrow ::
    quotedFeature.toList ++ [target]
  (joinParts parts).map (· ++ "\n")

namespace Model

/-- The arrow that what stands in a place draws. -/
def arrowOf (m : Model) (item : Item) : Except Fault Arrow :=
  match (m.shapeIn? item).bind Shape.arrow? with
  | some arrow => .ok arrow
  | none => .error (.violation (.noArrow (m.kindName item)))

/-- How a feature is shown on a line, when it is present. -/
def shownFeature (m : Model) (feature : Item) : Option String :=
  if feature.isPresent then some (m.display feature) else none

/-- The line from one name to another that an element draws, with the bounds of that element. -/
def drawnLine (m : Model) (element : NodeId) (source target feature : Item) :
    Except Fault String := do
  let arrow ← m.arrowOf (.node element)
  relationshipLine source (.value (.str (m.multiplicity element).text))
    (.value (.str arrow.text)) target (m.shownFeature feature)

/-- The name of the parser rule that a rule call leads to. -/
def parserRuleName (m : Model) (rule : Item) : Except Fault (Option Item) := do
  match ← m.targetShape rule with
  | some (.parserRule name ..) => return some name
  | _ => return none

/-- The terminal of a cross reference, when it is a rule call, leads to a rule. -/
def terminalIsUsable (m : Model) (terminal : Item) : Except Fault Bool :=
  match m.shapeIn? terminal with
  | some (.ruleCall rule) => do
    match ← m.targetShape rule with
    | some (.parserRule ..) => return true
    | some (.terminalRule ..) => return true
    | _ => return false
  | _ => .ok true

/-- The name of the type that a cross reference declares, if it can be drawn. A type whose name is
null is not drawn. -/
def declaredType (m : Model) (type terminal : Item) : Except Fault (Option Item) := do
  if (← m.isResolved type) && (← m.terminalIsUsable terminal) then
    let name ← m.nameOf (← m.targetOf type)
    return if name.isNothing then none else some name
  else return none

/-- The name of the type that an action makes: the inferred one, or that of the type it names. -/
def typeNameOf (m : Model) (type inferredType : Item) : Except Fault Item := do
  if inferredType.isPresent then return inferredType
  else if type.isNothing then return .nothing
  else if ← m.isResolved type then m.nameOf (← m.targetOf type)
  else return .nothing

/-- The name of the type that what stands in a place makes. What is no action may have a part that
says so. -/
def typeName (m : Model) (item : Item) : Except Fault Item :=
  match m.shapeIn? item with
  | some (.action type inferredType _ _) => m.typeNameOf type inferredType
  | _ => m.partOf item "type_name"

/-- The line that an element draws from its owner to a name. Without a name it draws none. -/
def lineFromOwner (m : Model) (element : NodeId) (feature : Item) (name : Option Item) :
    Emission String :=
  match name with
  | none => .nothing
  | some name => .ofExcept do m.drawnLine element (← m.ownerName element) name feature

/-- The line that an element draws from a name to its owner. Without a name it draws none. -/
def lineToOwner (m : Model) (element : NodeId) (feature : Item) (name : Option Item) :
    Emission String :=
  match name with
  | none => .nothing
  | some name => .ofExcept do m.drawnLine element name (← m.ownerName element) feature

/-- The line that a call or a cross reference below an assignment draws. -/
def assignedLine (m : Model) (assignment : NodeId) (feature item : Item) :
    Emission String :=
  match m.shapeIn? item with
  | some (.ruleCall rule) =>
    (Emission.ofExcept (m.parserRuleName rule)).flatMap (m.lineFromOwner assignment feature)
  | some (.crossReference type terminal) =>
    (Emission.ofExcept (m.declaredType type terminal)).flatMap (m.lineToOwner assignment feature)
  | _ => .nothing

/-- The lines of everything that an assignment assigns, down to the given depth: its terminal, or
the members of groups and alternatives in its place. -/
def assignedTo (m : Model) (assignment : NodeId) (feature : Item) : Nat → Item → Emission String
  | 0, _ => .nothing
  | depth + 1, item =>
    (m.assignedLine assignment feature item).append
      ((m.membersOf item).flatMap (assignedTo m assignment feature depth))

/-- The lines that an element draws. -/
def elementLines (m : Model) (id : NodeId) : Emission String :=
  match m.shape? id with
  | some (.assignment feature _ terminal) =>
    m.assignedTo id feature (m.nodes.length + 1) terminal
  | some (.ruleCall rule) =>
    (Emission.ofExcept (m.parserRuleName rule)).flatMap (m.lineFromOwner id .nothing)
  | some (.crossReference type terminal) =>
    (Emission.ofExcept (m.declaredType type terminal)).flatMap (m.lineFromOwner id .nothing)
  | some (.action type inferredType feature _) =>
    (Emission.ofExcept (m.typeNameOf type inferredType)).flatMap fun name =>
      if name.isNothing then .nothing else m.lineToOwner id feature (some name)
  | _ => .nothing

/-- The lines that a visited element draws. -/
def visitedLines (m : Model) : Handler × Item → Emission String
  | (_, .node id) => m.elementLines id
  | _ => .nothing

/-- The line of an alias. -/
def aliasLine (m : Model) (name rule : Item) : Emission String :=
  (Emission.ofExcept (m.parserRuleName rule)).flatMap fun target =>
    match target with
    | none => .nothing
    | some target =>
      .ofExcept (relationshipLine name .nothing (.value (.str Arrow.composition.text)) target none)

/-- The relationship lines of a rule. -/
def relationshipLines (m : Model) (rule : Item) : Emission String :=
  match m.drawnRule? rule with
  | none => .nothing
  | some (name, definition) =>
    match m.shapeIn? definition with
    | some (.ruleCall call) => m.aliasLine name call
    | _ => (m.visits definition).flatMap m.visitedLines

end Model
end GrammarChart
