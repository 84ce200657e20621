import GrammarChart.Model.Basic
import GrammarChart.Emission

/-!
# Visits

A pass over a rule body visits its elements in the order of the grammar text: a group or an
alternative before its members, and below no other element. Each kind of element has its handler;
an element of a kind without one stops the pass.
-/

set_option autoImplicit false

namespace GrammarChart

/-- The ways in which elements are handled. -/
inductive Handler where
  | keyword
  | assignment
  | crossReference
  | ruleCall
  | alternatives
  | group
  | action
  deriving DecidableEq, Repr

/-- The name of a handler. -/
def Handler.name : Handler → String
  | .keyword => "visit_keyword"
  | .assignment => "visit_assignment"
  | .crossReference => "visit_cross_reference"
  | .ruleCall => "visit_rule_call"
  | .alternatives => "visit_alternatives"
  | .group => "visit_group"
  | .action => "visit_action"

/-- The handler for elements of a shape. -/
def Shape.handler? : Shape → Option Handler
  | .keyword .. => some .keyword
  | .assignment .. => some .assignment
  | .crossReference .. => some .crossReference
  | .ruleCall .. => some .ruleCall
  | .alternatives .. => some .alternatives
  | .group .. => some .group
  | .action .. => some .action
  | _ => none

namespace Model

/-- The handler for what stands in a place. Only elements have handlers. -/
def handlerOf (m : Model) (item : Item) : Except Fault Handler :=
  match (m.shapeIn? item).bind Shape.handler? with
  | some handler => .ok handler
  | none => .error (.violation (.unsupportedElement (m.kindName item)))

/-- The members of a group or of alternatives. No other shape has any. -/
def membersOf (m : Model) (item : Item) : Emission Item :=
  match m.shapeIn? item with
  | some (.alternatives elements) => (Emission.ofExcept elements.items).flatMap .ofList
  | some (.group elements) => (Emission.ofExcept elements.items).flatMap .ofList
  | _ => .nothing

/-- The visits of a body down to the given depth. -/
def visitsTo (m : Model) : Nat → Item → Emission (Handler × Item)
  | 0, _ => .nothing
  | depth + 1, item =>
    (Emission.ofExcept (m.handlerOf item)).flatMap fun handler =>
      (Emission.ofList [(handler, item)]).append ((m.membersOf item).flatMap (visitsTo m depth))

/-- The visits of a body in order. A body is at most as deep as the model has nodes, and below the
deepest node may stand what is no node. -/
def visits (m : Model) (body : Item) : Emission (Handler × Item) :=
  m.visitsTo (m.nodes.length + 1) body

end Model
end GrammarChart
