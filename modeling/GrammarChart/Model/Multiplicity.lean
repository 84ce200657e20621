import GrammarChart.Model.Containment

/-!
# Multiplicities

How often an element may occur in what its rule describes. The signals are the mark of the element
itself, the operator of the element or of the assignment it stands in, and the mark of the group it
stands in. A question mark lowers the lower bound to zero; a star, a plus or an adding operator
lifts the upper bound. No signal undoes another.
-/

set_option autoImplicit false

namespace GrammarChart

/-- Bounds on a number of occurrences: at least one unless `optional`, at most one unless
`many`. -/
structure Multiplicity where
  optional : Bool
  many : Bool
  deriving DecidableEq, Repr

namespace Multiplicity

/-- The signal lowers the lower bound. -/
def isOptionalSignal (signal : Item) : Bool :=
  signal.isText "?"

/-- The signal lifts the upper bound. -/
def isManySignal (signal : Item) : Bool :=
  signal.isText "*" || signal.isText "+" || signal.isText "+="

/-- The bounds that signals give together. -/
def ofSignals (signals : List Item) : Multiplicity :=
  ⟨signals.any isOptionalSignal, signals.any isManySignal⟩

/-- The lower bound as written. -/
def lower (bounds : Multiplicity) : String :=
  if bounds.optional then "0" else "1"

/-- The upper bound as written. -/
def upper (bounds : Multiplicity) : String :=
  if bounds.many then "*" else "1"

/-- The bounds between quotation marks, as written on a relationship line. -/
def text (bounds : Multiplicity) : String :=
  "\"" ++ bounds.lower ++ ".." ++ bounds.upper ++ "\""

/-- The order of the signals does not matter. -/
theorem ofSignals_perm {xs ys : List Item} (h : xs.Perm ys) : ofSignals xs = ofSignals ys := by
  simp [ofSignals, h.any_eq]

end Multiplicity

namespace Node

/-- The node is an assignment. -/
def isAssignment (node : Node) : Bool :=
  match node.shape with
  | .assignment .. => true
  | _ => false

/-- The node is a group, or alternatives with a mark of their own. -/
def isMarkedGroup (node : Node) : Bool :=
  match node.shape with
  | .group _ => true
  | .alternatives _ => node.cardinality.isPresent
  | _ => false

/-- The operator of an assignment or of an action. -/
def operator? (node : Node) : Option Item :=
  match node.shape with
  | .assignment _ operator _ => some operator
  | .action _ _ _ operator => some operator
  | _ => none

end Node

namespace Model

/-- The nearest group that an element stands in; alternatives without a mark are looked through. -/
def enclosingGroup (m : Model) (id : NodeId) : Option NodeId :=
  m.nearest Node.isMarkedGroup id

/-- The mark of an element. -/
def markOf (m : Model) (id : NodeId) : Item :=
  ((m.node? id).map Node.cardinality).getD .nothing

/-- The operator of an element. -/
def operatorOf (m : Model) (id : NodeId) : Option Item :=
  (m.node? id).bind Node.operator?

/-- The operator that applies to an element: its own, or the one of the assignment around it. -/
def governingOperator (m : Model) (id : NodeId) : Option Item :=
  match m.operatorOf id with
  | some operator => some operator
  | none => (m.nearest Node.isAssignment id).bind m.operatorOf

/-- The signals that apply to an element. -/
def signals (m : Model) (id : NodeId) : List Item :=
  m.markOf id :: (m.governingOperator id).toList ++ ((m.enclosingGroup id).map m.markOf).toList

/-- The multiplicity of an element. -/
def multiplicity (m : Model) (id : NodeId) : Multiplicity :=
  Multiplicity.ofSignals (m.signals id)

end Model
end GrammarChart
