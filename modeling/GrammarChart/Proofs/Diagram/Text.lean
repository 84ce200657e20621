import GrammarChart.Diagram.Relationship
import GrammarChart.Proofs.Model.Phrase

/-!
# The text of a diagram

What a diagram of rules says, as a recursion on their phrases and apart from any model. An element
inherits signals from the elements around it: the operator of the innermost assignment, and the
mark of the innermost group, where alternatives count as a group when they have a mark. What an
element draws depends on the element, on what it inherits and on the name of its rule, and nothing
else; `Production.diagram` puts the class blocks and the relationship lines of rules together.
-/

set_option autoImplicit false

namespace GrammarChart

variable {ρ : Type}

/-- What a reference leads to, as far as a diagram shows it. -/
inductive Target where
  | nowhere
  | parserRule (name : String)
  | terminalRule (name : String)
  | declaredType (name : String)
  deriving DecidableEq, Repr

namespace Target

/-- The name of what a reference leads to. -/
def name? : Target → Option String
  | .nowhere => none
  | .parserRule name => some name
  | .terminalRule name => some name
  | .declaredType name => some name

/-- The reference leads to a rule. -/
def isRule : Target → Bool
  | .parserRule _ => true
  | .terminalRule _ => true
  | _ => false

end Target

/-- The signals that an element inherits from the elements around it. -/
structure Inherited where
  operator : Option String
  mark : Option String
  deriving DecidableEq, Repr

namespace Inherited

/-- What the parts of an element inherit, when the element itself inherits the given signals. -/
def within (signals : Inherited) : Phrase String ρ → Inherited
  | .assignment _ operator _ _ => { signals with operator := some operator }
  | .group _ mark => { signals with mark := mark }
  | .alternatives _ mark =>
    if mark = none ∨ mark = some "" then signals else { signals with mark := mark }
  | _ => signals

/-- What is inherited within the given elements, the innermost one first. -/
def around : List (Phrase String ρ) → Inherited
  | [] => ⟨none, none⟩
  | b :: outer => (around outer).within b

/-- The operator that applies to an element: its own, or the inherited one. -/
def operatorOf (signals : Inherited) : Phrase String ρ → Option String
  | .assignment _ operator _ _ => some operator
  | .action _ _ _ operator _ => operator
  | _ => signals.operator

/-- The bounds of an element that inherits the given signals. -/
def bounds (inherited : Inherited) (b : Phrase String ρ) : Multiplicity :=
  let signals := [b.mark, inherited.operatorOf b, inherited.mark]
  ⟨signals.contains (some "?"),
    signals.contains (some "*") || signals.contains (some "+") || signals.contains (some "+=")⟩

end Inherited

/-- The feature of a relationship line between quotation marks. An empty one is left out. -/
def featureLabel (feature : String) : String :=
  if feature = "" then "" else "\"" ++ feature ++ "\" "

/-- A relationship line with bounds. -/
def boundedLine (source : String) (bounds : Multiplicity) (arrow : Arrow)
    (feature target : String) : String :=
  source ++ " " ++ bounds.text ++ " " ++ arrow.text ++ " " ++ featureLabel feature ++ target ++
    "\n"

namespace Phrase

/-- The name of the terminal rule that is called where a terminal may stand. -/
def calledTerminal? : Option (Phrase String Target) → Option String
  | some (.ruleCall (.terminalRule name) _) => some name
  | _ => none

/-- The attribute line of an element: only the assignment of a call of a terminal rule has one. -/
def attributeLines : Phrase String Target → List String
  | .assignment feature operator terminal _ =>
    (calledTerminal? terminal).toList.map fun name => feature ++ operator ++ name ++ "\n"
  | _ => []

/-- The terminal of a cross reference is no call, or a call that leads to a rule. -/
def isUsable : Option (Phrase String Target) → Bool
  | some (.ruleCall target _) => target.isRule
  | _ => true

/-- The name of the type that a cross reference declares, if it can be drawn. -/
def declared? (type : Target) (terminal : Option (Phrase String Target)) : Option String :=
  if isUsable terminal then type.name? else none

/-- The name of the type that an action makes. -/
def made? (type : Option Target) : Option String → Option String
  | none => type.bind Target.name?
  | some inferredType => if inferredType = "" then type.bind Target.name? else some inferredType

/-- The line of an element that is assigned to a feature of the owner. -/
def assignedLines (owner : String) (bounds : Multiplicity) (arrow : Arrow) (feature : String) :
    Phrase String Target → List String
  | .ruleCall (.parserRule name) _ => [boundedLine owner bounds arrow feature name]
  | .crossReference type terminal _ =>
    (declared? type terminal).toList.map fun declared =>
      boundedLine declared bounds arrow feature owner
  | _ => []

/-- The arrow of an assignment with the given operator. -/
def assignmentArrow (operator : String) : Arrow :=
  if operator = "=" then .aggregation else .composition

/-- The lines of an element of the owner that inherits the given signals. -/
def drawnLines (owner : String) (inherited : Inherited) (b : Phrase String Target) : List String :=
  match b with
  | .assignment feature operator terminal _ =>
    terminal.toList.flatMap fun t => (t.reached []).flatMap fun met =>
      met.2.assignedLines owner (inherited.bounds b) (assignmentArrow operator) feature
  | .ruleCall (.parserRule name) _ =>
    [boundedLine owner (inherited.bounds b) .composition "" name]
  | .crossReference type terminal _ =>
    (declared? type terminal).toList.map fun declared =>
      boundedLine owner (inherited.bounds b) .association "" declared
  | .action type inferredType feature _ _ =>
    (made? type inferredType).toList.map fun made =>
      boundedLine made (inherited.bounds b) .inheritance (feature.getD "") owner
  | _ => []

end Phrase

namespace Production

/-- The lines of the class block of a rule. Only a rule with a body has one. -/
def classBlock (rule : Production String Target) : List String :=
  match rule.body? with
  | some body =>
    ["class " ++ rule.name ++ " \x7b\n"] ++ (body.reached []).flatMap (·.2.attributeLines) ++
      ["\x7d\n"]
  | none => []

/-- The relationship lines of a rule. A rule whose body is a call is an alias and has at most one
line, without bounds. -/
def relationshipLines (rule : Production String Target) : List String :=
  match rule.body? with
  | some (.ruleCall (.parserRule other) _) => [rule.name ++ " *-- " ++ other ++ "\n"]
  | some (.ruleCall ..) => []
  | some body => (body.reached []).flatMap fun met => met.2.drawnLines rule.name (.around met.1)
  | none => []

/-- The text of the diagram of rules. -/
def diagram (rules : List (Production String Target)) : String :=
  "@startuml\n" ++ String.join (rules.flatMap classBlock) ++
    String.join (rules.flatMap relationshipLines) ++ "@enduml\n"

end Production
end GrammarChart
