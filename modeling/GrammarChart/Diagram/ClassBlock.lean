import GrammarChart.Model.Visit

/-!
# Class blocks

A parser rule with a definition is drawn as a class. Each assignment of a terminal rule in its
body, however deep in groups and alternatives, is an attribute of the class.
-/

set_option autoImplicit false

namespace GrammarChart.Model

/-- The name of the terminal rule that an assigned rule call leads to. -/
def terminalName (m : Model) (terminal : Item) : Except Fault (Option Item) :=
  match m.shapeIn? terminal with
  | some (.ruleCall rule) => do
    match ← m.targetShape rule with
    | some (.terminalRule name ..) => return some name
    | _ => return none
  | _ => .ok none

/-- The attribute line of an assignment to a terminal rule. A cross reference has a terminal too,
but no feature that a line could name, unless it was given one. -/
def attributeLine (m : Model) (item : Item) : Except Fault (Option String) := do
  match ← m.terminalName (← m.partOf item "terminal") with
  | none => return none
  | some name =>
    let feature ← m.partOf item "feature"
    let operator ← m.partOf item "operator"
    return some (m.display feature ++ m.display operator ++ m.display name ++ "\n")

/-- The attribute lines of a visited element. -/
def visitedAttribute (m : Model) : Handler × Item → Emission String
  | (.assignment, item) =>
    (Emission.ofExcept (m.attributeLine item)).flatMap fun line => .ofList line.toList
  | _ => .nothing

/-- The attribute lines of a body. -/
def attributeLines (m : Model) (definition : Item) : Emission String :=
  (m.visits definition).flatMap m.visitedAttribute

/-- The first line of the class block of a name. -/
def classHeader (m : Model) (name : Item) : String :=
  "class " ++ m.display name ++ " \x7b\n"

/-- The last line of every class block. -/
def classFooter : String := "\x7d\n"

/-- The name and the body of a parser rule that has one. -/
def drawnRule? (m : Model) (rule : Item) : Option (Item × Item) :=
  match m.shapeIn? rule with
  | some (.parserRule name definition ..) =>
    if definition.isNothing then none else some (name, definition)
  | _ => none

/-- The class block of a rule. -/
def classBlock (m : Model) (rule : Item) : Emission String :=
  match m.drawnRule? rule with
  | some (name, definition) =>
    ((Emission.ofList [m.classHeader name]).append (m.attributeLines definition)).append
      (.ofList [classFooter])
  | none => .nothing

end GrammarChart.Model
