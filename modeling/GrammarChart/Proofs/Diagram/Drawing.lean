import GrammarChart.Diagram.Relationship
import GrammarChart.Proofs.Document.Planting

/-!
# Drawings

What a rule draws, whatever values its words are: its class block, and its relationship lines up to
the fault that stops them. Both are recursions on the tree of the rule and apart from any model, and
a reference counts for nothing but the face of what it leads to, that is, its kind and its name.
-/

set_option autoImplicit false

namespace GrammarChart

/-- What a reference leads to, as far as a diagram can tell. -/
inductive Face where
  | nowhere
  | parserRule (name : Json)
  | terminalRule (name : Json)
  | declaredType (name : Json)
  /-- An element of a rule body. It has no name. -/
  | element
  deriving Repr

namespace Face

/-- The name of a parser rule. -/
def parserRule? : Face → Option Json
  | .parserRule name => some name
  | _ => none

/-- The name of a terminal rule. -/
def terminalRule? : Face → Option Json
  | .terminalRule name => some name
  | _ => none

/-- The reference leads to a rule. -/
def isRule : Face → Bool
  | .parserRule _ => true
  | .terminalRule _ => true
  | _ => false

/-- The name of what a reference leads to. A name that is null counts as none. -/
def name? : Face → Except Fault (Option Json)
  | .nowhere => .ok none
  | .parserRule name => .ok name.word?
  | .terminalRule name => .ok name.word?
  | .declaredType name => .ok name.word?
  | .element => .error .noField

/-- A name is never null. -/
theorem name?_ne_null {f : Face} {name : Json} (named : f.name? = .ok (some name)) :
    name ≠ .null := by
  cases f with
  | nowhere | element => cases named
  | parserRule value | terminalRule value | declaredType value =>
    rintro rfl
    cases value <;> cases named

end Face

/-- A relationship line before it is written. The calls of rules are told apart from the other
elements that draw lines. -/
structure Line where
  source : Json
  bounds : Option Multiplicity
  arrow : Arrow
  feature : Option String
  target : Json
  isCall : Bool

/-- The text of a line. The names at its ends have to be texts. -/
def Line.text (line : Line) : Except Fault String :=
  relationshipLine (.value line.source)
    ((line.bounds.map fun bounds => Item.value (.str bounds.text)).getD .nothing)
    (.value (.str line.arrow.text)) (.value line.target) line.feature

/-- Writes a line. -/
def Line.write (line : Line) : Emission String := .ofExcept line.text

/-- How a feature is shown, when it is present. -/
def Json.shown? (feature : Json) : Option String :=
  if feature.isPresent then some feature.display else none

/-- A value that may be missing, as what stands in its place. -/
def Item.ofWord? : Option Json → Item
  | none => .nothing
  | some word => .value word

/-- A value that may be null stands as it is. -/
@[simp] theorem Item.ofWord?_word? (value : Json) : Item.ofWord? value.word? = .value value := by
  cases value <;> rfl

namespace Phrase

variable {ρ : Type}

/-- The operator of an assignment or of an action. -/
def operator? : Phrase Json ρ → Option Item
  | .assignment _ operator _ _ => some (.value operator)
  | .action _ _ _ operator _ => some (.ofWord? operator)
  | _ => none

/-- The element is an assignment. -/
def isAssignment : Phrase Json ρ → Bool
  | .assignment .. => true
  | _ => false

/-- The element is a group, or alternatives with a mark of their own. -/
def isMarkedGroup : Phrase Json ρ → Bool
  | .group .. => true
  | .alternatives _ mark => (Item.ofWord? mark).isPresent
  | _ => false

/-- The operator that applies to an element within others, the innermost one first: its own, or the
one of the assignment around it. -/
def governingOperator (outer : List (Phrase Json ρ)) (b : Phrase Json ρ) : Option Item :=
  match b.operator? with
  | some operator => some operator
  | none => (outer.find? isAssignment).bind operator?

/-- The signals that apply to an element within others. -/
def signals (outer : List (Phrase Json ρ)) (b : Phrase Json ρ) : List Item :=
  .ofWord? b.mark :: (governingOperator outer b).toList ++
    ((outer.find? isMarkedGroup).map fun group => Item.ofWord? group.mark).toList

/-- The bounds of an element within others. -/
def bounds (outer : List (Phrase Json ρ)) (b : Phrase Json ρ) : Multiplicity :=
  .ofSignals (signals outer b)

end Phrase

namespace Drawing

variable {ρ : Type} (face : ρ → Face)

/-- The name of the terminal rule that is called where a terminal may stand. -/
def calledTerminal? : Option (Phrase Json ρ) → Option Json
  | some (.ruleCall rule _) => (face rule).terminalRule?
  | _ => none

/-- The attribute line of an element. -/
def attributes : Phrase Json ρ → List String
  | .assignment feature operator terminal _ =>
    (calledTerminal? face terminal).toList.map fun name =>
      feature.display ++ operator.display ++ name.display ++ "\n"
  | _ => []

/-- The terminal of a cross reference is no call, or a call that leads to a rule. -/
def isUsable : Option (Phrase Json ρ) → Bool
  | some (.ruleCall rule _) => (face rule).isRule
  | _ => true

/-- The name of the type that a cross reference declares, if it can be drawn. -/
def declared (type : ρ) (terminal : Option (Phrase Json ρ)) : Except Fault (Option Json) :=
  if isUsable face terminal then (face type).name? else .ok none

/-- The name of the type that an action makes. -/
def made (type : Option ρ) (inferredType : Option Json) : Except Fault (Option Json) :=
  match inferredType.filter Json.isPresent with
  | some name => .ok (some name)
  | none => (type.map fun type => (face type).name?).getD (.ok none)

/-- The name of a type that an action makes is never null. -/
theorem made_ne_null {type : Option ρ} {inferredType : Option Json} {name : Json}
    (isMade : made face type inferredType = .ok (some name)) : name ≠ .null := by
  unfold made at isMade
  split at isMade
  · next word kept =>
    cases isMade
    rintro rfl
    obtain ⟨-, present⟩ := Option.filter_eq_some_iff.mp kept
    cases present
  · cases type with
    | none => cases isMade
    | some type => exact Face.name?_ne_null isMade

/-- The line of an element that is assigned to a feature of the owner. -/
def assigned (owner : Json) (bounds : Multiplicity) (arrow : Arrow) (feature : Json) :
    Phrase Json ρ → Emission Line
  | .ruleCall rule _ => .ofList ((face rule).parserRule?.toList.map fun name =>
      ⟨owner, some bounds, arrow, feature.shown?, name, true⟩)
  | .crossReference type terminal _ =>
    (Emission.ofExcept (declared face type terminal)).flatMap fun name =>
      .ofList (name.toList.map fun name =>
        ⟨name, some bounds, arrow, feature.shown?, owner, false⟩)
  | _ => .nothing

/-- The arrow of an assignment with the given operator. -/
def assignmentArrow (operator : Json) : Arrow :=
  if operator.isText "=" then .aggregation else .composition

/-- The lines of an element of the owner that is met within others. -/
def drawn (owner : Json) (met : List (Phrase Json ρ) × Phrase Json ρ) : Emission Line :=
  let bounds := met.2.bounds met.1
  match met.2 with
  | .assignment feature operator terminal _ =>
    Emission.ofEach (assigned face owner bounds (assignmentArrow operator) feature)
      (terminal.toList.flatMap fun t => (t.reached []).map Prod.snd)
  | .ruleCall rule _ => .ofList ((face rule).parserRule?.toList.map fun name =>
      ⟨owner, some bounds, .composition, none, name, true⟩)
  | .crossReference type terminal _ =>
    (Emission.ofExcept (declared face type terminal)).flatMap fun name =>
      .ofList (name.toList.map fun name => ⟨owner, some bounds, .association, none, name, false⟩)
  | .action type inferredType feature _ _ =>
    (Emission.ofExcept (made face type inferredType)).flatMap fun name =>
      .ofList (name.toList.map fun name =>
        ⟨name, some bounds, .inheritance, feature.bind Json.shown?, owner, false⟩)
  | _ => .nothing

/-- The class block of a rule. Only a rule with a body has one. -/
def block (rule : Production Json ρ) : List String :=
  match rule.body? with
  | some body =>
    ["class " ++ rule.name.display ++ " \x7b\n"] ++
      (body.reached []).flatMap (fun met => attributes face met.2) ++ ["\x7d\n"]
  | none => []

/-- The relationship lines of a rule. A rule whose body is a call is an alias and has at most one
line, without bounds. -/
def lines (rule : Production Json ρ) : Emission Line :=
  match rule.body? with
  | none => .nothing
  | some (.ruleCall call _) => .ofList ((face call).parserRule?.toList.map fun name =>
      ⟨rule.name, none, .composition, none, name, true⟩)
  | some body => Emission.ofEach (drawn face rule.name) (body.reached [])

end Drawing

end GrammarChart
