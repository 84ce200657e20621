import GrammarChart.Proofs.Diagram.Lines
import GrammarChart.Proofs.Diagram.Results

/-!
# The compiled document

Rules that stand in a model compile to the text of their diagram, whatever the writer wrote before
and whether or not notes are taken (`result_compileRules`). What each rule contributes is what the
text gives it: its class block (`classBlock_of_standsAt`) and its relationship lines
(`relationshipLines_of_standsAt`).
-/

set_option autoImplicit false

namespace GrammarChart

namespace Emission

/-- The outputs are not stopped, and the fragments among them are the given texts. -/
def Writes (e : Emission Output) (texts : List String) : Prop :=
  e.fault = none ∧ e.items.filterMap Output.fragment? = texts

end Emission

namespace Model

variable {m : Model} {id : NodeId} {rule : Production String Target}

/-- A rule has the name of the tree. -/
theorem nameOf_of_standsAt (h : rule.StandsAt .texts m id) :
    m.nameOf (.node id) = .ok (.value (.str rule.name)) := by
  rw [nameOf_of_seen (Production.standsAt_valued h), Production.name_valued]

/-- The class block of a rule is that of the tree. -/
theorem classBlock_of_standsAt (h : rule.StandsAt .texts m id) (nested : m.NestedBelow id)
    (known : rule.isKnown) : m.classBlock (.node id) = .ofList rule.classBlock := by
  have drawn := classBlock_of_seen (Production.standsAt_valued h) nested
    (rule.isKnown_valued.trans known)
  rw [drawn, Drawing.block_valued]

/-- The relationship lines of a rule are those of the tree. -/
theorem relationshipLines_of_standsAt (h : rule.StandsAt .texts m id) (nested : m.NestedBelow id)
    (known : rule.isKnown) : m.relationshipLines (.node id) = .ofList rule.relationshipLines := by
  have drawn := relationshipLines_of_seen
    (fun target isElement => absurd isElement target.face_ne_element)
    (Production.standsAt_valued h) nested (rule.isKnown_valued.trans known)
  rw [drawn, Drawing.lines_valued]

/-- The rule of a tree stands at the node, and all below it is contained in what it stands in. -/
def Draws (m : Model) (rule : Production String Target) (id : NodeId) : Prop :=
  rule.StandsAt .texts m id ∧ m.NestedBelow id

/-- The outputs of a compilation write the class blocks and then the relationship lines. -/
theorem writes_compilationOutputs {rules : List (Production String Target)} {ids : List NodeId}
    (stand : List.Forall₂ m.Draws rules ids) (known : ∀ rule ∈ rules, rule.isKnown)
    (verbose : Bool) : (m.compilationOutputs verbose (ids.map .node)).Writes
      (rules.flatMap Production.classBlock ++ rules.flatMap Production.relationshipLines) := by
  have named : ∀ item ∈ ids.map Item.node, m.HasName item :=
    hasName_of_forall₂ (fun rule _ _ draws => ⟨rule.name, nameOf_of_standsAt draws.1⟩) stand
  have classes : Emission.ofEach (fun id => m.classBlock (.node id)) ids =
      .ofList (rules.flatMap Production.classBlock) := by
    refine Emission.ofEach_eq_ofList_of_forall₂ ?_ stand
    intro rule mem id _ draws
    exact classBlock_of_standsAt draws.1 draws.2 (known rule mem)
  have relationships : Emission.ofEach (fun id => m.relationshipLines (.node id)) ids =
      .ofList (rules.flatMap Production.relationshipLines) := by
    refine Emission.ofEach_eq_ofList_of_forall₂ ?_ stand
    intro rule mem id _ draws
    exact relationshipLines_of_standsAt draws.1 draws.2 (known rule mem)
  have fragments := fragments_compilationOutputs named verbose
  rw [Emission.ofEach_map, Emission.ofEach_map, classes, relationships] at fragments
  exact ⟨congrArg Emission.fault fragments, congrArg Emission.items fragments⟩

/-- Rules that stand in a model compile to the text of their diagram. -/
theorem result_compileRules {rules : List (Production String Target)} {ids : List NodeId}
    (stand : List.Forall₂ m.Draws rules ids) (known : ∀ rule ∈ rules, rule.isKnown)
    (verbose : Bool) (writer : Writer) :
    (m.compileRules verbose (ids.map .node) writer).result = .ok (Production.diagram rules) := by
  obtain ⟨fault, fragments⟩ := writes_compilationOutputs stand known verbose
  have text : ∀ texts : List String, (Writer.finished (texts.map Json.str)).text =
      .ok ("@startuml\n" ++ String.join texts ++ "@enduml\n") := by
    intro texts
    rw [Writer.text, Writer.joined_texts]
    rfl
  simp only [compileRules, fragments, fault, Writer.reset, Writer.appendAll_writing,
    Option.or_none, Writer.finish, List.nil_append, text, String.join_append]
  rw [Production.diagram, ← String.append_assoc]

/-- A model of two rules, the first of which assigns the second to a feature. -/
def assigning (feature : String) : Model := ⟨[
  .ofShape (.reference ⟨.value (.str "B"), .node ⟨5⟩⟩) .nothing,
  { Node.ofShape (.ruleCall (.node ⟨0⟩)) .nothing with container := some (.node ⟨2⟩) },
  { Node.ofShape (.assignment (.value (.str feature)) (.value (.str "=")) (.node ⟨1⟩)) .nothing with
    container := some (.node ⟨3⟩) },
  .ofShape (.parserRule (.value (.str "A")) (.node ⟨2⟩) .nothing .no .no) .nothing,
  { Node.ofShape (.keyword (.value (.str "b"))) .nothing with container := some (.node ⟨5⟩) },
  .ofShape (.parserRule (.value (.str "B")) (.node ⟨4⟩) .nothing .no .no) .nothing]⟩

/-- The rules of that model. -/
def assigningRules (feature : String) : List (Production String Target) := [
  .parser "A" (some (.assignment feature "=" (some (.ruleCall (.parserRule "B") none)) none)) none
    false false,
  .parser "B" (some (.keyword "b" none)) none false false]

/-- The rules stand in the model. -/
theorem draws_assigning (feature : String) :
    List.Forall₂ (assigning feature).Draws (assigningRules feature) [⟨3⟩, ⟨5⟩] := by
  have nested : (assigning feature).isNested := rfl
  have leads : Target.LedTo (assigning feature) (.node ⟨0⟩) (.parserRule "B") :=
    ⟨⟨0⟩, _, rfl, rfl, .parserRule rfl⟩
  have call : Phrase.StandsAt .texts (assigning feature)
      (.ruleCall (.parserRule "B") none : Phrase String Target) ⟨1⟩ := ⟨_, leads, _, rfl, rfl, rfl⟩
  have assignment : Phrase.StandsAt .texts (assigning feature)
      (.assignment feature "=" (some (.ruleCall (.parserRule "B") none)) none) ⟨2⟩ :=
    ⟨_, ⟨_, rfl, call⟩, _, rfl, rfl, rfl⟩
  have keyword : Phrase.StandsAt .texts (assigning feature)
      (.keyword "b" none : Phrase String Target) ⟨4⟩ := ⟨_, rfl, rfl, rfl⟩
  refine .cons ⟨⟨_, ⟨_, rfl, assignment⟩, rfl⟩, nestedBelow_of_isNested nested _⟩
    (.cons ⟨⟨_, ⟨_, rfl, keyword⟩, rfl⟩, nestedBelow_of_isNested nested _⟩ .nil)

/-- The model compiles to the diagram of its rules. -/
theorem result_compileRules_assigning :
    List.Forall₂ (assigning "b").Draws (assigningRules "b") [⟨3⟩, ⟨5⟩] ∧
      (∀ rule ∈ assigningRules "b", rule.isKnown) ∧
      ((assigning "b").compileRules false ([⟨3⟩, ⟨5⟩].map .node) .idle).result =
        .ok (Production.diagram (assigningRules "b")) :=
  ⟨draws_assigning "b", by decide,
    result_compileRules (draws_assigning "b") (by decide) false .idle⟩

/-- A feature without a name is left out of its line, quotation marks and all. -/
theorem compileRules_assigning_unnamed :
    List.Forall₂ (assigning "").Draws (assigningRules "") [⟨3⟩, ⟨5⟩] ∧
      ((assigning "").compileRules false ([⟨3⟩, ⟨5⟩].map .node) .idle).result =
        .ok "@startuml\nclass A \x7b\n\x7d\nclass B \x7b\n\x7d\nA \"1..1\" o-- B\n@enduml\n" ∧
      ((assigning "").compileRules false ([⟨3⟩, ⟨5⟩].map .node) .idle).result ≠
        .ok ("@startuml\nclass A \x7b\n\x7d\nclass B \x7b\n\x7d\n" ++
          "A \"1..1\" o-- \"\" B\n@enduml\n") := by
  have compiled : ((assigning "").compileRules false ([⟨3⟩, ⟨5⟩].map .node) .idle).result =
      .ok "@startuml\nclass A \x7b\n\x7d\nclass B \x7b\n\x7d\nA \"1..1\" o-- B\n@enduml\n" := rfl
  refine ⟨draws_assigning "", compiled, ?_⟩
  rw [compiled]
  simp

end Model
end GrammarChart
