import GrammarChart.Proofs.Diagram.Known

/-!
# Normalized bodies

Normalizing a body drops the keywords from its lists of elements and puts the elements of
alternatives without a mark in their place (`Phrase.normalize`); nothing of either kind is left in a
list (`Phrase.spliced_of_mem_members_normalize`). Neither draws a line or hands a signal down, so
what is read off a body, given what is inherited, is the same after normalizing
(`Phrase.Indifferent.listed_normalize`), and so is the document (`Model.result_normalized`).
-/

set_option autoImplicit false

namespace GrammarChart

variable {ρ : Type}

namespace Phrase

/-- What stands in the place of an element in a normalized list: nothing for a keyword, the elements
of alternatives without a mark, and otherwise the element itself. -/
def spliced : Phrase String ρ → List (Phrase String ρ)
  | .keyword .. => []
  | .alternatives elements mark =>
    if mark = none ∨ mark = some "" then elements else [.alternatives elements mark]
  | b => [b]

mutual

/-- The element with all lists of elements at and below it normalized. -/
def normalize : Phrase String ρ → Phrase String ρ
  | .crossReference type terminal mark => .crossReference type (normalizeIn terminal) mark
  | .assignment feature operator terminal mark =>
    .assignment feature operator (normalizeIn terminal) mark
  | .alternatives elements mark => .alternatives (normalizeAll elements) mark
  | .group elements mark => .group (normalizeAll elements) mark
  | .keyword value mark => .keyword value mark
  | .ruleCall rule mark => .ruleCall rule mark
  | .action type inferredType feature operator mark =>
    .action type inferredType feature operator mark
  | .unknown kind mark => .unknown kind mark

/-- The terminal, if there is one, stays where it is and is normalized. -/
def normalizeIn : Option (Phrase String ρ) → Option (Phrase String ρ)
  | none => none
  | some terminal => some terminal.normalize

/-- The elements of a list are normalized, and keywords and unmarked alternatives leave the list. -/
def normalizeAll : List (Phrase String ρ) → List (Phrase String ρ)
  | [] => []
  | b :: rest => b.normalize.spliced ++ normalizeAll rest

end

/-- The elements of a list leave it or stay in it one by one. -/
theorem normalizeAll_eq (elements : List (Phrase String ρ)) :
    normalizeAll elements = elements.flatMap fun b => b.normalize.spliced := by
  induction elements with
  | nil => rfl
  | cons b rest ih => rw [normalizeAll, ih, List.flatMap_cons]

/-- The members of a normalized element are what is left of the normalized members. -/
theorem members_normalize (b : Phrase String ρ) :
    b.normalize.members = b.members.flatMap fun c => c.normalize.spliced := by
  cases b with
  | alternatives elements mark | group elements mark => exact normalizeAll_eq elements
  | _ => rfl

/-- Normalizing keeps the mark of an element. -/
@[simp] theorem mark_normalize (b : Phrase String ρ) : b.normalize.mark = b.mark := by
  cases b <;> rfl

/-- No member of a normalized element is a keyword or alternatives without a mark. -/
theorem spliced_of_mem_members_normalize (b : Phrase String ρ) :
    ∀ c ∈ b.normalize.members, c.spliced = [c] := by
  induction b using induct with
  | step b ih =>
    intro c mem
    rw [members_normalize] at mem
    obtain ⟨inner, member, left⟩ := List.mem_flatMap.mp mem
    have below := ih inner (mem_children_of_mem_members member)
    cases inner with
    | keyword value mark => exact absurd left List.not_mem_nil
    | alternatives elements mark =>
      rw [normalize, spliced] at left
      split at left
      · exact below c left
      · next marked =>
        obtain rfl := List.mem_singleton.mp left
        rw [spliced, if_neg marked]
    | _ =>
      obtain rfl := List.mem_singleton.mp left
      rfl

end Phrase

namespace Inherited

/-- A normalized element hands down what the element hands down. -/
@[simp] theorem within_normalize (signals : Inherited) (b : Phrase String ρ) :
    signals.within b.normalize = signals.within b := by
  cases b <;> rfl

/-- The operator that applies to a normalized element is that of the element. -/
@[simp] theorem operatorOf_normalize (signals : Inherited) (b : Phrase String ρ) :
    signals.operatorOf b.normalize = signals.operatorOf b := by
  cases b <;> rfl

/-- A normalized element has the bounds of the element. -/
@[simp] theorem bounds_normalize (signals : Inherited) (b : Phrase String ρ) :
    signals.bounds b.normalize = signals.bounds b := by
  rw [bounds, bounds, Phrase.mark_normalize, operatorOf_normalize]

end Inherited

namespace Phrase

section Lists

variable {α : Type} (lists : Inherited → Phrase String ρ → List α)

/-- All that is read off a visit of an element within others. -/
def listed (outer : List (Phrase String ρ)) (b : Phrase String ρ) : List α :=
  (b.reached outer).flatMap fun met => lists (.around met.1) met.2

/-- What is read off an element is read before what is read off its members. -/
theorem listed_eq (outer : List (Phrase String ρ)) (b : Phrase String ρ) :
    b.listed lists outer =
      lists (.around outer) b ++ b.members.flatMap (listed lists (b :: outer)) := by
  rw [listed, reached_eq, List.flatMap_cons, List.flatMap_assoc]
  rfl

/-- Of what an element stands in, only the signals that it inherits count. -/
theorem listed_congr (b : Phrase String ρ) : ∀ {outer outer' : List (Phrase String ρ)},
    Inherited.around outer' = .around outer → b.listed lists outer' = b.listed lists outer := by
  induction b using induct with
  | step b ih =>
    intro outer outer' same
    rw [listed_eq, listed_eq, same]
    refine congrArg _ (List.flatMap_congr fun c member => ?_)
    refine ih c (mem_children_of_mem_members member) ?_
    rw [Inherited.around, Inherited.around, same]

/-- What is read off elements does not depend on normalizing: nothing is read off keywords and
alternatives, and normalizing any other element does not change what is read off it. -/
structure Indifferent (lists : Inherited → Phrase String ρ → List α) : Prop where
  keyword : ∀ signals value mark, lists signals (.keyword value mark) = []
  alternatives : ∀ signals elements mark, lists signals (.alternatives elements mark) = []
  normalize : ∀ signals b, lists signals (normalize b) = lists signals b

variable {lists}

/-- An element may give way to what stands in its place in a normalized list. -/
theorem Indifferent.flatMap_spliced (h : Indifferent lists) (outer : List (Phrase String ρ))
    (b : Phrase String ρ) : b.spliced.flatMap (listed lists outer) = b.listed lists outer := by
  cases b with
  | keyword value mark =>
    rw [listed_eq, h.keyword]
    rfl
  | alternatives elements mark =>
    rw [spliced]
    split
    · next unmarked =>
      -- the elements stand one level higher than before, but the level between handed nothing down
      rw [listed_eq, h.alternatives, List.nil_append]
      refine List.flatMap_congr fun c _ => (c.listed_congr lists ?_).symm
      rw [Inherited.around, Inherited.within, if_pos unmarked]
    · exact List.flatMap_singleton _ _
  | _ => exact List.flatMap_singleton _ _

/-- Normalizing an element does not change what is read off a visit of it. -/
theorem Indifferent.listed_normalize (h : Indifferent lists) (b : Phrase String ρ) :
    ∀ {outer outer' : List (Phrase String ρ)}, Inherited.around outer' = .around outer →
      b.normalize.listed lists outer' = b.listed lists outer := by
  induction b using induct with
  | step b ih =>
    -- the elements around differ after normalizing; what carries over is what they hand down
    intro outer outer' around
    have inside : Inherited.around (b.normalize :: outer') = .around (b :: outer) := by
      rw [Inherited.around, Inherited.around, around, Inherited.within_normalize]
    rw [listed_eq, listed_eq, members_normalize, List.flatMap_assoc, h.normalize, around]
    refine congrArg _ (List.flatMap_congr fun c member => ?_)
    rw [h.flatMap_spliced]
    exact ih c (mem_children_of_mem_members member) inside

end Lists

/-- The kind of an element, if no pass knows it. -/
def unknownKinds : Phrase String ρ → List String
  | .unknown kind _ => [kind]
  | _ => []

/-- An element is known when no unknown kind is met. -/
theorem isKnown_iff (b : Phrase String ρ) :
    b.isKnown = true ↔ b.listed (fun _ c => c.unknownKinds) [] = [] := by
  rw [isKnown, listed, List.all_eq_true, List.flatMap_eq_nil_iff]
  refine forall₂_congr fun met _ => ?_
  cases met.2 <;> simp [handler?, unknownKinds]

/-- Normalizing makes no element of an unknown kind and takes none away. -/
theorem isKnown_normalize (b : Phrase String ρ) : b.normalize.isKnown = b.isKnown := by
  have indifferent : Indifferent fun _ (c : Phrase String ρ) => c.unknownKinds := by
    refine ⟨fun _ _ _ => rfl, fun _ _ _ => rfl, fun _ c => ?_⟩
    cases c <;> rfl
  rw [Bool.eq_iff_iff, isKnown_iff, isKnown_iff, indifferent.listed_normalize b rfl]

/-- A normalized terminal calls the terminal rule that the terminal calls. -/
@[simp] theorem calledTerminal?_normalizeIn (terminal : Option (Phrase String Target)) :
    calledTerminal? (normalizeIn terminal) = calledTerminal? terminal := by
  cases terminal with
  | none => rfl
  | some t => cases t <;> rfl

/-- A normalized terminal can be used when the terminal can. -/
@[simp] theorem isUsable_normalizeIn (terminal : Option (Phrase String Target)) :
    isUsable (normalizeIn terminal) = isUsable terminal := by
  cases terminal with
  | none => rfl
  | some t => cases t <;> rfl

/-- Attribute lines do not depend on normalizing. -/
theorem indifferent_attributeLines :
    Indifferent fun _ (b : Phrase String Target) => b.attributeLines := by
  refine ⟨fun _ _ _ => rfl, fun _ _ _ => rfl, fun _ b => ?_⟩
  cases b with
  | assignment feature operator terminal mark =>
    rw [normalize, attributeLines, attributeLines, calledTerminal?_normalizeIn]
  | _ => rfl

/-- The lines of what is assigned do not depend on normalizing. -/
theorem indifferent_assignedLines (owner : String) (bounds : Multiplicity) (arrow : Arrow)
    (feature : String) :
    Indifferent fun _ (b : Phrase String Target) => b.assignedLines owner bounds arrow feature := by
  refine ⟨fun _ _ _ => rfl, fun _ _ _ => rfl, fun _ b => ?_⟩
  cases b with
  | crossReference type terminal mark =>
    rw [normalize, assignedLines, assignedLines, declared?, declared?, isUsable_normalizeIn]
  | _ => rfl

/-- The lines of elements do not depend on normalizing. -/
theorem indifferent_drawnLines (owner : String) :
    Indifferent fun signals (b : Phrase String Target) => b.drawnLines owner signals := by
  refine ⟨fun _ _ _ => rfl, fun _ _ _ => rfl, fun signals b => ?_⟩
  have bounds := signals.bounds_normalize b
  cases b with
  | assignment feature operator terminal mark =>
    rw [normalize] at bounds ⊢
    rw [drawnLines, drawnLines, bounds]
    cases terminal with
    | none => rfl
    | some t =>
      rw [normalizeIn, Option.toList_some, Option.toList_some, List.flatMap_singleton,
        List.flatMap_singleton]
      exact (indifferent_assignedLines owner _ _ feature).listed_normalize t rfl
  | crossReference type terminal mark =>
    rw [normalize] at bounds ⊢
    rw [drawnLines, drawnLines, bounds, declared?, declared?, isUsable_normalizeIn]
  | _ => rfl

end Phrase

namespace Production

/-- The rule with its body normalized. -/
def normalize : Production String ρ → Production String ρ := mapBody Phrase.normalize

/-- Normalizing makes no element of an unknown kind and takes none away. -/
theorem isKnown_normalize (rule : Production String ρ) :
    rule.normalize.isKnown = rule.isKnown :=
  isKnown_mapBody Phrase.isKnown_normalize rule

/-- A normalized rule has the class block of the rule. -/
theorem classBlock_normalize (rule : Production String Target) :
    rule.normalize.classBlock = rule.classBlock := by
  rw [classBlock, classBlock, normalize, body?_mapBody, name_mapBody]
  cases rule.body? with
  | none => rfl
  | some b =>
    have attributes : (b.normalize.reached []).flatMap (·.2.attributeLines) =
        (b.reached []).flatMap (·.2.attributeLines) :=
      Phrase.indifferent_attributeLines.listed_normalize b rfl
    simp only [Option.map_some, attributes]

/-- A normalized rule has the relationship lines of the rule. -/
theorem relationshipLines_normalize (rule : Production String Target) :
    rule.normalize.relationshipLines = rule.relationshipLines := by
  rw [relationshipLines, relationshipLines, normalize, body?_mapBody, name_mapBody]
  cases rule.body? with
  | none => rfl
  | some b =>
    have lines : ((b.normalize.reached []).flatMap fun met =>
          met.2.drawnLines rule.name (.around met.1)) =
        (b.reached []).flatMap fun met => met.2.drawnLines rule.name (.around met.1) :=
      (Phrase.indifferent_drawnLines rule.name).listed_normalize b rfl
    cases b with
    | ruleCall target mark => rfl
    | _ => exact lines

/-- Normalized rules have the diagram of the rules. -/
theorem diagram_normalize (rules : List (Production String Target)) :
    diagram (rules.map normalize) = diagram rules := by
  have blocks : (rules.map normalize).flatMap classBlock = rules.flatMap classBlock := by
    rw [List.flatMap_map]
    exact List.flatMap_congr fun rule _ => rule.classBlock_normalize
  have lines : (rules.map normalize).flatMap relationshipLines =
      rules.flatMap relationshipLines := by
    rw [List.flatMap_map]
    exact List.flatMap_congr fun rule _ => rule.relationshipLines_normalize
  rw [diagram, diagram, blocks, lines]

end Production

namespace Model

variable {m m' : Model} {rules : List (Production String Target)} {ids ids' : List NodeId}

/-- Rules compile to a text exactly when the normalized rules, wherever these stand, compile to that
text. -/
theorem result_normalized (stand : List.Forall₂ m.Draws rules ids)
    (stand' : List.Forall₂ m'.Draws (rules.map Production.normalize) ids') (verbose : Bool)
    (writer writer' : Writer) :
    (∀ text, (m'.compileRules verbose (ids'.map .node) writer').result = .ok text ↔
      (m.compileRules verbose (ids.map .node) writer).result = .ok text) ∧
    ((∀ rule ∈ rules, rule.isKnown) →
      (m'.compileRules verbose (ids'.map .node) writer').result = .ok (Production.diagram rules) ∧
      (m.compileRules verbose (ids.map .node) writer).result = .ok (Production.diagram rules)) := by
  have known : (∀ rule ∈ rules.map Production.normalize, rule.isKnown) ↔
      ∀ rule ∈ rules, rule.isKnown := by
    simp only [List.forall_mem_map, Production.isKnown_normalize]
  have same : ∀ text, (m'.compileRules verbose (ids'.map .node) writer').result = .ok text ↔
      (m.compileRules verbose (ids.map .node) writer).result = .ok text := by
    intro text
    rw [result_compileRules_eq_ok stand', result_compileRules_eq_ok stand, known,
      Production.diagram_normalize]
  refine ⟨same, fun all => ?_⟩
  have given := (result_compileRules_eq_ok stand verbose writer _).mpr ⟨all, rfl⟩
  exact ⟨(same _).mpr given, given⟩

/-- A model of a rule that assigns another one in alternatives within a repeated group, next to
keywords. -/
def choosing : Model := ⟨[
  .ofShape (.reference ⟨.value (.str "B"), .node ⟨8⟩⟩) .nothing,
  { Node.ofShape (.ruleCall (.node ⟨0⟩)) .nothing with container := some (.node ⟨2⟩) },
  { Node.ofShape (.assignment (.value (.str "b")) (.value (.str "=")) (.node ⟨1⟩)) .nothing with
    container := some (.node ⟨4⟩) },
  { Node.ofShape (.keyword (.value (.str "none"))) .nothing with container := some (.node ⟨4⟩) },
  { Node.ofShape (.alternatives (.ofNodes [⟨2⟩, ⟨3⟩])) .nothing with
    container := some (.node ⟨6⟩) },
  { Node.ofShape (.keyword (.value (.str ";"))) .nothing with container := some (.node ⟨6⟩) },
  { Node.ofShape (.group (.ofNodes [⟨4⟩, ⟨5⟩])) (.value (.str "*")) with
    container := some (.node ⟨7⟩) },
  .ofShape (.parserRule (.value (.str "A")) (.node ⟨6⟩) .nothing .no .no) .nothing,
  .ofShape (.parserRule (.value (.str "B")) .nothing .nothing .no .no) .nothing]⟩

/-- A model of the normalized rules: the assignment is all that is left in the group. -/
def chosen : Model := ⟨[
  .ofShape (.reference ⟨.value (.str "B"), .node ⟨5⟩⟩) .nothing,
  { Node.ofShape (.ruleCall (.node ⟨0⟩)) .nothing with container := some (.node ⟨2⟩) },
  { Node.ofShape (.assignment (.value (.str "b")) (.value (.str "=")) (.node ⟨1⟩)) .nothing with
    container := some (.node ⟨3⟩) },
  { Node.ofShape (.group (.ofNodes [⟨2⟩])) (.value (.str "*")) with container := some (.node ⟨4⟩) },
  .ofShape (.parserRule (.value (.str "A")) (.node ⟨3⟩) .nothing .no .no) .nothing,
  .ofShape (.parserRule (.value (.str "B")) .nothing .nothing .no .no) .nothing]⟩

/-- The rules of the first of these models. -/
def choosingRules : List (Production String Target) := [
  .parser "A" (some (.group [
    .alternatives [.assignment "b" "=" (some (.ruleCall (.parserRule "B") none)) none,
      .keyword "none" none] none,
    .keyword ";" none] (some "*"))) none false false,
  .parser "B" none none false false]

/-- The rules stand in the first model. -/
theorem draws_choosing : List.Forall₂ choosing.Draws choosingRules [⟨7⟩, ⟨8⟩] := by
  have nested : choosing.isNested := rfl
  have leads : Target.LedTo choosing (.node ⟨0⟩) (.parserRule "B") :=
    ⟨⟨0⟩, _, rfl, rfl, .parserRule rfl⟩
  have call : Phrase.StandsAt .texts choosing
      (.ruleCall (.parserRule "B") none : Phrase String Target) ⟨1⟩ := ⟨_, leads, _, rfl, rfl, rfl⟩
  have assignment : Phrase.StandsAt .texts choosing
      (.assignment "b" "=" (some (.ruleCall (.parserRule "B") none)) none) ⟨2⟩ :=
    ⟨_, ⟨_, rfl, call⟩, _, rfl, rfl, rfl⟩
  have alternatives : Phrase.StandsAt .texts choosing
      (.alternatives [.assignment "b" "=" (some (.ruleCall (.parserRule "B") none)) none,
        .keyword "none" none] none) ⟨4⟩ :=
    ⟨[⟨2⟩, ⟨3⟩], ⟨_, _, rfl, assignment, _, _, rfl, ⟨_, rfl, rfl, rfl⟩, rfl⟩, _, rfl, rfl, rfl⟩
  refine .cons ⟨⟨_, ⟨_, rfl, ?_⟩, rfl⟩, nestedBelow_of_isNested nested _⟩
    (.cons ⟨⟨_, rfl, rfl⟩, nestedBelow_of_isNested nested _⟩ .nil)
  exact ⟨[⟨4⟩, ⟨5⟩], ⟨_, _, rfl, alternatives, _, _, rfl, ⟨_, rfl, rfl, rfl⟩, rfl⟩,
    _, rfl, rfl, rfl⟩

/-- The normalized rules stand in the second model. -/
theorem draws_chosen :
    List.Forall₂ chosen.Draws (choosingRules.map Production.normalize) [⟨4⟩, ⟨5⟩] := by
  have nested : chosen.isNested := rfl
  have leads : Target.LedTo chosen (.node ⟨0⟩) (.parserRule "B") :=
    ⟨⟨0⟩, _, rfl, rfl, .parserRule rfl⟩
  have call : Phrase.StandsAt .texts chosen
      (.ruleCall (.parserRule "B") none : Phrase String Target) ⟨1⟩ := ⟨_, leads, _, rfl, rfl, rfl⟩
  have assignment : Phrase.StandsAt .texts chosen
      (.assignment "b" "=" (some (.ruleCall (.parserRule "B") none)) none) ⟨2⟩ :=
    ⟨_, ⟨_, rfl, call⟩, _, rfl, rfl, rfl⟩
  refine .cons ⟨⟨_, ⟨_, rfl, ?_⟩, rfl⟩, nestedBelow_of_isNested nested _⟩
    (.cons ⟨⟨_, rfl, rfl⟩, nestedBelow_of_isNested nested _⟩ .nil)
  exact ⟨[⟨2⟩], ⟨_, _, rfl, assignment, rfl⟩, _, rfl, rfl, rfl⟩

/-- Both models compile to the same text. -/
theorem result_normalized_choosing :
    List.Forall₂ choosing.Draws choosingRules [⟨7⟩, ⟨8⟩] ∧
      List.Forall₂ chosen.Draws (choosingRules.map Production.normalize) [⟨4⟩, ⟨5⟩] ∧
      (∀ rule ∈ choosingRules, rule.isKnown) ∧
      (chosen.compileRules false ([⟨4⟩, ⟨5⟩].map .node) .idle).result =
        .ok "@startuml\nclass A \x7b\n\x7d\nA \"1..*\" o-- \"b\" B\n@enduml\n" ∧
      (choosing.compileRules false ([⟨7⟩, ⟨8⟩].map .node) .idle).result =
        .ok "@startuml\nclass A \x7b\n\x7d\nA \"1..*\" o-- \"b\" B\n@enduml\n" :=
  ⟨draws_choosing, draws_chosen, by decide,
    (result_normalized draws_choosing draws_chosen false .idle .idle).2 (by decide)⟩

end Model
end GrammarChart
