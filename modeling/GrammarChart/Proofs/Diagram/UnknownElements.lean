import GrammarChart.Proofs.Diagram.ImportedRules
import GrammarChart.Proofs.Diagram.Omissions

/-!
# Elements of unknown kind

Rules that are built by hand may have elements of unknown kind anywhere in their bodies. A visit
comes to such an element only through groups and alternatives (`Phrase.Opens`), and the class blocks
are drawn first, so the first one in the order of the visits stops the compilation there. All other
ones are passed over. `Model.unknown_elements_abort` says which rules compile, and what stands in
the writer when they do not.
-/

set_option autoImplicit false

namespace GrammarChart

variable {φ ρ : Type}

namespace Phrase

/-- One element stands at or below another one, through groups and alternatives only. -/
def Opens : Phrase φ ρ → Phrase φ ρ → Prop :=
  Relation.ReflTransGen fun b c => c ∈ b.members

theorem mem_reached_iff (b : Phrase φ ρ) {c : Phrase φ ρ} : ∀ outer : List (Phrase φ ρ),
    c ∈ (b.reached outer).map Prod.snd ↔ b.Opens c := by
  induction b using induct with
  | step b ih =>
    intro outer
    rw [reached_eq, List.map_cons, List.mem_cons, List.map_flatMap, List.mem_flatMap, Opens,
      Relation.ReflTransGen.cases_head_iff]
    constructor
    · rintro (rfl | ⟨d, member, below⟩)
      · exact .inl rfl
      · exact .inr ⟨d, member, (ih d (mem_children_of_mem_members member) _).mp below⟩
    · rintro (rfl | ⟨d, member, below⟩)
      · exact .inl rfl
      · exact .inr ⟨d, member, (ih d (mem_children_of_mem_members member) _).mpr below⟩

/-- Elements without a handler are those of unknown kind. -/
theorem handler?_eq_none {b : Phrase φ ρ} :
    b.handler? = none ↔ ∃ kind mark, b = .unknown kind mark := by
  cases b <;> simp [handler?]

end Phrase

namespace Production

/-- An element of unknown kind stands in the body of the rule, where a visit comes to it. -/
def IsBroken (rule : Production φ ρ) : Prop :=
  ∃ body kind mark, rule.body? = some body ∧ body.Opens (.unknown kind mark)

theorem isKnown_iff {rule : Production φ ρ} : rule.isKnown = true ↔ ¬ rule.IsBroken := by
  rw [isKnown, IsBroken]
  cases rule.body? with
  | none => simp
  | some body =>
    rw [Option.all_some, Phrase.isKnown, List.all_eq_true]
    constructor
    · rintro known ⟨_, kind, mark, ⟨⟩, opens⟩
      obtain ⟨met, mem, isUnknown⟩ := List.mem_map.mp ((Phrase.mem_reached_iff body []).mpr opens)
      have handled := known met mem
      rw [isUnknown] at handled
      cases handled
    · intro sound met mem
      by_contra unhandled
      obtain ⟨kind, mark, isUnknown⟩ :=
        Phrase.handler?_eq_none.mp (Option.not_isSome_iff_eq_none.mp unhandled)
      apply sound
      refine ⟨body, kind, mark, rfl, (Phrase.mem_reached_iff body []).mp ?_⟩
      exact List.mem_map.mpr ⟨met, mem, isUnknown⟩

/-- The first element of unknown kind that visits of the rules come to, in the order of the rules
and of the visits: the rules before its own, what a visit of its own rule meets before it, and its
kind. -/
structure FirstUnknown (rules earlier : List (Production φ ρ)) (rule : Production φ ρ)
    (before : List (Phrase φ ρ)) (kind : String) : Prop where
  rules : ∃ later, rules = earlier ++ rule :: later
  sound : ∀ other ∈ earlier, ¬ other.IsBroken
  body : ∃ body mark after, rule.body? = some body ∧
    (body.reached []).map Prod.snd = before ++ .unknown kind mark :: after
  known : ∀ b ∈ before, b.handler?.isSome

/-- Among rules some of which are broken there is a first element of unknown kind. -/
theorem exists_firstUnknown {rules : List (Production φ ρ)}
    (broken : ∃ rule ∈ rules, rule.IsBroken) :
    ∃ earlier rule before kind, FirstUnknown rules earlier rule before kind := by
  have found : (rules.find? fun rule => !rule.isKnown).isSome := by
    obtain ⟨rule, mem, isBroken⟩ := broken
    refine List.find?_isSome.mpr ⟨rule, mem, ?_⟩
    simpa using fun known => isKnown_iff.mp known isBroken
  obtain ⟨rule, isFirst⟩ := Option.isSome_iff_exists.mp found
  obtain ⟨unknown, earlier, later, split, sound⟩ := List.find?_eq_some_iff_append.mp isFirst
  have isBroken : rule.IsBroken := by
    by_contra whole
    simp [isKnown_iff.mpr whole] at unknown
  obtain ⟨body, kind, mark, hasBody, opens⟩ := isBroken
  have stray : ((body.reached []).map Prod.snd).find? (fun b => !b.handler?.isSome) |>.isSome :=
    List.find?_isSome.mpr ⟨_, (Phrase.mem_reached_iff body []).mpr opens, rfl⟩
  obtain ⟨b, isStray⟩ := Option.isSome_iff_exists.mp stray
  obtain ⟨unhandled, before, after, visits, known⟩ := List.find?_eq_some_iff_append.mp isStray
  obtain ⟨kind, mark, rfl⟩ := Phrase.handler?_eq_none.mp (by simpa using unhandled)
  refine ⟨earlier, rule, before, kind, ⟨later, split⟩, ?_, ⟨body, mark, after, hasBody, visits⟩, ?_⟩
  · intro other mem
    exact isKnown_iff.mp (by simpa using sound other mem)
  · intro b mem
    simpa using known b mem

end Production

theorem Target.names_face (target : Target) : target.face.Names Json.IsText := by
  cases target <;> first | exact trivial | exact ⟨_, rfl⟩

namespace Phrase

/-- The name of the type that an action infers is a text. -/
def InfersText : Phrase Json ρ → Prop
  | .action _ inferredType _ _ _ => ∀ name ∈ inferredType, name.IsText
  | _ => True

/-- Lines that an element draws join names that are texts. -/
theorem InfersText.joins {b : Phrase Json Target} (h : b.InfersText) :
    b.Joins Target.face Json.IsText fun _ => True := by
  cases b with
  | ruleCall target mark => exact target.names_face
  | crossReference type terminal mark => exact type.names_face
  | assignment feature operator terminal mark => exact fun _ _ => trivial
  | action type inferredType feature operator mark =>
    refine ⟨fun target _ => target.names_face, fun name present => ?_, fun _ _ => trivial⟩
    exact h name (Option.filter_eq_some_iff.mp present).1
  | _ => exact trivial

end Phrase

namespace Drawing

variable {face : ρ → Face}

/-- Drawing asks no element for its name when no reference leads to one. -/
theorem asks_eq_false_of_face (noElement : ∀ reference, face reference ≠ .element)
    (b : Phrase Json ρ) : asks face b = false := by
  have named : ∀ reference, (face reference).isElement = false := by
    intro reference
    cases leads : face reference with
    | element => exact absurd leads (noElement reference)
    | _ => rfl
  have assigned : ∀ c : Phrase Json ρ, asksAssigned face c = false := by
    intro c
    cases c <;> simp [asksAssigned, asksType, named]
  cases b <;> simp [asks, asksType, named, assigned]

end Drawing

namespace Production

variable {rules earlier : List (Production Json ρ)} {rule : Production Json ρ}
  {before : List (Phrase Json ρ)} {kind : String} {face : ρ → Face}

/-- The class blocks of rules stop at the first element of unknown kind, after the lines of what is
met before it. -/
theorem FirstUnknown.openBlocks (h : FirstUnknown rules earlier rule before kind) :
    Emission.ofEach (Drawing.openBlock face) rules =
      ⟨earlier.flatMap (Drawing.block face) ++ ("class " ++ rule.name.display ++ " \x7b\n") ::
        before.flatMap (Drawing.attributes face),
        some (.violation (.unsupportedElement kind))⟩ := by
  obtain ⟨⟨later, rfl⟩, sound, ⟨body, mark, after, hasBody, visits⟩, known⟩ := h
  have blocks : Emission.ofEach (Drawing.openBlock face) earlier =
      .ofList (earlier.flatMap (Drawing.block face)) :=
    Emission.ofEach_eq_ofList fun other mem =>
      Drawing.openBlock_of_isKnown (isKnown_iff.mpr (sound other mem))
  -- what the visit passes is what it meets before the element
  obtain ⟨first, stray, others, split⟩ : ∃ first stray others,
      body.reached [] = first ++ stray :: others ∧ first.map Prod.snd = before ∧
        stray.2 = .unknown kind mark := by
    obtain ⟨first, rest, split, isBefore, isRest⟩ := List.map_eq_append_iff.mp visits
    obtain ⟨stray, others, rfl, isStray, -⟩ := List.map_eq_cons_iff.mp isRest
    exact ⟨first, stray, others, split, isBefore, isStray⟩
  obtain ⟨split, rfl, isStray⟩ := split
  have passed : body.passed [] = ⟨first, some (.violation (.unsupportedElement kind))⟩ := by
    have admitted : Emission.ofEach Phrase.admitted first = .ofList first :=
      Phrase.ofEach_admitted fun met mem => known met.2 (List.mem_map_of_mem mem)
    rw [Phrase.passed, split, Emission.ofEach_append, admitted, Emission.ofEach, Phrase.admitted,
      isStray]
    simp [Emission.append, Emission.ofList, Emission.fail]
  have opened : Drawing.openBlock face rule =
      ⟨("class " ++ rule.name.display ++ " \x7b\n") ::
        (first.map Prod.snd).flatMap (Drawing.attributes face),
        some (.violation (.unsupportedElement kind))⟩ := by
    rw [Drawing.openBlock, hasBody]
    dsimp only
    rw [passed, Emission.flatMap, Emission.ofEach_eq_ofList fun _ _ => rfl, List.flatMap_map]
    simp [Emission.append, Emission.ofList]
  rw [Emission.ofEach_append, blocks, Emission.ofEach, opened]
  simp [Emission.append, Emission.ofList]

end Production

namespace Model

variable {m : Model}

/-- A rule that is built by hand stands at the node: all below it is contained in what it stands in,
its references lead to rules or declared types or nowhere, and names are texts. -/
structure Builds (m : Model) (rule : Production Json Target) (id : NodeId) : Prop where
  stands : rule.StandsAt (.seen Target.face) m id
  nested : m.NestedBelow id
  name : rule.name.IsText
  inferred : ∀ body ∈ rule.body?, ∀ b ∈ body.elements, b.InfersText

namespace Builds

variable {rule : Production Json Target} {id : NodeId}

theorem classBlock (h : m.Builds rule id) :
    m.classBlock (.node id) = Drawing.openBlock Target.face rule :=
  classBlock_eq_openBlock h.stands h.nested

/-- The lines of a rule that is not broken are written as the tree draws them. -/
theorem exists_lines (h : m.Builds rule id) (known : rule.isKnown) : ∃ written,
    m.relationshipLines (.node id) = .ofList written ∧
      List.Forall₂ (fun line text => Line.text line = .ok text)
        (Drawing.lines Target.face rule).items written := by
  have unasked : (Drawing.lines Target.face rule).fault = none := by
    rw [Drawing.fault_lines, if_neg]
    cases rule.body? <;> simp [Drawing.asks_eq_false_of_face Target.face_ne_element]
  have drawn : (Drawing.lines Target.face rule) = .ofList (Drawing.lines Target.face rule).items :=
    Emission.eq_ofList unasked
  have texts : ∀ line ∈ (Drawing.lines Target.face rule).items,
      (Emission.ofExcept (Line.text line)).fault = none := by
    intro line mem
    have joins := Drawing.joins_of_lines h.name
      (fun body isBody b inside => (h.inferred body isBody b inside).joins) mem
    obtain ⟨text, written⟩ := joins.exists_text
    rw [written]
    rfl
  obtain ⟨written, produced, together⟩ := Emission.ofEach_ofExcept texts
  refine ⟨written, ?_, together⟩
  rw [relationshipLines_of_seen (fun _ leads => absurd leads (Target.face_ne_element _)) h.stands
    h.nested known, drawn, Emission.ofList_flatMap]
  exact produced

end Builds

section Compilation

variable {rules : List (Production Json Target)} {ids : List NodeId}

theorem hasName_of_built (built : List.Forall₂ m.Builds rules ids) :
    ∀ item ∈ ids.map Item.node, m.HasName item := by
  refine hasName_of_forall₂ (fun rule _ id builds => ?_) built
  obtain ⟨name, isText⟩ := builds.name
  exact ⟨name, isText ▸ nameOf_of_seen builds.stands⟩

/-- Of rules that are built by hand the class blocks are written up to the first element of unknown
kind, and the relationship lines if there is none. -/
theorem fragments_of_built (built : List.Forall₂ m.Builds rules ids) (verbose : Bool) :
    (m.compilationOutputs verbose (ids.map .node)).fragments =
      (Emission.ofEach (Drawing.openBlock Target.face) rules).append
        (Emission.ofEach (fun id => m.relationshipLines (.node id)) ids) := by
  have blocks : Emission.ofEach (fun id => m.classBlock (.node id)) ids =
      Emission.ofEach (Drawing.openBlock Target.face) rules :=
    Emission.ofEach_congr (fun _ _ _ _ builds => builds.classBlock) built
  rw [fragments_compilationOutputs (hasName_of_built built), Emission.ofEach_map,
    Emission.ofEach_map, blocks]

/-- The lines of rules of which none is broken are all written. -/
theorem exists_lines_of_built (built : List.Forall₂ m.Builds rules ids)
    (sound : ∀ rule ∈ rules, ¬ rule.IsBroken) : ∃ written,
      Emission.ofEach (fun id => m.relationshipLines (.node id)) ids = .ofList written ∧
      List.Forall₂ (fun line text => Line.text line = .ok text)
        (rules.flatMap fun rule => (Drawing.lines Target.face rule).items) written := by
  induction built with
  | nil => exact ⟨[], rfl, .nil⟩
  | cons head _ ih =>
    rw [List.forall_mem_cons] at sound
    obtain ⟨first, drawn, together⟩ := head.exists_lines (Production.isKnown_iff.mpr sound.1)
    obtain ⟨rest, drawn', together'⟩ := ih sound.2
    refine ⟨first ++ rest, ?_, List.rel_append together together'⟩
    rw [Emission.ofEach, drawn, drawn', Emission.ofList_append_ofList]

/-- Of rules that are built by hand nothing is written behind the first element of unknown kind. -/
theorem fragments_of_firstUnknown (built : List.Forall₂ m.Builds rules ids) (verbose : Bool)
    {earlier : List (Production Json Target)} {rule : Production Json Target}
    {before : List (Phrase Json Target)} {kind : String}
    (first : Production.FirstUnknown rules earlier rule before kind) :
    (m.compilationOutputs verbose (ids.map .node)).fragments =
      ⟨earlier.flatMap (Drawing.block Target.face) ++
        ("class " ++ rule.name.display ++ " \x7b\n") ::
          before.flatMap (Drawing.attributes Target.face),
        some (.violation (.unsupportedElement kind))⟩ := by
  have stopped : Emission.ofEach (Drawing.openBlock Target.face) rules = _ := first.openBlocks
  rw [fragments_of_built built, Emission.append_of_fault (congrArg Emission.fault stopped), stopped]

/-- Of rules that are built by hand all is written when none is broken. -/
theorem exists_fragments_of_built (built : List.Forall₂ m.Builds rules ids) (verbose : Bool)
    (sound : ∀ rule ∈ rules, ¬ rule.IsBroken) : ∃ written,
      (m.compilationOutputs verbose (ids.map .node)).fragments =
        .ofList (rules.flatMap (Drawing.block Target.face) ++ written) ∧
      List.Forall₂ (fun line text => Line.text line = .ok text)
        (rules.flatMap fun rule => (Drawing.lines Target.face rule).items) written := by
  obtain ⟨written, drawn, together⟩ := exists_lines_of_built built sound
  have blocks : Emission.ofEach (Drawing.openBlock Target.face) rules =
      .ofList (rules.flatMap (Drawing.block Target.face)) :=
    Emission.ofEach_eq_ofList fun rule mem =>
      Drawing.openBlock_of_isKnown (Production.isKnown_iff.mpr (sound rule mem))
  refine ⟨written, ?_, together⟩
  rw [fragments_of_built built, blocks, drawn, Emission.ofList_append_ofList]

/-- Rules that are built by hand are compiled unless a visit comes to an element of unknown kind in
the body of one of them; elsewhere in the bodies such elements do not matter. The first one, in the
order of the rules and of the visits, gives the violation its kind. Before it, the class blocks of
the rules before its own were written, and the beginning of the class block of its own rule, with
the attribute lines of what a visit meets before it. -/
theorem unknown_elements_abort (built : List.Forall₂ m.Builds rules ids) (verbose : Bool)
    (writer : Writer) :
    let compiled := m.compileRules verbose (ids.map .node) writer
    ((∃ violation, compiled.result = .error (.violation violation)) ↔
      ∃ rule ∈ rules, rule.IsBroken) ∧
    ((∃ rule ∈ rules, rule.IsBroken) → ∃ earlier rule before kind,
      Production.FirstUnknown rules earlier rule before kind ∧
      compiled.result = .error (.violation (.unsupportedElement kind)) ∧
      Violation.message (.unsupportedElement kind) = "Unsupported grammar element: " ++ kind ∧
      compiled.writer.text = .ok ("@startuml\n" ++
        String.join (earlier.flatMap (Drawing.block Target.face)) ++
        ("class " ++ rule.name.display ++ " \x7b\n") ++
        String.join (before.flatMap (Drawing.attributes Target.face)))) ∧
    ((¬ ∃ rule ∈ rules, rule.IsBroken) → ∃ written,
      List.Forall₂ (fun line text => Line.text line = .ok text)
        (rules.flatMap fun rule => (Drawing.lines Target.face rule).items) written ∧
      compiled.result = .ok ("@startuml\n" ++
        String.join (rules.flatMap (Drawing.block Target.face)) ++ String.join written ++
        "@enduml\n")) := by
  intro compiled
  have aborts : (∃ rule ∈ rules, rule.IsBroken) → ∃ earlier rule before kind,
      Production.FirstUnknown rules earlier rule before kind ∧
      compiled.result = .error (.violation (.unsupportedElement kind)) ∧
      Violation.message (.unsupportedElement kind) = "Unsupported grammar element: " ++ kind ∧
      compiled.writer.text = .ok ("@startuml\n" ++
        String.join (earlier.flatMap (Drawing.block Target.face)) ++
        ("class " ++ rule.name.display ++ " \x7b\n") ++
        String.join (before.flatMap (Drawing.attributes Target.face))) := by
    intro broken
    obtain ⟨earlier, rule, before, kind, first⟩ := Production.exists_firstUnknown broken
    have fragments := fragments_of_firstUnknown built verbose first
    refine ⟨earlier, rule, before, kind, first, ?_, rfl, ?_⟩
    · rw [result_compileRules_eq_joined, fragments]
      rfl
    · rw [text_compileRules_eq_fragments, fragments]
      simp [String.join_append, String.join_cons, String.append_assoc, Writer.opening]
  have compiles : (¬ ∃ rule ∈ rules, rule.IsBroken) → ∃ written,
      List.Forall₂ (fun line text => Line.text line = .ok text)
        (rules.flatMap fun rule => (Drawing.lines Target.face rule).items) written ∧
      compiled.result = .ok ("@startuml\n" ++
        String.join (rules.flatMap (Drawing.block Target.face)) ++ String.join written ++
        "@enduml\n") := by
    intro whole
    obtain ⟨written, fragments, together⟩ := exists_fragments_of_built built verbose
      fun rule mem broken => whole ⟨rule, mem, broken⟩
    refine ⟨written, together, ?_⟩
    rw [result_compileRules_eq_joined, fragments, Emission.joined]
    simp [Emission.ofList, String.join_append, String.append_assoc, Writer.opening, Writer.closing]
  refine ⟨⟨?_, ?_⟩, aborts, compiles⟩
  · rintro ⟨violation, stopped⟩
    by_contra whole
    obtain ⟨written, -, result⟩ := compiles whole
    rw [result] at stopped
    cases stopped
  · intro broken
    obtain ⟨-, -, -, kind, -, result, -⟩ := aborts broken
    exact ⟨_, result⟩

/-- A model of two rules. Of the two elements of unknown kind one is assigned to a feature, and the
other one stands in a group. -/
def straying : Model := ⟨[
  { Node.ofShape (.unknown "Wildcard") .nothing with container := some (.node ⟨1⟩) },
  { Node.ofShape (.assignment (.value (.str "a")) (.value (.str "=")) (.node ⟨0⟩)) .nothing with
    container := some (.node ⟨2⟩) },
  .ofShape (.parserRule (.value (.str "A")) (.node ⟨1⟩) .nothing .no .no) .nothing,
  .ofShape (.terminalRule (.value (.str "ID")) .nothing .no .no) .nothing,
  .ofShape (.reference ⟨.value (.str "ID"), .node ⟨3⟩⟩) .nothing,
  { Node.ofShape (.ruleCall (.node ⟨4⟩)) .nothing with container := some (.node ⟨6⟩) },
  { Node.ofShape (.assignment (.value (.str "x")) (.value (.str "=")) (.node ⟨5⟩)) .nothing with
    container := some (.node ⟨8⟩) },
  { Node.ofShape (.unknown "Wildcard") .nothing with container := some (.node ⟨8⟩) },
  { Node.ofShape (.group (.ofNodes [⟨6⟩, ⟨7⟩])) .nothing with container := some (.node ⟨9⟩) },
  .ofShape (.parserRule (.value (.str "B")) (.node ⟨8⟩) .nothing .no .no) .nothing]⟩

/-- The rules of that model. -/
def strayingRules : List (Production Json Target) := [
  .parser (.str "A")
    (some (.assignment (.str "a") (.str "=") (some (.unknown "Wildcard" none)) none))
    none false false,
  .terminal (.str "ID") none false false,
  .parser (.str "B")
    (some (.group [
      .assignment (.str "x") (.str "=") (some (.ruleCall (.terminalRule "ID") none)) none,
      .unknown "Wildcard" none] none)) none false false]

/-- The rules are built by hand. -/
theorem builds_straying : List.Forall₂ straying.Builds strayingRules [⟨2⟩, ⟨3⟩, ⟨9⟩] := by
  have nested : straying.isNested := rfl
  have stray (id : NodeId) (here : straying.Has id (.unknown "Wildcard") .nothing)
      (named : straying.kindName (.node id) = "Wildcard") : Phrase.StandsAt (.seen Target.face)
        straying (.unknown "Wildcard" none) id := ⟨named, _, here⟩
  have assigned : Phrase.StandsAt (.seen Target.face) straying
      (.assignment (.str "a") (.str "=") (some (.unknown "Wildcard" none)) none) ⟨1⟩ :=
    ⟨_, ⟨_, rfl, stray ⟨0⟩ ⟨_, rfl, rfl, rfl⟩ rfl⟩, _, rfl, rfl, rfl⟩
  have leads : (Target.face (.terminalRule "ID")).LedTo straying (.node ⟨4⟩) :=
    ⟨⟨4⟩, _, rfl, rfl, .terminalRule rfl⟩
  have call : Phrase.StandsAt (.seen Target.face) straying
      (.ruleCall (.terminalRule "ID") none) ⟨5⟩ :=
    ⟨_, leads, _, rfl, rfl, rfl⟩
  have assignment : Phrase.StandsAt (.seen Target.face) straying
      (.assignment (.str "x") (.str "=") (some (.ruleCall (.terminalRule "ID") none)) none) ⟨6⟩ :=
    ⟨_, ⟨_, rfl, call⟩, _, rfl, rfl, rfl⟩
  have group : Phrase.StandsAt (.seen Target.face) straying
      (.group [.assignment (.str "x") (.str "=") (some (.ruleCall (.terminalRule "ID") none)) none,
        .unknown "Wildcard" none] none) ⟨8⟩ :=
    ⟨_, ⟨_, _, rfl, assignment, _, _, rfl, stray ⟨7⟩ ⟨_, rfl, rfl, rfl⟩ rfl, rfl⟩, _, rfl, rfl, rfl⟩
  refine .cons ⟨⟨_, ⟨_, rfl, assigned⟩, rfl⟩, nestedBelow_of_isNested nested _, ⟨_, rfl⟩, ?_⟩
    (.cons ⟨rfl, nestedBelow_of_isNested nested _, ⟨_, rfl⟩, ?_⟩
      (.cons ⟨⟨_, ⟨_, rfl, group⟩, rfl⟩, nestedBelow_of_isNested nested _, ⟨_, rfl⟩, ?_⟩ .nil))
  all_goals simp [Production.body?, Phrase.elements, Phrase.descend, Phrase.descendIn,
    Phrase.descendAll, Phrase.InfersText]

/-- The element in the group stops the compilation and the assigned one does not. -/
theorem unknown_elements_abort_straying :
    List.Forall₂ straying.Builds strayingRules [⟨2⟩, ⟨3⟩, ⟨9⟩] ∧
      (∃ rule ∈ strayingRules, rule.IsBroken) ∧
      (∃ violation, (straying.compileRules false ([⟨2⟩, ⟨3⟩, ⟨9⟩].map .node) .idle).result =
        .error (.violation violation)) ∧
      (straying.compileRules false ([⟨2⟩, ⟨3⟩, ⟨9⟩].map .node) .idle).result =
        .error (.violation (.unsupportedElement "Wildcard")) ∧
      (straying.compileRules false ([⟨2⟩, ⟨3⟩, ⟨9⟩].map .node) .idle).writer.text =
        .ok "@startuml\nclass A \x7b\n\x7d\nclass B \x7b\nx=ID\n" := by
  have broken : ∃ rule ∈ strayingRules, rule.IsBroken := by
    have mem := List.mem_of_getElem? (show strayingRules[2]? = _ from rfl)
    refine ⟨_, mem, _, "Wildcard", none, rfl, ?_⟩
    apply Relation.ReflTransGen.single
    exact List.mem_cons_of_mem _ (List.mem_singleton.mpr rfl)
  refine ⟨builds_straying, broken, ?_, rfl, rfl⟩
  exact (unknown_elements_abort builds_straying false .idle).1.mpr broken

end Compilation

end Model
end GrammarChart
