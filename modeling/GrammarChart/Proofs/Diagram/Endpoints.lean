import GrammarChart.Proofs.Diagram.Collected
import GrammarChart.Proofs.Document.Loading

/-!
# Endpoints of lines

A relationship line that is drawn for the call of a rule starts at the rule that it is drawn in and
ends at a rule that is called. A called rule belongs to the calling grammar or to one that it
imports, so it is among the rules that are collected, if need be as another rule of its name that
came first: no such line dangles (`Loader.callLines_of_load`).
-/

set_option autoImplicit false

namespace GrammarChart

/-- Parts that are all texts are texts one by one. -/
theorem exists_text_of_mapM {parts : List Item} {texts : List String}
    (h : parts.mapM Item.text? = some texts) {part : Item} (mem : part ∈ parts) :
    ∃ text, part.text? = some text := by
  induction parts generalizing texts with
  | nil => exact absurd mem List.not_mem_nil
  | cons first rest ih =>
    rw [List.mapM_cons] at h
    obtain ⟨text, isText, h⟩ := Option.bind_eq_some_iff.mp h
    obtain ⟨others, areTexts, -⟩ := Option.bind_eq_some_iff.mp h
    rcases List.mem_cons.mp mem with rfl | later
    · exact ⟨text, isText⟩
    · exact ih areTexts later

/-- Parts that can be joined are texts. -/
theorem exists_text_of_joinParts {parts : List Item} {joined : String}
    (h : joinParts parts = .ok joined) {value : Json} (mem : .value value ∈ parts) :
    ∃ text, value = .str text := by
  unfold joinParts at h
  split at h
  · next texts all =>
    obtain ⟨text, isText⟩ := exists_text_of_mapM all mem
    cases value <;> first | exact ⟨_, rfl⟩ | cases isText
  · cases h

/-- The ends of a line that can be written are texts. -/
theorem Line.exists_texts {line : Line} {shown : String} (h : line.text = .ok shown) :
    ∃ source target, line.source = .str source ∧ line.target = .str target := by
  obtain ⟨joined, parts, -⟩ := map_eq_ok.mp h
  obtain ⟨source, isSource⟩ :=
    @exists_text_of_joinParts _ _ parts line.source List.mem_cons_self
  obtain ⟨target, isTarget⟩ := @exists_text_of_joinParts _ _ parts line.target (by simp)
  exact ⟨source, target, isSource, isTarget⟩

namespace Drawing

variable {ρ : Type} {face : ρ → Face}

/-- The line is drawn from the owner for the call of a parser rule. -/
def IsCallFrom (face : ρ → Face) (owner : Json) (line : Line) : Prop :=
  line.source = owner ∧ ∃ reference, face reference = .parserRule line.target

/-- The lines of calls in the place of a reference are drawn for them. -/
theorem isCallFrom_of_call {owner : Json} {make : Json → Line} {call : ρ} {line : Line}
    (drawn : ∀ name, (make name).source = owner ∧ (make name).target = name)
    (mem : line ∈ (face call).parserRule?.toList.map make) : IsCallFrom face owner line := by
  obtain ⟨name, called, rfl⟩ := List.mem_map.mp mem
  refine ⟨(drawn name).1, call, ?_⟩
  rw [(drawn name).2]
  cases hf : face call <;> simp_all [Face.parserRule?]

/-- A line for a call that is assigned is drawn for it. -/
theorem isCallFrom_of_assigned {owner : Json} {bounds : Multiplicity} {arrow : Arrow}
    {feature : Json} {b : Phrase Json ρ} {line : Line}
    (mem : line ∈ (assigned face owner bounds arrow feature b).items) (isCall : line.isCall) :
    IsCallFrom face owner line := by
  cases b with
  | ruleCall call mark => exact isCallFrom_of_call (fun name => ⟨rfl, rfl⟩) mem
  | crossReference type terminal mark =>
    obtain ⟨name, -, here⟩ := Emission.mem_flatMap_items mem
    obtain ⟨name', -, rfl⟩ := List.mem_map.mp here
    cases isCall
  | _ => exact absurd mem List.not_mem_nil

/-- A line for a call within a body is drawn for it. -/
theorem isCallFrom_of_drawn {owner : Json} {met : List (Phrase Json ρ) × Phrase Json ρ}
    {line : Line} (mem : line ∈ (drawn face owner met).items) (isCall : line.isCall) :
    IsCallFrom face owner line := by
  obtain ⟨outer, b⟩ := met
  cases b with
  | assignment feature operator terminal mark =>
    obtain ⟨below, -, here⟩ := Emission.mem_ofEach_items mem
    exact isCallFrom_of_assigned here isCall
  | ruleCall call mark => exact isCallFrom_of_call (fun name => ⟨rfl, rfl⟩) mem
  | crossReference type terminal mark =>
    obtain ⟨name, -, here⟩ := Emission.mem_flatMap_items mem
    obtain ⟨name', -, rfl⟩ := List.mem_map.mp here
    cases isCall
  | action type inferredType feature operator mark =>
    obtain ⟨name, -, here⟩ := Emission.mem_flatMap_items mem
    obtain ⟨name', -, rfl⟩ := List.mem_map.mp here
    cases isCall
  | _ => exact absurd mem List.not_mem_nil

/-- A line for a call in a rule is drawn from the rule, which has a body. -/
theorem isCallFrom_of_lines {rule : Production Json ρ} {line : Line}
    (mem : line ∈ (lines face rule).items) (isCall : line.isCall) :
    rule.body?.isSome ∧ IsCallFrom face rule.name line := by
  unfold lines at mem
  split at mem
  · exact absurd mem List.not_mem_nil
  · next call mark body =>
    exact ⟨by rw [body]; rfl, isCallFrom_of_call (fun name => ⟨rfl, rfl⟩) mem⟩
  · next body _ isBody =>
    obtain ⟨met, -, here⟩ := Emission.mem_ofEach_items mem
    exact ⟨by rw [isBody]; rfl, isCallFrom_of_drawn here isCall⟩

end Drawing

/-- The sketch has a class block, and in it the name of its rule. -/
def Sketch.HasBlock (sketch : Sketch) : Prop :=
  ∃ members, sketch.block =
    ["class " ++ sketch.rule.name.display ++ " \x7b\n"] ++ members ++ ["\x7d\n"]

/-- A rule with a body has a class block. -/
theorem Sketch.hasBlock_of_body {sketch : Sketch} (h : sketch.rule.body?.isSome) :
    sketch.HasBlock := by
  obtain ⟨body, isBody⟩ := Option.isSome_iff_exists.mp h
  refine ⟨(body.reached []).flatMap fun met => Drawing.attributes sketch.face met.2, ?_⟩
  rw [block, Drawing.block, isBody]

/-- The line starts at a rule with a class block and ends at a rule, both among the sketches. -/
def Line.IsAnchored (line : Line) (sketches : List Sketch) : Prop :=
  (∃ sketch ∈ sketches, sketch.rule.name = line.source ∧ sketch.HasBlock) ∧
    ∃ sketch ∈ sketches, sketch.rule.name = line.target

namespace Model.Displays

variable {m : Model} {grammars : List NodeId} {views : NodeId → View}

/-- A line for a call that is drawn and written for the rules that are kept of all that a grammar
reaches is anchored in them. -/
theorem isAnchored (h : m.Displays grammars views) {id : NodeId} {reached : List NodeId}
    (found : m.reachable id = .ok reached) (inside : ∀ g ∈ id :: reached, g ∈ grammars)
    {kept : List Sketch} (isKept : Sketch.firstOfEachName []
      ((id :: reached).flatMap fun g => (views g).sketches) = .ok kept) {line : Line}
    (drawn : line ∈ (Emission.ofEach Sketch.lines kept).items) {shown : String}
    (written : line.text = .ok shown) (isCall : line.isCall) : line.IsAnchored kept := by
  obtain ⟨sketch, mem, here⟩ := Emission.mem_ofEach_items drawn
  obtain ⟨body, source, reference, called⟩ := Drawing.isCallFrom_of_lines here isCall
  refine ⟨⟨sketch, mem, source.symm, Sketch.hasBlock_of_body body⟩, ?_⟩
  obtain ⟨g, isReached, listed⟩ :=
    List.mem_flatMap.mp ((Sketch.sublist_of_firstOfEachName isKept).subset mem)
  obtain ⟨rule, -, rfl⟩ := List.mem_map.mp listed
  -- The called rule belongs to the grammar or to one of its imports, which is reached as well.
  obtain ⟨i, near, named⟩ := h.calls g (inside g isReached) reference _ called
  have imports := (h.shown g (inside g isReached)).importsOf
  have near : i ∈ id :: reached := by
    rcases near with rfl | direct
    · exact isReached
    · exact reachable_closed found isReached imports i direct
  obtain ⟨target, isRule, isName⟩ := List.mem_map.mp named
  obtain ⟨-, text, -, isText⟩ := line.exists_texts written
  have known : (⟨(views i).face, target.production⟩ : Sketch) ∈
      (id :: reached).flatMap fun g => (views g).sketches :=
    List.mem_flatMap.mpr ⟨i, near, List.mem_map.mpr ⟨target, isRule, rfl⟩⟩
  rcases Sketch.exists_kept isKept known (isName.trans isText) with before | ⟨first, isFirst, same⟩
  · exact absurd before List.not_mem_nil
  · exact ⟨first, isFirst, same.trans isText.symm⟩

end Model.Displays

namespace Loader

variable {resolve : Resolver} {value : Json} {s s' : Loaded} {id : NodeId}

/-- The document that is written for a loaded grammar with all that it imports is put together from
the class blocks and the relationship lines of the collected rules. Each line for the call of a rule
starts at a collected rule that has a class block and ends at a collected rule. -/
theorem callLines_of_load (honest : IsHonest resolve) {grammars : List NodeId}
    (holds : s.Holds grammars) (loaded : load resolve value s = .ok (id, s')) {verbose : Bool}
    {writer : Writer} {text : String}
    (compiled : (s'.model.compileGrammar verbose true id writer).result = .ok (some text)) :
    ∃ (rules : List NodeId) (sketches : List Sketch) (drawn : List Line) (written : List String),
      s'.model.collectRules id true = .ok (rules.map .node) ∧
      List.Forall₂ (fun sketch rule => sketch.StandsAt s'.model rule) sketches rules ∧
      Emission.ofEach Sketch.lines sketches = .ofList drawn ∧
      List.Forall₂ (fun line shown => Line.text line = .ok shown) drawn written ∧
      text = Writer.opening ++ String.join (sketches.flatMap Sketch.block) ++
        String.join written ++ Writer.closing ∧
      ∀ line ∈ drawn, line.isCall → line.IsAnchored sketches := by
  obtain ⟨grammars', -, held, own⟩ := loads_load honest value grammars s id s' holds loaded
  obtain ⟨views, displays⟩ := Model.exists_displays held.model
  obtain ⟨reached, found, inside⟩ := displays.exists_reachable own
  have search : (if true = true then s'.model.reachable id else .ok []) = .ok reached := found
  have quiet := Model.result_compileGrammar_quiet compiled
  rw [displays.result_compileGrammar search inside] at quiet
  split at quiet
  · cases quiet
  · obtain ⟨diagram, drawing, ⟨⟩⟩ := map_eq_ok.mp quiet
    obtain ⟨kept, isKept, isDiagram⟩ := GrammarChart.bind_eq_ok.mp drawing
    obtain ⟨drawn, written, lines, texts, isText⟩ := Sketch.exists_of_diagram isDiagram
    have collected := displays.agree_collectRules search inside
    rw [isKept] at collected
    generalize asked : s'.model.collectRules id true = items at collected
    cases collected with
    | ok related =>
      obtain ⟨rules, rfl, stand⟩ := related
      refine ⟨rules, kept, drawn, written, rfl, stand, lines, texts, isText, ?_⟩
      intro line mem isCall
      obtain ⟨i, bound, rfl⟩ := List.mem_iff_getElem.mp mem
      have shown := texts.get bound (texts.length_eq ▸ bound)
      exact displays.isAnchored found inside isKept (by rw [lines]; exact mem) shown isCall

/-- A document with a rule that calls the rule of an imported document, and with a rule of its own
that has the name of that rule. -/
def shadowing : Json :=
  .obj [("imports", .arr [.str "lib"]), ("rules", .arr [
    .obj [("$type", .str "ParserRule"), ("name", .str "Item"), ("definition", .obj [
      ("$type", .str "Keyword"), ("value", .str "own")])],
    .obj [("$type", .str "ParserRule"), ("name", .str "List"), ("definition", .obj [
      ("$type", .str "Assignment"), ("feature", .str "items"), ("operator", .str "+="),
      ("terminal", .obj [("$type", .str "RuleCall"),
        ("rule", .obj [("$ref", .str "lib#/rules@0")])])])]])]

/-- The document that it imports. -/
def shadowed : Fields :=
  [("lib", .obj [("rules", .arr [.obj [("$type", .str "ParserRule"), ("name", .str "Item"),
    ("definition", .obj [("$type", .str "Keyword"), ("value", .str "other")])]])])]

/-- The document of a grammar that reaches the given grammars. -/
def documentWith (m : Model) (id : NodeId) (reached : List NodeId) :
    Except Fault (Option String) := do
  if ← m.hasErrors (.node id) then return none
  let all := Emission.ofEach m.rulesOf (id :: reached)
  let kept ← m.firstOfEachName [] all.items
  match all.fault with
  | some fault => throw fault
  | none => (m.compileRules false kept .idle).result.map some

/-- A grammar compiles to its document with the grammars that it reaches. -/
theorem result_eq_documentWith {m : Model} {id : NodeId} {reached : List NodeId}
    (found : m.reachable id = .ok reached) :
    (m.compileGrammar false true id .idle).result = documentWith m id reached := by
  rw [Model.compileGrammar, documentWith]
  cases m.hasErrors (.node id) with
  | error fault => rfl
  | ok broken =>
    cases broken with
    | true => rfl
    | false =>
      simp only [Model.collectRules_eq, if_true, found, ok_bind]
      cases m.firstOfEachName [] (Emission.ofEach m.rulesOf (id :: reached)).items with
      | error fault => rfl
      | ok kept =>
        cases (Emission.ofEach m.rulesOf (id :: reached)).fault <;> rfl

/-- The line of the call ends at the rule that came first, although the call leads to the other. -/
theorem callLines_of_load_shadowing : ∃ s' text,
    loadAttached shadowed shadowing ⟨.empty, []⟩ = .ok (⟨9⟩, s') ∧
    (s'.model.compileGrammar false true ⟨9⟩ .idle).result = .ok (some text) ∧
    ∃ (rules : List NodeId) (sketches : List Sketch) (drawn : List Line) (written : List String),
      s'.model.collectRules ⟨9⟩ true = .ok (rules.map .node) ∧
      List.Forall₂ (fun sketch rule => sketch.StandsAt s'.model rule) sketches rules ∧
      Emission.ofEach Sketch.lines sketches = .ofList drawn ∧
      List.Forall₂ (fun line shown => Line.text line = .ok shown) drawn written ∧
      text = Writer.opening ++ String.join (sketches.flatMap Sketch.block) ++
        String.join written ++ Writer.closing ∧
      ∀ line ∈ drawn, line.isCall → line.IsAnchored sketches := by
  have given : ((loadAttached shadowed shadowing ⟨.empty, []⟩).toOption.map fun made =>
      (made.1, made.2.model.importedNodes? made.1, made.2.model.importedNodes? ⟨2⟩,
        (documentWith made.2.model made.1 [⟨2⟩]).toOption)) =
      some (⟨9⟩, some [⟨2⟩], some [], some (some ("@startuml\nclass Item \x7b\n\x7d\n" ++
        "class List \x7b\n\x7d\nList \"1..*\" *-- \"items\" Item\n@enduml\n"))) := by
    decide +kernel
  cases run : loadAttached shadowed shadowing ⟨.empty, []⟩ with
  | error fault =>
    rw [run] at given
    cases given
  | ok made =>
    obtain ⟨id, s'⟩ := made
    rw [run] at given
    simp only [Except.toOption, Option.map_some, Option.some.injEq, Prod.mk.injEq] at given
    obtain ⟨rfl, direct, leaf, written⟩ := given
    have found := Model.reachable_of_single (by decide) direct leaf
    cases drawn : documentWith s'.model ⟨9⟩ [⟨2⟩] with
    | error fault =>
      rw [drawn] at written
      cases written
    | ok document =>
      rw [drawn] at written
      cases written
      have compiled := (result_eq_documentWith found).trans drawn
      exact ⟨s', _, rfl, compiled, callLines_of_load
        (isHonest_attachedImport _ fun value => loads_loadAttachedTo _ 1 value)
        Loaded.holds_empty run compiled⟩

end Loader

end GrammarChart
