import GrammarChart.Proofs.Diagram.Collected
import GrammarChart.Proofs.Diagram.Known
import GrammarChart.Proofs.Diagram.Remarks
import GrammarChart.Proofs.Diagram.Names

/-!
# Diagrams can be read back

A diagram whose names are identifiers says which classes and relationships the rules draw, and in
which order: rules with the same text draw the same (`Model.diagram_tells`). A text that was written
at all is the document of the classes and relationships of the sketches
(`Sketch.diagram_eq_document`).
-/

set_option autoImplicit false

namespace GrammarChart

/-- The value is a text, and an identifier. -/
def Json.IsIdentifier (value : Json) : Prop :=
  ∃ text, value = .str text ∧ GrammarChart.IsIdentifier text

/-- The name of what a reference leads to is an identifier. -/
def Face.IsNamed : Face → Prop
  | .parserRule name => name.IsIdentifier
  | .terminalRule name => name.IsIdentifier
  | .declaredType name => name.IsIdentifier
  | _ => True

/-- The names that an element gives or refers to are identifiers, and the operator of an assignment
is one. -/
def Phrase.IsNamed {ρ : Type} (face : ρ → Face) : Phrase Json ρ → Prop
  | .ruleCall rule _ => (face rule).IsNamed
  | .crossReference type _ _ => (face type).IsNamed
  | .assignment feature operator _ _ =>
    feature.IsIdentifier ∧ ∃ text, operator = .str text ∧ IsOperator text
  | .action type inferredType feature _ _ => (∀ t ∈ type, (face t).IsNamed) ∧
    (∀ name ∈ inferredType, name.IsIdentifier) ∧ ∀ name ∈ feature, name.IsIdentifier
  | _ => True

/-- The names at the ends of a line and its feature are identifiers. -/
structure Line.IsNamed (line : Line) : Prop where
  source : line.source.IsIdentifier
  feature : ∀ feature ∈ line.feature, GrammarChart.IsIdentifier feature
  target : line.target.IsIdentifier

/-- The relationship that a line shows. -/
def Line.relationship (line : Line) : Relationship :=
  ⟨line.source.display, line.bounds, line.arrow, line.feature, line.target.display⟩

/-- A line between identifiers is written as its relationship. -/
theorem Line.text_of_isNamed {line : Line} (h : line.IsNamed) :
    line.text = .ok (line.relationship.text ++ "\n") ∧ line.relationship.IsProper := by
  obtain ⟨source, bounds, arrow, feature, target, isCall⟩ := line
  obtain ⟨⟨_, rfl, hs⟩, hf, ⟨_, rfl, ht⟩⟩ := h
  refine ⟨?_, hs, hf, ht⟩
  cases bounds with
  | none => cases feature <;> rfl
  | some bounds =>
    have present : (Item.value (.str bounds.text)).isPresent = true := by
      obtain ⟨optional, many⟩ := bounds
      cases optional <;> cases many <;> rfl
    simp only [Line.text, relationshipLine, Option.map_some, Option.getD_some, present, if_true]
    cases feature <;> rfl

namespace Drawing

variable {ρ : Type} {face : ρ → Face}

/-- The attribute that an element draws. -/
def attribute? (face : ρ → Face) : Phrase Json ρ → Option Attribute
  | .assignment feature operator terminal _ => (calledTerminal? face terminal).map fun name =>
      ⟨feature.display, operator.display, name.display⟩
  | _ => none

/-- The attribute lines of an element are those of its attribute. -/
theorem attributes_eq (b : Phrase Json ρ) :
    attributes face b = (attribute? face b).toList.map fun a => a.text ++ "\n" := by
  cases b with
  | assignment feature operator terminal mark =>
    rw [attributes, attribute?]
    cases calledTerminal? face terminal <;> rfl
  | _ => rfl

/-- The name of a called terminal rule is an identifier when references lead to identifiers. -/
theorem isIdentifier_of_calledTerminal {terminal : Option (Phrase Json ρ)} {name : Json}
    (named : ∀ t ∈ terminal, t.IsNamed face) (called : calledTerminal? face terminal = some name) :
    name.IsIdentifier := by
  cases terminal with
  | none => cases called
  | some t =>
    cases t with
    | ruleCall call mark =>
      have leads : (face call).IsNamed := named _ rfl
      simp only [calledTerminal?] at called
      cases hf : face call <;> simp_all [Face.terminalRule?, Face.IsNamed]
    | _ => cases called

/-- The attribute of an element with proper names is proper. -/
theorem isProper_of_attribute {b : Phrase Json ρ} {a : Attribute}
    (named : ∀ c ∈ b.elements, c.IsNamed face) (drawn : attribute? face b = some a) :
    a.IsProper := by
  cases b with
  | assignment feature operator terminal mark =>
    obtain ⟨name, called, rfl⟩ := Option.map_eq_some_iff.mp drawn
    obtain ⟨⟨_, rfl, hf⟩, _, rfl, ho⟩ := named _ (Phrase.self_mem_elements _)
    obtain ⟨_, rfl, ht⟩ := isIdentifier_of_calledTerminal (fun t mem => named t
      (Phrase.mem_elements_of_child (Option.mem_toList.mpr mem) t.self_mem_elements)) called
    exact ⟨hf, ho, ht⟩
  | _ => cases drawn

/-- A feature that is an identifier is shown as it is. -/
theorem isIdentifier_of_shown {feature : Json} (proper : feature.IsIdentifier) :
    ∀ shown ∈ feature.shown?, GrammarChart.IsIdentifier shown := by
  obtain ⟨text, rfl, identifies⟩ := proper
  intro shown mem
  unfold Json.shown? at mem
  split at mem
  · cases mem
    exact identifies
  · cases mem

/-- An element with proper names joins identifiers. -/
theorem joins_of_isNamed {b : Phrase Json ρ} (named : b.IsNamed face) :
    b.Joins face Json.IsIdentifier GrammarChart.IsIdentifier := by
  have leads : ∀ {f : Face}, f.IsNamed → f.Names Json.IsIdentifier := by
    intro f proper
    cases f <;> exact proper
  cases b with
  | ruleCall call mark => exact leads named
  | crossReference type terminal mark => exact leads named
  | assignment feature operator terminal mark => exact isIdentifier_of_shown named.1
  | action type inferredType feature operator mark =>
    obtain ⟨types, inferred, features⟩ := named
    refine ⟨fun t mem => leads (types t mem), fun name mem => ?_, fun shown mem => ?_⟩
    · exact inferred name (Option.filter_eq_some_iff.mp mem).1
    · obtain ⟨value, here, isShown⟩ := Option.bind_eq_some_iff.mp mem
      exact isIdentifier_of_shown (features value here) shown isShown
  | _ => trivial

end Drawing

namespace Sketch

/-- The names in a rule and those that it refers to are identifiers. -/
structure IsNamed (s : Sketch) : Prop where
  name : s.rule.name.IsIdentifier
  elements : ∀ body ∈ s.rule.body?, ∀ b ∈ body.elements, b.IsNamed s.face

/-- The class of a rule. Only a rule with a body has one. -/
def box? (s : Sketch) : Option ClassBox :=
  s.rule.body?.map fun body => ⟨s.rule.name.display,
    (body.reached []).filterMap fun met => Drawing.attribute? s.face met.2⟩

/-- The relationships of a rule. -/
def relationships (s : Sketch) : List Relationship :=
  s.lines.items.map Line.relationship

variable {s : Sketch}

/-- The class block of a rule is written as its class. -/
theorem block_eq (s : Sketch) :
    s.block = (s.box?.toList.flatMap ClassBox.remarks).map fun e => e.text ++ "\n" := by
  rw [block, Drawing.block, box?]
  cases s.rule.body? with
  | none => rfl
  | some body =>
    have attributes : (body.reached []).flatMap (fun met => Drawing.attributes s.face met.2) =
        ((body.reached []).filterMap fun met => Drawing.attribute? s.face met.2).map
          fun a => a.text ++ "\n" := by
      rw [List.map_filterMap, List.filterMap_eq_flatMap_toList]
      refine List.flatMap_congr fun met _ => ?_
      rw [Drawing.attributes_eq, ← Option.toList_map]
    have texts : ∀ as : List Attribute, (as.map Remark.has).map (fun e => e.text ++ "\n") =
        as.map fun a => a.text ++ "\n" := fun as => by rw [List.map_map]; rfl
    have header : "class " ++ s.rule.name.display ++ " \x7b\n" =
        (Remark.begins s.rule.name.display).text ++ "\n" :=
      String.ext (by simp [Remark.text])
    simp only [attributes, header, Option.map_some, Option.toList_some, List.flatMap_singleton,
      ClassBox.remarks, List.map_append, List.map_cons, texts]
    rfl

/-- The class of a rule with proper names is proper. -/
theorem isProper_of_box (h : s.IsNamed) {c : ClassBox} (drawn : s.box? = some c) : c.IsProper := by
  obtain ⟨body, hasBody, rfl⟩ := Option.map_eq_some_iff.mp drawn
  obtain ⟨text, isText, proper⟩ := h.name
  refine ⟨?_, fun a mem => ?_⟩
  · show GrammarChart.IsIdentifier s.rule.name.display
    rw [isText]
    exact proper
  · obtain ⟨met, reached, given⟩ := List.mem_filterMap.mp mem
    refine Drawing.isProper_of_attribute (fun c below => ?_) given
    exact h.elements body hasBody c
      (body.mem_elements_trans (body.mem_elements_of_mem_reached reached) below)

/-- The lines of a rule with proper names are between identifiers. -/
theorem isNamed_of_lines (h : s.IsNamed) {line : Line} (mem : line ∈ s.lines.items) :
    line.IsNamed := by
  have joins := joins_of_lines h.name (fun body hasBody b inside =>
    Drawing.joins_of_isNamed (h.elements body hasBody b inside)) mem
  exact ⟨joins.source, joins.feature, joins.target⟩

/-- The items of passes over a list without a fault are those of each of them. -/
theorem flatMap_items {α β : Type} {produce : β → Emission α} {xs : List β}
    (whole : (Emission.ofEach produce xs).fault = none) :
    (Emission.ofEach produce xs).items = xs.flatMap fun x => (produce x).items := by
  induction xs with
  | nil => rfl
  | cons x rest ih =>
    obtain ⟨first, later⟩ := Emission.append_fault_eq_none.mp whole
    rw [Emission.ofEach, Emission.append_of_none first, List.flatMap_cons, ih later]

/-- The text of a diagram of rules with proper names is the document of their classes and of their
relationships. -/
theorem diagram_eq_document {sketches : List Sketch} (named : ∀ s ∈ sketches, s.IsNamed)
    {text : String} (h : diagram sketches = .ok text) :
    text = Remark.document
      (Remark.ofDiagram (sketches.filterMap box?) (sketches.flatMap relationships)) := by
  obtain ⟨drawn, written, lines, shown, rfl⟩ := exists_of_diagram h
  have items : drawn = sketches.flatMap fun s => s.lines.items := by
    have each := @flatMap_items Line Sketch Sketch.lines sketches (by rw [lines]; rfl)
    rwa [lines] at each
  have related : sketches.flatMap relationships = drawn.map Line.relationship := by
    rw [items, List.map_flatMap]
    rfl
  have inside : ∀ line ∈ drawn, line.IsNamed := by
    intro line mem
    rw [items] at mem
    obtain ⟨s, hs, here⟩ := List.mem_flatMap.mp mem
    exact isNamed_of_lines (named s hs) here
  have texts : written = drawn.map fun line => line.relationship.text ++ "\n" := by
    clear related items lines h
    induction shown with
    | nil => rfl
    | @cons line text drawn written here _ ih =>
      rw [List.forall_mem_cons] at inside
      rw [(Line.text_of_isNamed inside.1).1, Except.ok.injEq] at here
      rw [List.map_cons, here, ih inside.2]
  have blocks : sketches.flatMap block =
      ((sketches.filterMap box?).flatMap ClassBox.remarks).map fun e => e.text ++ "\n" := by
    rw [List.filterMap_eq_flatMap_toList, List.flatMap_assoc, List.map_flatMap]
    exact List.flatMap_congr fun s _ => s.block_eq
  have opening : Writer.opening = Remark.opening.text ++ "\n" := rfl
  have closing : Writer.closing = Remark.closing.text ++ "\n" := rfl
  have relates : drawn.map (fun line => line.relationship.text ++ "\n") =
      ((drawn.map Line.relationship).map Remark.relates).map fun e => e.text ++ "\n" := by
    rw [List.map_map, List.map_map]
    rfl
  rw [related, Remark.document, Remark.ofDiagram, texts, blocks, relates, opening, closing]
  simp only [List.cons_append, List.map_cons, List.map_append, List.map_nil, String.join_cons,
    String.join_append, String.join_nil, String.append_empty, String.append_assoc]

end Sketch

namespace Model

variable {m : Model}

/-- The rules of the sketches stand at the nodes of a list, with all below them contained in what it
stands in. -/
def Lists (m : Model) (sketches : List Sketch) (rules : List Item) : Prop :=
  ∃ ids : List NodeId, rules = ids.map .node ∧ List.Forall₂ (fun (s : Sketch) id =>
    s.rule.StandsAt (.seen s.face) m id ∧ m.NestedBelow id) sketches ids

/-- A list of rules with proper names is written as the document of their classes and of their
relationships. -/
theorem result_eq_document (plain : m.IsPlain) {sketches : List Sketch} {rules : List Item}
    (listed : m.Lists sketches rules) (named : ∀ s ∈ sketches, s.IsNamed) {verbose : Bool}
    {writer : Writer} {text : String}
    (h : (m.compileRules verbose rules writer).result = .ok text) :
    text = Remark.document (Remark.ofDiagram (sketches.filterMap Sketch.box?)
      (sketches.flatMap Sketch.relationships)) := by
  obtain ⟨ids, rfl, stand⟩ := listed
  have quiet := result_compileRules_quiet h
  have known : List.Forall₂ (fun (s : Sketch) id => s.StandsAt m id) sketches ids := by
    refine (forall₂_imp_of_mem (fun id mem s here => ?_) stand.flip).flip
    exact ⟨here.1, here.2, isKnown_of_classBlock here.1 here.2
      (classBlock_of_result h _ (List.mem_map_of_mem mem))⟩
  rw [result_of_sketches plain known] at quiet
  exact Sketch.diagram_eq_document named quiet

/-- Rules that are kept have names of their own. -/
theorem distinct_firstOfEachName {names rules kept : List Item}
    (h : m.firstOfEachName names rules = .ok kept) :
    (∀ rule ∈ kept, ∀ name, m.nameOf rule = .ok name → names.any name.sameAtom = false) ∧
      kept.Pairwise fun a b => ∀ name other, m.nameOf a = .ok name → m.nameOf b = .ok other →
        other.sameAtom name = false := by
  induction rules generalizing names kept with
  | nil =>
    cases h
    exact ⟨by simp, .nil⟩
  | cons rule rest ih =>
    rw [firstOfEachName] at h
    obtain ⟨name, named, h⟩ := bind_eq_ok.mp h
    split at h
    · cases h
    · split at h
      · exact ih h
      · next new =>
        obtain ⟨others, later, last⟩ := bind_eq_ok.mp h
        cases last
        obtain ⟨fresh, apart⟩ := ih later
        simp only [List.any_cons, Bool.or_eq_false_iff] at fresh
        refine ⟨?_, .cons ?_ apart⟩
        · intro other mem given isName
          rcases List.mem_cons.mp mem with rfl | inside
          · rw [named, Except.ok.injEq] at isName
            rw [← isName]
            simpa using new
          · exact (fresh other inside given isName).2
        · intro other inside given given' isName isName'
          rw [named, Except.ok.injEq] at isName
          rw [← isName]
          exact (fresh other inside given' isName').1

/-- Rules with proper names that are kept have different names. -/
theorem nodup_names {sketches : List Sketch} {rules all : List Item}
    (kept : m.firstOfEachName [] all = .ok rules) (listed : m.Lists sketches rules)
    (named : ∀ s ∈ sketches, s.IsNamed) :
    (sketches.map fun s => s.rule.name.display).Nodup := by
  obtain ⟨ids, rfl, stand⟩ := listed
  have apart := (distinct_firstOfEachName kept).2
  clear kept
  induction stand with
  | nil => exact List.nodup_nil
  | @cons s id sketches ids here stand ih =>
    rw [List.map_cons, List.pairwise_cons] at apart
    rw [List.forall_mem_cons] at named
    refine List.nodup_cons.mpr ⟨fun again => ?_, ih named.2 apart.2⟩
    obtain ⟨t, mem, same⟩ := List.mem_map.mp again
    obtain ⟨i, bound, rfl⟩ := List.mem_iff_getElem.mp mem
    have bound' : i < ids.length := by rwa [← stand.length_eq]
    have other := nameOf_of_seen (stand.get bound bound').1
    have different := apart.1 _ (List.mem_map_of_mem (List.getElem_mem bound')) _ _
      (nameOf_of_seen here.1) other
    obtain ⟨name, isName, -⟩ := named.1.name
    obtain ⟨name', isName', -⟩ := (named.2 _ mem).name
    rw [List.get_eq_getElem, isName', isName] at different
    simp only [isName', isName, Json.display_str] at same
    simp [same] at different

/-- The classes of rules are those of the rules that have a body. -/
theorem names_of_boxes (sketches : List Sketch) :
    (sketches.filterMap Sketch.box?).map ClassBox.name =
      (sketches.filter fun s => s.rule.body?.isSome).map fun s => s.rule.name.display := by
  induction sketches with
  | nil => rfl
  | cons s rest ih => cases hb : s.rule.body? <;> simp [Sketch.box?, hb, ih]

/-- The rules that are collected are those that are kept of all. -/
theorem exists_firstOfEachName {id : NodeId} {withImports : Bool} {rules : List Item}
    (h : m.collectRules id withImports = .ok rules) :
    ∃ all, m.firstOfEachName [] all = .ok rules := by
  rw [collectRules_eq] at h
  obtain ⟨reached, -, h⟩ := bind_eq_ok.mp h
  obtain ⟨kept, found, h⟩ := bind_eq_ok.mp h
  split at h
  · cases h
  · cases h
    exact ⟨_, found⟩

/-- The text of a diagram says what the rules draw. Lists of rules that are compiled to one text,
in one model or in two, draw the same classes with the same attributes and the same relationships,
in the same order. In the diagram of a grammar, each collected rule with a body has exactly one line
that begins its class, and no other line begins one. -/
theorem diagram_tells :
    (∀ {m m' : Model} {sketches sketches' : List Sketch} {rules rules' : List Item}
      {verbose verbose' : Bool} {writer writer' : Writer} {text : String},
      m.IsPlain → m'.IsPlain → m.Lists sketches rules → m'.Lists sketches' rules' →
      (∀ s ∈ sketches, s.IsNamed) → (∀ s ∈ sketches', s.IsNamed) →
      (m.compileRules verbose rules writer).result = .ok text →
      (m'.compileRules verbose' rules' writer').result = .ok text →
      sketches.filterMap Sketch.box? = sketches'.filterMap Sketch.box? ∧
        sketches.flatMap Sketch.relationships = sketches'.flatMap Sketch.relationships) ∧
    (∀ {m : Model} {sketches : List Sketch} {rules : List Item} {verbose withImports : Bool}
      {id : NodeId} {writer : Writer} {text : String},
      m.IsPlain → m.collectRules id withImports = .ok rules → m.Lists sketches rules →
      (∀ s ∈ sketches, s.IsNamed) →
      (m.compileGrammar verbose withImports id writer).result = .ok (some text) →
      (∀ s ∈ sketches, s.rule.body?.isSome → (text.toList.splitOn '\n').count
        ("class " ++ s.rule.name.display ++ " \x7b").toList = 1) ∧
        ∀ name : String, ("class " ++ name ++ " \x7b").toList ∈ text.toList.splitOn '\n' →
          ∃ s ∈ sketches, s.rule.body?.isSome ∧ s.rule.name = .str name) := by
  have boxes : ∀ {sketches : List Sketch}, (∀ s ∈ sketches, s.IsNamed) →
      ∀ c ∈ sketches.filterMap Sketch.box?, c.IsProper := by
    intro sketches named c mem
    obtain ⟨s, inside, given⟩ := List.mem_filterMap.mp mem
    exact Sketch.isProper_of_box (named s inside) given
  have relationships : ∀ {sketches : List Sketch}, (∀ s ∈ sketches, s.IsNamed) →
      ∀ r ∈ sketches.flatMap Sketch.relationships, r.IsProper := by
    intro sketches named r mem
    obtain ⟨s, inside, here⟩ := List.mem_flatMap.mp mem
    obtain ⟨line, drawn, rfl⟩ := List.mem_map.mp here
    exact (Line.text_of_isNamed (Sketch.isNamed_of_lines (named s inside) drawn)).2
  constructor
  · intro m m' sketches sketches' rules rules' verbose verbose' writer writer' text plain plain'
      listed listed' named named' compiled compiled'
    have document := result_eq_document plain listed named compiled
    rw [result_eq_document plain' listed' named' compiled'] at document
    obtain ⟨classes, lines⟩ := Remark.ofDiagram_inj (boxes named') (relationships named')
      (boxes named) (relationships named) document
    exact ⟨classes.symm, lines.symm⟩
  · intro m sketches rules verbose withImports id writer text plain collected listed named compiled
    obtain ⟨rules', collected', compiled⟩ := exists_of_compileGrammar compiled
    rw [collected, Except.ok.injEq] at collected'
    subst collected'
    have document := result_eq_document plain listed named compiled
    have count : ∀ name : String, (text.toList.splitOn '\n').count
        ("class " ++ name ++ " \x7b").toList =
          ((sketches.filterMap Sketch.box?).map ClassBox.name).count name := by
      intro name
      rw [document, Remark.count_lines
        (Remark.isProper_ofDiagram (boxes named) (relationships named)), Remark.count_begins]
    rw [names_of_boxes] at count
    have distinct : ((sketches.filter fun s => s.rule.body?.isSome).map
        fun s => s.rule.name.display).Nodup := by
      obtain ⟨all, kept⟩ := exists_firstOfEachName collected
      exact (nodup_names kept listed named).sublist (List.filter_sublist.map _)
    refine ⟨fun s mem hasBody => ?_, fun name mem => ?_⟩
    · rw [count]
      exact List.count_eq_one_of_mem distinct
        (List.mem_map.mpr ⟨s, List.mem_filter.mpr ⟨mem, hasBody⟩, rfl⟩)
    · have some' := List.count_pos_iff.mpr mem
      rw [count] at some'
      obtain ⟨s, inside, same⟩ := List.mem_map.mp (List.count_pos_iff.mp some')
      obtain ⟨mem, hasBody⟩ := List.mem_filter.mp inside
      obtain ⟨text, isText, -⟩ := (named s mem).name
      rw [isText] at same
      exact ⟨s, mem, hasBody, by rw [isText, ← same]; rfl⟩

/-- A model of a grammar with a rule that has an attribute, a rule that calls it and a terminal
rule. -/
def listing : Model := ⟨[
  .ofShape (.reference ⟨.value (.str "ID"), .node ⟨6⟩⟩) .nothing,
  { Node.ofShape (.ruleCall (.node ⟨0⟩)) .nothing with container := some (.node ⟨2⟩) },
  { Node.ofShape (.assignment (.value (.str "name")) (.value (.str "=")) (.node ⟨1⟩)) .nothing with
    container := some (.node ⟨3⟩) },
  { Node.ofShape (.parserRule (.value (.str "class")) (.node ⟨2⟩) .nothing .no .no) .nothing with
    container := some (.node ⟨8⟩) },
  .ofShape (.reference ⟨.value (.str "class"), .node ⟨3⟩⟩) .nothing,
  { Node.ofShape (.ruleCall (.node ⟨4⟩)) .nothing with container := some (.node ⟨7⟩) },
  { Node.ofShape (.terminalRule (.value (.str "ID")) .nothing .no .no) .nothing with
    container := some (.node ⟨8⟩) },
  { Node.ofShape (.parserRule (.value (.str "B")) (.node ⟨5⟩) .nothing .no .no) .nothing with
    container := some (.node ⟨8⟩) },
  .ofShape (.grammar ⟨.value (.str "G"), .ofNodes [⟨3⟩, ⟨7⟩, ⟨6⟩], .ofNodes [], .ofNodes [],
    .ofNodes [], .nothing⟩) .nothing]⟩

/-- A reference to a rule of that model, by the name of the rule. -/
def listingReference (name : String) : Reference := ⟨.str name, none⟩

/-- What the references of that model lead to. -/
def listingFace (reference : Reference) : Face :=
  if reference.text.isText "ID" then .terminalRule (.str "ID") else .parserRule (.str "class")

/-- The rules of that model that have a class. -/
def listingClasses : List Sketch :=
  let named : Phrase Json Reference := .assignment (.str "name") (.str "=")
    (some (.ruleCall (listingReference "ID") none)) none
  [⟨listingFace, .parser (.str "class") (some named) none false false⟩,
    ⟨listingFace, .parser (.str "B") (some (.ruleCall (listingReference "class") none)) none false
      false⟩]

/-- All rules of that model. -/
def listingRules : List Sketch :=
  listingClasses ++ [⟨listingFace, .terminal (.str "ID") none false false⟩]

/-- The rules of the model stand where they are listed. -/
theorem lists_listing : listing.Lists listingClasses ([⟨3⟩, ⟨7⟩].map .node) ∧
    listing.Lists listingRules ([⟨3⟩, ⟨7⟩, ⟨6⟩].map .node) := by
  have nested : listing.isNested := rfl
  have attribute' : Phrase.StandsAt (.seen listingFace) listing
      (.ruleCall (listingReference "ID") none) ⟨1⟩ :=
    ⟨_, ⟨⟨0⟩, _, rfl, rfl, .terminalRule rfl⟩, _, rfl, rfl, rfl⟩
  have first : (listingClasses[0]).rule.StandsAt (.seen listingFace) listing ⟨3⟩ :=
    ⟨_, ⟨_, rfl, _, ⟨_, rfl, attribute'⟩, _, rfl, rfl, rfl⟩, rfl⟩
  have second : (listingClasses[1]).rule.StandsAt (.seen listingFace) listing ⟨7⟩ :=
    ⟨_, ⟨_, rfl, _, ⟨⟨4⟩, _, rfl, rfl, .parserRule rfl⟩, _, rfl, rfl, rfl⟩, rfl⟩
  have below := nestedBelow_of_isNested nested
  exact ⟨⟨_, rfl, .cons ⟨first, below _⟩ (.cons ⟨second, below _⟩ .nil)⟩,
    ⟨_, rfl, .cons ⟨first, below _⟩ (.cons ⟨second, below _⟩ (.cons ⟨rfl, below _⟩ .nil))⟩⟩

/-- The names of the rules are identifiers. -/
theorem isNamed_listing : ∀ s ∈ listingRules, s.IsNamed := by
  have identifier : ∀ text ∈ ["class", "B", "ID", "name"], Json.IsIdentifier (.str text) := by
    intro text mem
    simp only [List.mem_cons, List.not_mem_nil, or_false] at mem
    refine ⟨text, rfl, ?_, ?_⟩ <;> rcases mem with rfl | rfl | rfl | rfl <;>
      simp [isIdentifierCharacter, Char.isAlphanum, Char.isAlpha, Char.isUpper, Char.isLower]
  have leads : ∀ name, (listingFace (listingReference name)).IsNamed := by
    intro name
    unfold listingFace
    split
    · exact identifier "ID" (by simp)
    · exact identifier "class" (by simp)
  intro s mem
  simp only [listingRules, listingClasses, List.cons_append, List.nil_append, List.mem_cons,
    List.not_mem_nil, or_false] at mem
  rcases mem with rfl | rfl | rfl
  · refine ⟨identifier "class" (by simp), fun body hasBody b mem => ?_⟩
    cases hasBody
    rw [Phrase.elements_eq] at mem
    rcases List.mem_cons.mp mem with rfl | below
    · exact ⟨identifier "name" (by simp), "=", rfl, by simp [IsOperator]⟩
    · obtain ⟨c, child, inside⟩ := List.mem_flatMap.mp below
      cases List.mem_singleton.mp child
      cases List.mem_singleton.mp inside
      exact leads "ID"
  · refine ⟨identifier "B" (by simp), fun body hasBody b mem => ?_⟩
    cases hasBody
    cases List.mem_singleton.mp mem
    exact leads "class"
  · exact ⟨identifier "ID" (by simp), by simp [Production.body?]⟩

/-- The nodes of the model have the parts of their kinds only. -/
theorem isPlain_listing : listing.IsPlain := by
  have each : ∀ node ∈ listing.nodes, node.extras = [] := by
    simp [listing, Node.ofShape]
  exact fun id node found => each node (List.mem_of_getElem? found)

/-- The text of the diagram of that model. -/
def listingText : String :=
  "@startuml\nclass class \x7b\nname=ID\n\x7d\nclass B \x7b\n\x7d\nB *-- class\n@enduml\n"

/-- With or without the terminal rule, which has no class, the rules have one text. In the diagram of
the grammar, the class that is named like a keyword begins once. -/
theorem diagram_tells_listing :
    listingClasses.filterMap Sketch.box? = listingRules.filterMap Sketch.box? ∧
      listingClasses.flatMap Sketch.relationships = listingRules.flatMap Sketch.relationships ∧
      (listing.compileGrammar false false ⟨8⟩ .idle).result = .ok (some listingText) ∧
      (listingText.toList.splitOn '\n').count "class class \x7b".toList = 1 := by
  have some' : (listing.compileRules false ([⟨3⟩, ⟨7⟩].map .node) .idle).result =
      .ok listingText := rfl
  have all : (listing.compileRules true ([⟨3⟩, ⟨7⟩, ⟨6⟩].map .node) .idle).result =
      .ok listingText := rfl
  have grammar : (listing.compileGrammar false false ⟨8⟩ .idle).result =
      .ok (some listingText) := rfl
  have collected : listing.collectRules ⟨8⟩ false = .ok ([⟨3⟩, ⟨7⟩, ⟨6⟩].map .node) := rfl
  obtain ⟨listed, listed'⟩ := lists_listing
  have classes : ∀ s ∈ listingClasses, s.IsNamed :=
    fun s mem => isNamed_listing s (List.mem_append_left _ mem)
  obtain ⟨boxes, relationships⟩ := diagram_tells.1 isPlain_listing isPlain_listing listed listed'
    classes isNamed_listing some' all
  obtain ⟨once, -⟩ := diagram_tells.2 isPlain_listing collected listed' isNamed_listing grammar
  exact ⟨boxes, relationships, grammar, once (listingClasses[0]) (by simp [listingRules]) rfl⟩

end Model
end GrammarChart
