import GrammarChart.Proofs.Document.Imports
import GrammarChart.Proofs.Document.Parts

/-!
# Round trip

Loading undoes writing: a grammar that was written and is loaded stands in the model that loading
gives, with every reference bound to the node at the end of its path, or unbound if there is none
(`Ast.IsLoaded`, `Loader.load_json`). The one exception is a path that comes to an index with too
many digits: then there is no model.
-/

set_option autoImplicit false

namespace GrammarChart

/-- Words stand as texts, and a reference stands bound to the node at its path, or unbound if there
is none. -/
def Interpretation.resolved (at_ : List Hop → Option NodeId) : Interpretation String Mention where
  word := Json.str
  leads m place mention := ∃ link, place = .node link ∧
    m.link? link =
      some ⟨.value (.str mention.text), ((at_ mention.path).map Item.node).getD .nothing⟩

namespace Ast

/-- The node of a number is the grammar, with its rules, declarations and diagnostics below it. The
types of the node are the interfaces and then the types. -/
def StandsAt (ast : Ast) (J : Interpretation String Mention) (m : Model) (id : NodeId) : Prop :=
  ∃ rules interfaces types diagnostics,
    m.grammar? id = some ⟨.value (.str ast.name), .ofNodes rules, .ofNodes (interfaces ++ types),
      .ofNodes [], .ofNodes diagnostics, .nothing⟩ ∧
    List.Forall₂ (fun r id => (Part.rule r).IsAt J m id) ast.rules rules ∧
    List.Forall₂ (fun name id => (Part.declaration "Interface" name).IsAt J m id) ast.interfaces
      interfaces ∧
    List.Forall₂ (fun name id => (Part.declaration "Type" name).IsAt J m id) ast.types types ∧
    List.Forall₂ (fun d id => Planting.Standing.diagnostic d .values m id) ast.diagnostics
      diagnostics

/-- Some reference has a path that comes to an index with too many digits. -/
def Stumbles (ast : Ast) : Prop :=
  ∃ mention ∈ ast.mentions, Part.grammar.Stumbles ast mention.path

instance (ast : Ast) : Decidable ast.Stumbles :=
  inferInstanceAs (Decidable (∃ mention ∈ ast.mentions, _))

variable {ast : Ast} {J : Interpretation String Mention} {m : Model} {id : NodeId}

/-- A path through a grammar and one through the nodes that it stands at lead to the same place. -/
theorem agrees_partAt {grammar : Grammar} (stands : ast.StandsAt J m id)
    (isGrammar : m.grammar? id = some grammar) (path : List Hop) :
    Part.Agrees J m (Part.grammar.walk ast path)
      (m.partAt grammar ast.interfaces.length path) := by
  obtain ⟨rules, interfaces, types, diagnostics, found, rulesStand, interfacesStand, typesStand,
    -⟩ := stands
  rw [found, Option.some.injEq] at isGrammar
  subst isGrammar
  cases path with
  | nil => rfl
  | cons hop rest =>
    cases hop with
    | rules index =>
      have first : Part.Agrees J m (Part.grammar.below? ast (.rules index))
          (Model.nodesIn (.ofNodes rules))[index]? := by
        rw [Model.nodesIn_ofNodes]
        exact Part.agrees_getElem? rulesStand index
      exact Part.agrees_bind first (Part.agrees_descend rest)
    | interfaces index =>
      have first : Part.Agrees J m (Part.grammar.below? ast (.interfaces index))
          ((Model.nodesIn (.ofNodes (interfaces ++ types))).take
            ast.interfaces.length)[index]? := by
        rw [Model.nodesIn_ofNodes, interfacesStand.length_eq, List.take_left]
        exact Part.agrees_getElem? interfacesStand index
      exact Part.agrees_bind first (Part.agrees_descend rest)
    | types index =>
      have first : Part.Agrees J m (Part.grammar.below? ast (.types index))
          ((Model.nodesIn (.ofNodes (interfaces ++ types))).drop
            ast.interfaces.length)[index]? := by
        rw [Model.nodesIn_ofNodes, interfacesStand.length_eq, List.drop_left]
        exact Part.agrees_getElem? typesStand index
      exact Part.agrees_bind first (Part.agrees_descend rest)
    | _ => trivial

/-- Where the rules stand that are read from the values of rules, the rules themselves stand. -/
theorem forall₂_isAt_of_read {written : List (Production String Mention)} {rules : List Rule}
    {I : Interpretation Json Reference} (renders : I.Renders J)
    (read : List.Forall₂ Production.IsReadAs written rules) :
    ∀ {ids : List NodeId},
      List.Forall₂ (fun rule id => Planting.Standing.rule rule.production I m id) rules ids →
      List.Forall₂ (fun r id => (Part.rule r).IsAt J m id) written ids := by
  induction read with
  | nil =>
    intro ids stand
    cases stand
    exact .nil
  | cons isRead _ ih =>
    intro ids stand
    cases stand with
    | cons here others => exact .cons (isRead.stands renders here) (ih others)

/-- Where a document stands that was read from the value of a grammar, the grammar stands. -/
theorem standsAt_of_document {rules : List Rule} {I : Interpretation Json Reference}
    (renders : I.Renders J) (read : List.Forall₂ Production.IsReadAs ast.rules rules)
    (stands : (ast.document rules).StandsAt [] I m id) : ast.StandsAt J m id := by
  obtain ⟨ids, interfaces, types, diagnostics, found, rulesStand, interfacesStand, typesStand,
    diagnosticsStand⟩ := stands
  refine ⟨ids, interfaces, types, diagnostics, found, ?_, ?_, ?_, diagnosticsStand⟩
  · exact forall₂_isAt_of_read renders read rulesStand
  · rwa [document, List.forall₂_map_left_iff] at interfacesStand
  · rwa [document, List.forall₂_map_left_iff] at typesStand

/-- Following the path of a reference from the value of a grammar gives the position of the path if
it leads to a part, and stops at an overlong index. -/
theorem leadsTo_insideAddress (ast : Ast) (document : Document) (model : Model) (path : List Hop) :
    (Part.grammar.Stumbles ast path → ∃ count,
      document.leadsTo ast.fields [] model (.str (insideAddress path)) =
        .error (.numeralTooLong count)) ∧
    (¬ Part.grammar.Stumbles ast path →
      document.leadsTo ast.fields [] model (.str (insideAddress path)) =
        .ok ((Part.grammar.walk ast path).bind fun _ =>
          (document.plant model []).1.place? (stepsOf path))) := by
  obtain ⟨stops, leads⟩ := Part.follow_fields ast path .grammar []
  have followed : document.leadsTo ast.fields [] model (.str (insideAddress path)) =
      (Json.follow [] (.obj ast.fields) (path.map Hop.text)).map fun position =>
        position.bind (document.plant model []).1.place? :=
    Planting.nodeAt_inside _ _ _ path
  constructor
  · intro stumbles
    obtain ⟨count, stops⟩ := stops stumbles
    exact ⟨count, by rw [followed, show Json.follow [] (.obj ast.fields) _ = _ from stops]; rfl⟩
  · intro smooth
    rw [followed, show Json.follow [] (.obj ast.fields) _ = _ from leads smooth]
    cases Part.grammar.walk ast path <;> rfl

/-- What is noted for binding when the document of a grammar is planted are its references in
order. -/
theorem addresses_plant_document {rules : List Rule}
    (read : List.Forall₂ Production.IsReadAs ast.rules rules) (model : Model) :
    ((ast.document rules).plant model []).1.addresses =
      ast.mentions.map fun mention => .str (insideAddress mention.path) := by
  have references : rules.flatMap Rule.references = ast.mentions.map Mention.reference := by
    unfold mentions
    generalize ast.rules = written at read
    induction read with
    | nil => rfl
    | cons isRead _ ih =>
      rw [List.flatMap_cons, List.flatMap_cons, List.map_append, ← ih, ← isRead.references]
  rw [Document.addresses_plant]
  show (rules.flatMap Rule.references).filterMap Reference.address = _
  rw [references, List.filterMap_map]
  exact congrFun List.filterMap_eq_map ast.mentions

/-- The grammar was loaded into one model, which gave the other one: it stands there, every
reference bound to the node at the end of its path, and paths lead through it as through the
grammar, different paths to different nodes. -/
structure IsLoaded (ast : Ast) (model m : Model) (id : NodeId) : Prop where
  nodes : model.nodes <+: m.nodes
  nested : model.Nested → m.Nested
  new : model.nodes.length ≤ id.index
  parts : ∃ grammar, m.grammar? id = some grammar ∧
    ast.StandsAt (.resolved (m.partAt grammar ast.interfaces.length)) m id ∧
    (∀ path, Part.Agrees (.resolved (m.partAt grammar ast.interfaces.length)) m
      (Part.grammar.walk ast path) (m.partAt grammar ast.interfaces.length path)) ∧
    ∀ a b id, m.partAt grammar ast.interfaces.length a = some id →
      m.partAt grammar ast.interfaces.length b = some id → a = b

/-- When the document of a grammar was linked, the grammar was loaded. -/
theorem isLoaded_of_isLinked {rules : List Rule} {model : Model}
    (read : List.Forall₂ Production.IsReadAs ast.rules rules)
    (linked : (ast.document rules).IsLinked ast.fields [] model m id) :
    ast.IsLoaded model m id := by
  have count : (ast.document rules).interfaces.length = ast.interfaces.length := List.length_map _
  obtain ⟨grammar, planted, found⟩ := (ast.document rules).place?_stepsOf model []
  obtain ⟨found, injective⟩ := found m linked.extension
  rw [count] at found injective
  have isGrammar : m.grammar? id = some grammar := by
    rw [← linked.grammars, ← linked.root]
    exact planted
  -- Where the parts stand does not depend on what the references lead to.
  have anyhow : ast.StandsAt ⟨Json.str, fun _ _ _ => True⟩ m id :=
    standsAt_of_document ⟨fun _ => rfl, fun _ _ _ _ => trivial⟩ read linked.stands
  have renders : (Interpretation.bound ((ast.document rules).leadsTo ast.fields [] model)).Renders
      (.resolved (m.partAt grammar ast.interfaces.length)) := by
    refine ⟨fun _ => rfl, ?_⟩
    rintro _ place mention ⟨link, target, isLink, bound, node, led, isTarget⟩
    obtain ⟨stops, leads⟩ := ast.leadsTo_insideAddress (ast.document rules) model mention.path
    have smooth : ¬ Part.grammar.Stumbles ast mention.path := by
      intro stumbles
      obtain ⟨count, stops⟩ := stops stumbles
      rw [stops] at led
      cases led
    have same : node = m.partAt grammar ast.interfaces.length mention.path := by
      have agrees := agrees_partAt anyhow isGrammar mention.path
      rw [leads smooth, found, Except.ok.injEq] at led
      rw [← led]
      cases walked : Part.grammar.walk ast mention.path with
      | some part => rfl
      | none =>
        rw [walked] at agrees
        cases reached : m.partAt grammar ast.interfaces.length mention.path with
        | none => rfl
        | some id =>
          rw [reached] at agrees
          exact agrees.elim
    rw [same] at isTarget
    exact ⟨link, isLink, isTarget ▸ bound⟩
  have stands := standsAt_of_document renders read linked.stands
  exact ⟨linked.nodes, linked.nested, linked.new, grammar, isGrammar, stands,
    agrees_partAt stands isGrammar, injective⟩

/-- What is noted when the document of a grammar is planted leads where the path of some reference
of the grammar leads. -/
theorem exists_mention_of_pending {rules : List Rule}
    (read : List.Forall₂ Production.IsReadAs ast.rules rules) {model : Model}
    {entry : NodeId × Json} (mem : entry ∈ ((ast.document rules).plant model []).1.pending) :
    ∃ mention ∈ ast.mentions, entry.2 = .str (insideAddress mention.path) := by
  have address : entry.2 ∈ ((ast.document rules).plant model []).1.addresses :=
    List.mem_map_of_mem mem
  rw [addresses_plant_document read, List.mem_map] at address
  obtain ⟨mention, inside, same⟩ := address
  exact ⟨mention, inside, same.symm⟩

/-- The document of a grammar is linked when no path comes to an overlong index. -/
theorem exists_link_eq_ok {rules : List Rule}
    (read : List.Forall₂ Production.IsReadAs ast.rules rules) (model : Model)
    (smooth : ¬ ast.Stumbles) :
    ∃ m id, (ast.document rules).link ast.fields [] model = .ok (m, id) := by
  have led : ∀ entry ∈ ((ast.document rules).plant model []).1.pending, ∃ found,
      ((ast.document rules).plant model []).1.nodeAt [] ast.fields entry.2 = .ok found := by
    intro entry mem
    obtain ⟨mention, inside, same⟩ := exists_mention_of_pending read mem
    rw [same]
    exact ⟨_, (ast.leadsTo_insideAddress (ast.document rules) model mention.path).2
      fun stumbles => smooth ⟨mention, inside, stumbles⟩⟩
  obtain ⟨m, bound⟩ := Planting.exists_bindAll_eq_ok
    (m := ((ast.document rules).plant model []).1.model) led
  refine ⟨m, ((ast.document rules).plant model []).2, ?_⟩
  rw [Document.link_eq, List.map_nil, bound, ok_bind]

/-- Linking the document of a grammar stops when some path comes to an overlong index. -/
theorem link_eq_error {rules : List Rule}
    (read : List.Forall₂ Production.IsReadAs ast.rules rules) (model : Model)
    (stumbles : ast.Stumbles) :
    ∃ count, (ast.document rules).link ast.fields [] model = .error (.numeralTooLong count) := by
  obtain ⟨mention, inside, overlong⟩ := stumbles
  have noted : Json.str (insideAddress mention.path) ∈
      ((ast.document rules).plant model []).1.addresses := by
    rw [addresses_plant_document read]
    exact List.mem_map_of_mem inside
  have stops : ∃ entry ∈ ((ast.document rules).plant model []).1.pending, ∃ fault,
      ((ast.document rules).plant model []).1.nodeAt [] ast.fields entry.2 = .error fault := by
    obtain ⟨entry, mem, same⟩ := List.mem_map.mp noted
    obtain ⟨count, stops⟩ :=
      (ast.leadsTo_insideAddress (ast.document rules) model mention.path).1 overlong
    exact ⟨entry, mem, .numeralTooLong count, same ▸ stops⟩
  obtain ⟨entry, mem, fault, faulty, bound⟩ := Planting.exists_bindAll_eq_error
    (m := ((ast.document rules).plant model []).1.model) stops
  obtain ⟨mention', -, same'⟩ := exists_mention_of_pending read mem
  -- The first address that faults need not be the given one, but it faults in the same way.
  have kind : ∃ count, fault = .numeralTooLong count := by
    obtain ⟨stops, leads⟩ := ast.leadsTo_insideAddress (ast.document rules) model mention'.path
    rw [same'] at faulty
    by_cases overlong : Part.grammar.Stumbles ast mention'.path
    · obtain ⟨count, stops⟩ := stops overlong
      exact ⟨count, Except.error.inj (faulty.symm.trans stops)⟩
    · have := faulty.symm.trans (leads overlong)
      cases this
  obtain ⟨count, rfl⟩ := kind
  refine ⟨count, ?_⟩
  rw [Document.link_eq, List.map_nil, bound, error_bind]

end Ast

namespace Loader

/-- A written grammar is loaded by linking its document. -/
theorem load_json_eq (resolve : Resolver) (ast : Ast) {rules : List Rule}
    (read : Document.ofFields ast.fields = .ok (ast.document rules)) (s : Loaded) :
    load resolve ast.json s = (do
      let linked ← (ast.document rules).link ast.fields [] s.model
      return (linked.2, { s with model := linked.1 })) := by
  have isGrammar : Document.fieldsOf ast.json = .ok ast.fields := rfl
  have noPaths : Document.importPaths ast.fields = .ok [] := rfl
  unfold load
  rw [lift_bind, isGrammar, ok_bind, lift_bind, noPaths, ok_bind, importAll, pure_bind, lift_bind,
    read, ok_bind, get_bind, lift_bind]
  rfl

/-- A written grammar is loaded, unless a path in it comes to an index with too many digits. -/
theorem load_json (resolve : Resolver) (ast : Ast) (s : Loaded) :
    (¬ ast.Stumbles → ∃ m id, load resolve ast.json s = .ok (id, { s with model := m }) ∧
      ast.IsLoaded s.model m id) ∧
    (ast.Stumbles → ∃ count, load resolve ast.json s = .error (.numeralTooLong count)) := by
  obtain ⟨rules, isRead, read⟩ := ast.exists_ofFields
  rw [load_json_eq resolve ast isRead s]
  constructor
  · intro smooth
    obtain ⟨m, id, linked⟩ := Ast.exists_link_eq_ok read s.model smooth
    refine ⟨m, id, by rw [linked, ok_bind]; rfl, ?_⟩
    exact Ast.isLoaded_of_isLinked read (Document.isLinked_of_link linked)
  · intro stumbles
    obtain ⟨count, stops⟩ := Ast.link_eq_error read s.model stumbles
    exact ⟨count, by rw [stops, error_bind]⟩

/-- A grammar with a rule that calls itself and has a reference along the given path. -/
def selfCalling (path : List Hop) : Ast where
  name := "Chain"
  rules := [.parser "Link" (some (.group [
    .assignment "next" "=" (some (.ruleCall ⟨"Link", [.rules 0], by decide⟩ none)) (some "?"),
    .assignment "other" "=" (some (.crossReference ⟨"Other", path, by decide⟩ none none)) none]
    none)) none true false]
  interfaces := ["Other"]
  types := []
  diagnostics := []
  whole := by simp [Production.isWhole, Production.body?, Phrase.isWhole, Phrase.isWhole.areWhole]

/-- The grammar is loaded with its reference bound, and not when the index has too many digits. -/
theorem load_json_selfCalling :
    (¬ (selfCalling [.interfaces 0]).Stumbles ∧
      ∃ m id, load noImports (selfCalling [.interfaces 0]).json ⟨.empty, []⟩ = .ok (id, ⟨m, []⟩) ∧
        (selfCalling [.interfaces 0]).IsLoaded .empty m id) ∧
    (selfCalling [.rules (10 ^ Text.Numeral.maxDigits)]).Stumbles ∧
      ∃ count, load noImports (selfCalling [.rules (10 ^ Text.Numeral.maxDigits)]).json
        ⟨.empty, []⟩ = .error (.numeralTooLong count) := by
  have smooth : ¬ (selfCalling [.interfaces 0]).Stumbles := by decide +kernel
  have stumbles : (selfCalling [.rules (10 ^ Text.Numeral.maxDigits)]).Stumbles := by
    decide +kernel
  exact ⟨⟨smooth, (load_json noImports _ ⟨.empty, []⟩).1 smooth⟩, stumbles,
    (load_json noImports _ ⟨.empty, []⟩).2 stumbles⟩

end Loader

end GrammarChart
