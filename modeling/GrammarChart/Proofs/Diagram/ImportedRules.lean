import GrammarChart.Proofs.Diagram.Compilation
import GrammarChart.Proofs.Diagram.Sketches
import GrammarChart.Proofs.Model.BreadthFirst

/-!
# Imported rules in a diagram

Where all rules have texts as names, collecting keeps of each name the first rule
(`Model.firstOfEachName_of_names`), and what it keeps of a list stays kept when further rules follow
(`Model.firstOfEachName_append`). A compilation writes the class blocks of its rules and then their
relationship lines, so what the further rules add stands behind the blocks and behind the lines of
the first ones (`Model.result_compileRules_of_names`). Together: the imports of a grammar only
insert text into its diagram (`Model.imports_only_insert`).
-/

set_option autoImplicit false

namespace GrammarChart

namespace Model

variable {m : Model} {root : NodeId}

/-- The class blocks of rules. -/
def blocksOf (m : Model) (rules : List Item) : Except Fault String :=
  (Emission.ofEach m.classBlock rules).joined

/-- The relationship lines of rules. -/
def linesOf (m : Model) (rules : List Item) : Except Fault String :=
  (Emission.ofEach m.relationshipLines rules).joined

/-- Rules that have texts as names are compiled to their class blocks and, behind them, their
relationship lines. -/
theorem result_compileRules_of_names {rules : List Item}
    (named : ∀ rule ∈ rules, m.HasName rule) (verbose : Bool) (writer : Writer) :
    (m.compileRules verbose rules writer).result = do
      let blocks ← m.blocksOf rules
      let lines ← m.linesOf rules
      return Writer.opening ++ blocks ++ lines ++ Writer.closing := by
  rw [result_compileRules_eq_joined, fragments_compilationOutputs named, Emission.joined_append,
    blocksOf, linesOf]
  simp only [bind_assoc, pure_bind, String.append_assoc]

/-- A grammar without errors whose collected rules have texts as names is compiled to their class
blocks and their relationship lines. -/
theorem result_compileGrammar_of_names {withImports : Bool} {rules : List Item}
    (sound : m.hasErrors (.node root) = .ok false)
    (collected : m.collectRules root withImports = .ok rules)
    (named : ∀ rule ∈ rules, m.HasName rule) (verbose : Bool) (writer : Writer) :
    (m.compileGrammar verbose withImports root writer).result = do
      let blocks ← m.blocksOf rules
      let lines ← m.linesOf rules
      return some (Writer.opening ++ blocks ++ lines ++ Writer.closing) := by
  rw [compileGrammar, sound]
  simp only [collected, result_compileRules_of_names named]
  cases m.blocksOf rules with
  | error fault => rfl
  | ok blocks => cases m.linesOf rules <;> rfl

/-- The class blocks of two lists of rules stand in a row. -/
theorem blocksOf_append (m : Model) (own rest : List Item) :
    m.blocksOf (own ++ rest) = do
      let blocks ← m.blocksOf own
      let more ← m.blocksOf rest
      return blocks ++ more := by
  rw [blocksOf, Emission.ofEach_append, Emission.joined_append]
  rfl

/-- The relationship lines of two lists of rules stand in a row. -/
theorem linesOf_append (m : Model) (own rest : List Item) :
    m.linesOf (own ++ rest) = do
      let lines ← m.linesOf own
      let more ← m.linesOf rest
      return lines ++ more := by
  rw [linesOf, Emission.ofEach_append, Emission.joined_append]
  rfl

/-- Of the rules that have none of the given names, the kept ones are the first of each name, in the
order of the rules. -/
structure KeepsFirst (m : Model) (names : List String) (rules kept : List Item) : Prop where
  sublist : kept.Sublist rules
  distinct : (kept.map m.nameOf).Nodup
  fresh : ∀ rule ∈ kept, ∀ name ∈ names, m.nameOf rule ≠ .ok (.value (.str name))
  covers : ∀ rule ∈ rules, (∃ name ∈ names, m.nameOf rule = .ok (.value (.str name))) ∨
    m.nameOf rule ∈ kept.map m.nameOf
  first : ∀ rule ∈ kept, ∃ before after, rules = before ++ rule :: after ∧
    m.nameOf rule ∉ before.map m.nameOf

namespace KeepsFirst

variable {names : List String} {rules kept : List Item} {rule : Item} {name : String}

/-- A rule of a name that came before is left out. -/
theorem skip (known : name ∈ names) (named : m.nameOf rule = .ok (.value (.str name)))
    (keeps : m.KeepsFirst names rules kept) : m.KeepsFirst names (rule :: rules) kept where
  sublist := keeps.sublist.cons rule
  distinct := keeps.distinct
  fresh := keeps.fresh
  covers := List.forall_mem_cons.mpr ⟨.inl ⟨name, known, named⟩, keeps.covers⟩
  first other mem := by
    obtain ⟨before, after, rfl, new⟩ := keeps.first other mem
    refine ⟨rule :: before, after, rfl, ?_⟩
    rw [List.map_cons, List.mem_cons, named]
    exact not_or_intro (keeps.fresh other mem name known) new

/-- A rule of a new name is kept, and its name is a known one from there on. -/
theorem keep (new : name ∉ names) (named : m.nameOf rule = .ok (.value (.str name)))
    (keeps : m.KeepsFirst (name :: names) rules kept) :
    m.KeepsFirst names (rule :: rules) (rule :: kept) where
  sublist := keeps.sublist.cons_cons rule
  distinct := by
    rw [List.map_cons, named]
    refine List.nodup_cons.mpr ⟨fun mem => ?_, keeps.distinct⟩
    obtain ⟨other, inside, same⟩ := List.mem_map.mp mem
    exact keeps.fresh other inside name List.mem_cons_self same
  fresh := by
    refine List.forall_mem_cons.mpr ⟨fun other known same => ?_, fun r mem other known => ?_⟩
    · rw [named] at same
      cases same
      exact new known
    · exact keeps.fresh r mem other (List.mem_cons_of_mem name known)
  covers := by
    rw [List.map_cons]
    refine List.forall_mem_cons.mpr ⟨.inr List.mem_cons_self, fun r mem => ?_⟩
    rcases keeps.covers r mem with ⟨other, known, same⟩ | kept
    · rcases List.mem_cons.mp known with rfl | earlier
      · exact .inr (List.mem_cons.mpr (.inl (same.trans named.symm)))
      · exact .inl ⟨other, earlier, same⟩
    · exact .inr (List.mem_cons_of_mem _ kept)
  first := by
    refine List.forall_mem_cons.mpr ⟨⟨[], rules, rfl, List.not_mem_nil⟩, fun r mem => ?_⟩
    obtain ⟨before, after, rfl, new'⟩ := keeps.first r mem
    refine ⟨rule :: before, after, rfl, ?_⟩
    rw [List.map_cons, List.mem_cons, named]
    exact not_or_intro (keeps.fresh r mem name List.mem_cons_self) new'

end KeepsFirst

/-- Of rules that have texts as names, the first of each name are found. -/
theorem firstOfEachName_of_names {rules : List Item} (named : ∀ rule ∈ rules, m.HasName rule)
    (names : List String) :
    ∃ kept, m.firstOfEachName (names.map fun name => .value (.str name)) rules = .ok kept ∧
      m.KeepsFirst names rules kept := by
  induction rules generalizing names with
  | nil =>
    exact ⟨[], rfl, .slnil, List.nodup_nil, List.forall_mem_nil _, List.forall_mem_nil _,
      List.forall_mem_nil _⟩
  | cons rule rest ih =>
    obtain ⟨⟨name, here⟩, others⟩ := List.forall_mem_cons.mp named
    have atom : m.isAtom (.value (.str name)) = true := rfl
    have known : (names.map fun name => Item.value (.str name)).any
        (Item.sameAtom (.value (.str name))) = decide (name ∈ names) := by
      rw [List.any_map, ← List.contains_eq_mem, List.contains_eq_any_beq]
      rfl
    rw [firstOfEachName, here, ok_bind, atom, known]
    by_cases earlier : name ∈ names
    · obtain ⟨kept, found, keeps⟩ := ih others names
      exact ⟨kept, by simpa [earlier] using found, keeps.skip earlier here⟩
    · obtain ⟨kept, found, keeps⟩ := ih others (name :: names)
      rw [List.map_cons] at found
      refine ⟨rule :: kept, ?_, keeps.keep earlier here⟩
      simp only [earlier, decide_false, Bool.not_true, Bool.false_eq_true, if_false, found, ok_bind]
      rfl

/-- What is kept of rules stays kept when others follow, of which only some are kept in addition. -/
theorem firstOfEachName_append {names rules kept : List Item}
    (h : m.firstOfEachName names rules = .ok kept) : ∃ names', ∀ others,
      m.firstOfEachName names (rules ++ others) =
        (m.firstOfEachName names' others).map (kept ++ ·) := by
  induction rules generalizing names kept with
  | nil =>
    cases h
    refine ⟨names, fun others => ?_⟩
    rw [List.nil_append]
    cases m.firstOfEachName names others <;> rfl
  | cons rule rest ih =>
    rw [firstOfEachName] at h
    obtain ⟨name, named, h⟩ := bind_eq_ok.mp h
    simp only [List.cons_append, firstOfEachName, named, ok_bind]
    split at h
    · cases h
    · next atom =>
      simp only [if_neg atom]
      split at h
      · next known =>
        simpa only [if_pos known] using ih h
      · next new =>
        obtain ⟨later, found, same⟩ := bind_eq_ok.mp h
        cases same
        obtain ⟨names', further⟩ := ih found
        refine ⟨names', fun others => ?_⟩
        rw [if_neg new, further]
        cases m.firstOfEachName names' others <;> rfl

/-- The grammar lists rules that have texts as names. -/
def ListsNames (m : Model) (g : NodeId) : Prop :=
  ∃ rules, m.rulesOf g = .ofList rules ∧ ∀ rule ∈ rules, m.HasName rule

/-- The root and all that it leads to list rules that have texts as names. -/
def NamesRules (m : Model) (root : NodeId) : Prop :=
  ∀ g, Relation.ReflTransGen m.Imports root g → m.ListsNames g

/-- Where grammars list rules that have texts as names, the collected rules are the first of each
name, grammar by grammar. -/
theorem exists_collectRules {withImports : Bool} {reached : List NodeId}
    (reaches : (if withImports then m.reachable root else .ok []) = .ok reached)
    (named : ∀ g ∈ root :: reached, m.ListsNames g) :
    ∃ kept, m.collectRules root withImports = .ok kept ∧
      m.firstOfEachName [] ((root :: reached).flatMap fun g => (m.rulesOf g).items) = .ok kept ∧
      m.KeepsFirst [] ((root :: reached).flatMap fun g => (m.rulesOf g).items) kept ∧
      ∀ rule ∈ kept, m.HasName rule := by
  have listed : Emission.ofEach m.rulesOf (root :: reached) =
      .ofList ((root :: reached).flatMap fun g => (m.rulesOf g).items) := by
    refine Emission.ofEach_eq_ofList fun g mem => ?_
    obtain ⟨rules, here, -⟩ := named g mem
    rw [here]
    rfl
  have texts : ∀ rule ∈ (root :: reached).flatMap fun g => (m.rulesOf g).items,
      m.HasName rule := by
    intro rule mem
    obtain ⟨g, inside, here⟩ := List.mem_flatMap.mp mem
    obtain ⟨rules, known, haveNames⟩ := named g inside
    rw [known] at here
    exact haveNames rule here
  obtain ⟨kept, first, keeps⟩ := firstOfEachName_of_names texts []
  refine ⟨kept, ?_, first, keeps, fun rule mem => texts rule (keeps.sublist.subset mem)⟩
  rw [collectRules_eq, reaches, ok_bind, listed]
  show m.firstOfEachName [] _ >>= pure = _
  rw [bind_pure]
  exact first

/-- **Imports only insert.** Of the rules of a grammar and of the grammars that it reaches, a
diagram with imports shows the first one of each name; the ones that it shows without imports come
first. A grammar without errors is drawn without imports as its class blocks and its relationship
lines, and with imports the blocks and the lines of the further rules stand behind them. -/
theorem imports_only_insert (graph : m.IsImportGraph root) (named : m.NamesRules root) :
    ∃ reached own rest, m.reachable root = .ok reached ∧
      m.collectRules root false = .ok own ∧ m.KeepsFirst [] (m.rulesOf root).items own ∧
      m.collectRules root true = .ok (own ++ rest) ∧
      m.KeepsFirst [] ((root :: reached).flatMap fun g => (m.rulesOf g).items) (own ++ rest) ∧
      (m.hasErrors (.node root) = .ok false → ∀ (verbose : Bool) (writer : Writer),
        ((m.compileGrammar verbose false root writer).result = do
          let blocks ← m.blocksOf own
          let lines ← m.linesOf own
          return some ("@startuml\n" ++ blocks ++ lines ++ "@enduml\n")) ∧
        ((m.compileGrammar verbose true root writer).result = do
          let blocks ← m.blocksOf own
          let moreBlocks ← m.blocksOf rest
          let lines ← m.linesOf own
          let moreLines ← m.linesOf rest
          return some ("@startuml\n" ++ blocks ++ moreBlocks ++ lines ++ moreLines ++
            "@enduml\n"))) := by
  obtain ⟨-, reached, -, reaches, walks, -⟩ := reachable_of_graph graph
  have here : ∀ g ∈ [root], m.ListsNames g :=
    fun g mem => List.mem_singleton.mp mem ▸ named root .refl
  have all : ∀ g ∈ root :: reached, m.ListsNames g := List.forall_mem_cons.mpr
    ⟨named root .refl, fun g mem => named g (walks g mem).to_reflTransGen⟩
  obtain ⟨own, collected, first, keeps, texts⟩ :=
    @exists_collectRules m root false [] rfl here
  obtain ⟨kept, collectedAll, firstAll, keepsAll, textsAll⟩ :=
    @exists_collectRules m root true reached reaches all
  rw [List.flatMap_singleton] at first keeps
  -- What is kept of the root's rules is kept of all rules.
  obtain ⟨names, further⟩ := firstOfEachName_append first
  rw [List.flatMap_cons, further] at firstAll
  obtain ⟨rest, -, rfl⟩ := map_eq_ok.mp firstAll
  refine ⟨reached, own, rest, reaches, collected, keeps, collectedAll, keepsAll,
    fun sound verbose writer => ⟨?_, ?_⟩⟩
  · exact result_compileGrammar_of_names sound collected texts verbose writer
  · rw [result_compileGrammar_of_names sound collectedAll textsAll, blocksOf_append, linesOf_append]
    simp only [bind_assoc, pure_bind, String.append_assoc, Writer.opening, Writer.closing]

/-- Two grammars that import each other. The first one has a rule whose name it gives to a second
rule as well; the other one repeats that rule and has one that the first rule assigns. -/
def repeating : Model := ⟨(assigning "b").nodes ++ [
  .ofShape (.grammar ⟨.nothing, .ofNodes [⟨3⟩, ⟨8⟩], .list [], .ofNodes [⟨7⟩], .list [], .nothing⟩)
    .nothing,
  .ofShape (.grammar ⟨.nothing, .ofNodes [⟨8⟩, ⟨5⟩], .list [], .ofNodes [⟨6⟩], .list [], .nothing⟩)
    .nothing,
  .ofShape (.terminalRule (.value (.str "A")) (.value (.str "a")) .no .no) .nothing]⟩

/-- The imported rules that are new insert their classes and their lines. -/
theorem imports_only_insert_repeating :
    let m := repeating
    let root : NodeId := ⟨6⟩
    m.IsImportGraph root ∧ m.NamesRules root ∧ m.hasErrors (.node root) = .ok false ∧
      ∃ reached own rest, m.reachable root = .ok reached ∧
        m.collectRules root false = .ok own ∧ m.KeepsFirst [] (m.rulesOf root).items own ∧
        m.collectRules root true = .ok (own ++ rest) ∧
        m.KeepsFirst [] ((root :: reached).flatMap fun g => (m.rulesOf g).items) (own ++ rest) ∧
        ∀ (verbose : Bool) (writer : Writer),
          ((m.compileGrammar verbose false root writer).result = do
            let blocks ← m.blocksOf own
            let lines ← m.linesOf own
            return some ("@startuml\n" ++ blocks ++ lines ++ "@enduml\n")) ∧
          ((m.compileGrammar verbose true root writer).result = do
            let blocks ← m.blocksOf own
            let moreBlocks ← m.blocksOf rest
            let lines ← m.linesOf own
            let moreLines ← m.linesOf rest
            return some ("@startuml\n" ++ blocks ++ moreBlocks ++ lines ++ moreLines ++
              "@enduml\n")) := by
  have closed : ∀ g ∈ [(⟨6⟩ : NodeId), ⟨7⟩], ∃ imports ∈ repeating.importedNodes? g,
      ∀ i ∈ imports, i ∈ [(⟨6⟩ : NodeId), ⟨7⟩] := by decide
  have graph : repeating.IsImportGraph ⟨6⟩ := isImportGraph_of_closed (by decide) closed
  have named : repeating.NamesRules ⟨6⟩ := by
    intro g walk
    have inside := mem_of_closed (by decide) closed g walk
    rcases List.mem_pair.mp inside with rfl | rfl
    · exact ⟨[.node ⟨3⟩, .node ⟨8⟩], rfl, by simpa using ⟨⟨"A", rfl⟩, ⟨"A", rfl⟩⟩⟩
    · exact ⟨[.node ⟨8⟩, .node ⟨5⟩], rfl, by simpa using ⟨⟨"A", rfl⟩, ⟨"B", rfl⟩⟩⟩
  have sound : repeating.hasErrors (.node ⟨6⟩) = .ok false := rfl
  obtain ⟨reached, own, rest, reaches, collected, keeps, collectedAll, keepsAll, drawn⟩ :=
    imports_only_insert graph named
  exact ⟨graph, named, sound, reached, own, rest, reaches, collected, keeps, collectedAll, keepsAll,
    drawn sound⟩

end Model
end GrammarChart
