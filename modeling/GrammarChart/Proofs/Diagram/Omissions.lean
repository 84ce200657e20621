import GrammarChart.Proofs.Diagram.Collected
import GrammarChart.Proofs.Diagram.Pruning
import GrammarChart.Proofs.Document.Typed

/-!
# Omitted lines

What a displayed grammar compiles to, with notes or without. Whatever its words are, only values of
the wrong shape stop the compilation (`Model.Displays.ends_compileGrammar`). Where its names are
texts, only one thing does, and that is an element that is asked for its name. Otherwise the diagram
is that of the pruned rules: what a dead reference leads to changes nothing but that the lines that
need it are left out (`Model.Displays.exists_diagram`).
-/

set_option autoImplicit false

namespace GrammarChart

/-- A line between texts is written. -/
theorem Line.Joins.exists_text {line : Line} {shows : String → Prop}
    (h : line.Joins Json.IsText shows) :
    ∃ text, line.text = .ok text := by
  obtain ⟨source, bounds, arrow, feature, target, isCall⟩ := line
  obtain ⟨⟨_, rfl⟩, -, ⟨_, rfl⟩⟩ := h
  cases bounds with
  | none => cases feature <;> exact ⟨_, rfl⟩
  | some bounds =>
    obtain ⟨optional, many⟩ := bounds
    cases feature <;> cases optional <;> cases many <;> exact ⟨_, rfl⟩

/-- Pruning leaves the names that an element joins good. -/
theorem Phrase.joins_prune {ρ : Type} {face : ρ → Face} {good : Json → Prop}
    {shows : String → Prop} {dead : ρ → Bool} {b : Phrase Json ρ} (h : b.Joins face good shows) :
    (b.prune dead).Joins face good shows := by
  cases b with
  | ruleCall | crossReference =>
    rw [prune]
    split
    · trivial
    · exact h
  | action type inferredType feature operator mark =>
    rw [prune]
    split
    · trivial
    · exact ⟨fun t mem => h.1 t (Option.filter_eq_some_iff.mp mem).1, h.2⟩
  | _ => exact h

namespace Sketch

/-- The name of the rule is a text, and so are the names that its lines join. -/
structure IsTyped (s : Sketch) : Prop where
  name : s.rule.name.IsText
  elements : ∀ body ∈ s.rule.body?, ∀ b ∈ body.elements, b.Joins s.face Json.IsText fun _ => True

variable {sketches : List Sketch}

/-- A pruned rule is typed when the rule is. -/
theorem IsTyped.pruned {s : Sketch} (h : s.IsTyped) : s.pruned.IsTyped := by
  refine ⟨(Production.name_prune _ s.rule).symm ▸ h.name, fun body hasBody b mem => ?_⟩
  rw [Sketch.pruned, Production.body?_prune] at hasBody
  obtain ⟨original, isBody, rfl⟩ := Option.map_eq_some_iff.mp hasBody
  obtain ⟨inner, inside, rfl⟩ := Phrase.exists_of_mem_elements_prune original mem
  exact Phrase.joins_prune (h.elements original isBody inner inside)

/-- What typed rules are put together from faults when some rule asks an element for its name. -/
theorem fault_texts (typed : ∀ s ∈ sketches, s.IsTyped) :
    (texts sketches).fault = if sketches.any asks then some .noField else none := by
  have written : ∀ line ∈ (Emission.ofEach lines sketches).items, line.write.fault = none := by
    intro line mem
    obtain ⟨s, inside, drawn⟩ := Emission.mem_ofEach_items mem
    obtain ⟨text, isText⟩ := (joins_of_lines (typed s inside).name (typed s inside).elements
      drawn).exists_text
    rw [Line.write, isText]
    rfl
  rw [texts, Emission.fault_append, Emission.fault_flatMap written,
    Emission.fault_ofEach fun s _ => s.fault_lines]
  rfl

/-- Typed rules that are pruned have a diagram. The rules themselves have the same one, unless some
rule asks an element for its name. -/
theorem exists_diagram_pruned (typed : ∀ s ∈ sketches, s.IsTyped) :
    ∃ text, diagram (sketches.map pruned) = .ok text ∧
      diagram sketches = if sketches.any asks then .error .noField else .ok text := by
  have quiet : (texts (sketches.map pruned)).fault = none := by
    have typed' : ∀ s ∈ sketches.map pruned, s.IsTyped := by
      intro s mem
      obtain ⟨original, inside, rfl⟩ := List.mem_map.mp mem
      exact (typed original inside).pruned
    rw [fault_texts typed', if_neg]
    intro loud
    obtain ⟨s, mem, loud⟩ := List.any_eq_true.mp loud
    obtain ⟨original, -, rfl⟩ := List.mem_map.mp mem
    rw [asks_pruned] at loud
    cases loud
  refine ⟨_, by rw [diagram, quiet], ?_⟩
  have faults := fault_texts typed
  cases asked : sketches.any asks with
  | true =>
    rw [asked] at faults
    rw [diagram, faults]
    rfl
  | false =>
    have none' : ∀ s ∈ sketches, s.asks = false := fun s mem =>
      Bool.eq_false_iff.mpr fun loud => Bool.eq_false_iff.mp asked
        (List.any_eq_true.mpr ⟨s, mem, loud⟩)
    rw [texts_pruned none'] at quiet ⊢
    rw [diagram, quiet]
    rfl

/-- Rules whose names are texts are told apart by them. -/
theorem exists_firstOfEachName (names : List Json) (named : ∀ s ∈ sketches, s.rule.name.IsText) :
    ∃ kept, firstOfEachName names sketches = .ok kept := by
  induction sketches generalizing names with
  | nil => exact ⟨[], rfl⟩
  | cons s rest ih =>
    rw [List.forall_mem_cons] at named
    obtain ⟨text, isText⟩ := named.1
    have later := fun names => ih names named.2
    have atom : s.rule.name.isAtom = true := by rw [isText]; rfl
    rw [firstOfEachName, atom]
    by_cases known : names.any s.rule.name.sameAtom = true
    · rw [if_pos known]
      exact later names
    · obtain ⟨kept, found⟩ := later (s.rule.name :: names)
      rw [if_neg known, found]
      exact ⟨_, rfl⟩

end Sketch

/-- The rules of a typed view are typed. -/
theorem View.IsTyped.sketches {refers : String → Prop} {view : View} (h : view.IsTyped refers) :
    ∀ s ∈ view.sketches, s.IsTyped := by
  intro s mem
  obtain ⟨rule, inside, rfl⟩ := List.mem_map.mp mem
  have typed := h.document.rules rule inside
  refine ⟨typed.name, fun body hasBody b below => ?_⟩
  have element : b ∈ rule.production.elements :=
    List.mem_flatMap.mpr ⟨body, Option.mem_toList.mpr hasBody, below⟩
  have makes := typed.made b element
  cases b with
  | ruleCall call mark => exact h.faces call
  | crossReference type terminal mark => exact h.faces type
  | assignment => exact fun _ _ => trivial
  | action type inferredType feature operator mark =>
    refine ⟨fun t _ => h.faces t, fun name mem => ?_, fun _ _ => trivial⟩
    obtain ⟨given, present⟩ := Option.filter_eq_some_iff.mp mem
    exact makes name given present
  | _ => trivial

namespace Model

variable {m : Model}

section Rules

variable {sketches : List Sketch} {ids : List NodeId}

/-- Rules that stand and whose names are texts compile to the diagram of their sketches, with notes
or without. -/
theorem result_of_named (plain : m.IsPlain)
    (stand : List.Forall₂ (fun sketch id => sketch.StandsAt m id) sketches ids)
    (named : ∀ s ∈ sketches, s.rule.name.IsText) (verbose : Bool) (writer : Writer) :
    (m.compileRules verbose (ids.map .node) writer).result = Sketch.diagram sketches := by
  have names : ∀ item ∈ ids.map Item.node, m.HasName item := by
    refine hasName_of_forall₂ (fun s mem id here => ?_) stand
    obtain ⟨text, isText⟩ := named s mem
    exact ⟨text, isText ▸ nameOf_of_seen here.stands⟩
  rw [← result_of_sketches plain stand writer, result_compileRules_eq_joined,
    result_compileRules_eq_joined, fragments_compilationOutputs names, fragments_quiet]

end Rules

namespace Displays

variable {grammars : List NodeId} {views : NodeId → View} {id : NodeId}

/-- A displayed grammar has a name that can be noted. -/
theorem exists_errorsNote (h : m.Displays grammars views) (own : id ∈ grammars) :
    ∃ note, m.errorsNote id = .ok note := by
  obtain ⟨name, path, rules, interfaces, types, diagnostics, found, -⟩ := h.shown id own
  have named : m.nameOf (.node id) = .ok name :=
    partOf_of_shape (grammar?_eq_some.mp found) rfl (by decide) (by decide)
  exact ⟨_, by rw [errorsNote, named]; rfl⟩

/-- The rules of a displayed grammar and of those that it reaches are found. -/
theorem exists_found (h : m.Displays grammars views) (own : id ∈ grammars) (withImports : Bool) :
    ∃ reached, (if withImports then m.reachable id else .ok []) = .ok reached ∧
      ∀ g ∈ id :: reached, g ∈ grammars := by
  cases withImports with
  | true => exact h.exists_reachable own
  | false => exact ⟨[], rfl, List.forall_mem_singleton.mpr own⟩

/-- A displayed grammar with texts for names compiles to the diagram of the pruned rules, unless
some line asks an element for its name, or to nothing if it has errors. -/
theorem exists_diagram {refers : String → Prop} (h : m.Displays grammars views)
    (typed : ∀ g ∈ grammars, (views g).IsTyped refers) (own : id ∈ grammars) (withImports : Bool) :
    ∃ errors rules sketches text, m.hasErrors (.node id) = .ok errors ∧
      m.collectRules id withImports = .ok rules ∧ Sketch.AllStandAt sketches m rules ∧
      Sketch.diagram (sketches.map Sketch.pruned) = .ok text ∧
      ∀ (verbose : Bool) (writer : Writer), (m.compileGrammar verbose withImports id writer).result =
        if errors then .ok none
        else if sketches.any Sketch.asks then .error .noField else .ok (some text) := by
  obtain ⟨reached, found, inside⟩ := h.exists_found own withImports
  have collected := h.agree_collectRules found inside
  have all : ∀ s ∈ (id :: reached).flatMap fun g => (views g).sketches, s.IsTyped := by
    intro s mem
    obtain ⟨g, reaches, here⟩ := List.mem_flatMap.mp mem
    exact (typed g (inside g reaches)).sketches s here
  obtain ⟨kept, isKept⟩ := Sketch.exists_firstOfEachName [] fun s mem => (all s mem).name
  have fit : ∀ s ∈ kept, s.IsTyped := fun s mem =>
    all s ((Sketch.sublist_of_firstOfEachName isKept).subset mem)
  obtain ⟨text, pruned, drawn⟩ := Sketch.exists_diagram_pruned fit
  rw [isKept] at collected
  cases listed : m.collectRules id withImports with
  | error fault =>
    rw [listed] at collected
    cases collected
  | ok rules =>
    rw [listed] at collected
    cases collected with
    | ok related =>
      refine ⟨_, rules, kept, text, (h.shown id own).hasErrors, rfl, related, pruned,
        fun verbose writer => ?_⟩
      obtain ⟨ids, rfl, stand⟩ := related
      rw [compileGrammar, (h.shown id own).hasErrors, listed]
      cases (views id).document.hasErrors with
      | true =>
        obtain ⟨note, noted⟩ := h.exists_errorsNote own
        cases verbose with
        | false => rfl
        | true =>
          rw [noted]
          rfl
      | false =>
        have compiled := result_of_named h.plain stand (fun s mem => (fit s mem).name) verbose writer
        rw [drawn] at compiled
        dsimp only
        rw [compiled]
        cases kept.any Sketch.asks <;> rfl

end Displays
end Model
end GrammarChart
