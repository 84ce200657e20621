import GrammarChart.Proofs.Agreement
import GrammarChart.Proofs.Diagram.Sketches
import GrammarChart.Proofs.Document.Shown
import GrammarChart.Proofs.Model.Reach

/-!
# Collected sketches

What a displayed grammar compiles to is put together from its view and the views of the grammars
that it reaches: of the sketches of their rules, the first one of each name is drawn
(`Model.Displays.result_compileGrammar`).
-/

set_option autoImplicit false

namespace GrammarChart

/-- Nothing but the text itself is the same atom as a text. -/
theorem Json.eq_of_str_sameAtom {text : String} {value : Json}
    (same : (Json.str text).sameAtom value) : value = .str text := by
  cases value with
  | str other => rw [eq_of_beq same]
  | _ => cases same

namespace Sketch

/-- Keeps the sketches whose rule has a name that did not come before, neither among the given names
nor earlier in the list. A name that cannot be a member of a set stops the search. -/
def firstOfEachName (names : List Json) : List Sketch → Except Fault (List Sketch)
  | [] => .ok []
  | sketch :: rest =>
    if !sketch.rule.name.isAtom then .error .wrongType
    else if names.any sketch.rule.name.sameAtom then firstOfEachName names rest
    else (firstOfEachName (sketch.rule.name :: names) rest).map (sketch :: ·)

/-- The rules of the sketches stand at the nodes, which are the given items. -/
def AllStandAt (sketches : List Sketch) (m : Model) (items : List Item) : Prop :=
  ∃ ids : List NodeId, items = ids.map .node ∧
    List.Forall₂ (fun sketch id => StandsAt sketch m id) sketches ids

variable {m : Model} {sketches kept : List Sketch} {names : List Json}

/-- The model keeps the rules whose sketches are kept. -/
theorem agree_firstOfEachName {ids : List NodeId}
    (stand : List.Forall₂ (fun sketch id => StandsAt sketch m id) sketches ids) :
    Agree (fun kept items => AllStandAt kept m items) (firstOfEachName names sketches)
      (m.firstOfEachName (names.map .value) (ids.map .node)) := by
  induction stand generalizing names with
  | nil => exact .ok ⟨[], rfl, .nil⟩
  | @cons sketch id sketches ids here _ ih =>
    have atom : m.isAtom (.value sketch.rule.name) = sketch.rule.name.isAtom := rfl
    have known : (names.map Item.value).any (Item.sameAtom (.value sketch.rule.name)) =
        names.any sketch.rule.name.sameAtom := by
      rw [List.any_map]
      rfl
    rw [List.map_cons, firstOfEachName, Model.firstOfEachName, Model.nameOf_of_seen here.stands,
      ok_bind, atom, known]
    split
    · exact .fault .wrongType
    · split
      · exact ih
      · refine ih.map ?_
        rintro kept items ⟨ids', rfl, stand'⟩
        exact ⟨id :: ids', rfl, .cons here stand'⟩

/-- The sketches that are kept are some of them. -/
theorem sublist_of_firstOfEachName (h : firstOfEachName names sketches = .ok kept) :
    kept.Sublist sketches := by
  induction sketches generalizing names kept with
  | nil =>
    cases h
    exact .slnil
  | cons sketch rest ih =>
    rw [firstOfEachName] at h
    split at h
    · cases h
    · split at h
      · exact (ih h).cons sketch
      · obtain ⟨others, found, rfl⟩ := map_eq_ok.mp h
        exact (ih found).cons_cons sketch

/-- A text that names some rule still names one when of each name the first rule is kept. -/
theorem exists_kept (h : firstOfEachName names sketches = .ok kept) {sketch : Sketch}
    (mem : sketch ∈ sketches) {text : String} (named : sketch.rule.name = .str text) :
    .str text ∈ names ∨ ∃ first ∈ kept, first.rule.name = .str text := by
  induction sketches generalizing names kept with
  | nil => exact absurd mem List.not_mem_nil
  | cons other rest ih =>
    rw [firstOfEachName] at h
    split at h
    · cases h
    · split at h
      · next known =>
        rcases List.mem_cons.mp mem with rfl | later
        · obtain ⟨name, inside, same⟩ := List.any_eq_true.mp known
          rw [named] at same
          exact .inl (Json.eq_of_str_sameAtom same ▸ inside)
        · exact ih h later
      · obtain ⟨others, found, rfl⟩ := map_eq_ok.mp h
        rcases List.mem_cons.mp mem with rfl | later
        · exact .inr ⟨sketch, List.mem_cons_self, named⟩
        · rcases ih found later with known | ⟨first, inside, isNamed⟩
          · rcases List.mem_cons.mp known with same | before
            · exact .inr ⟨other, List.mem_cons_self, same.symm⟩
            · exact .inl before
          · exact .inr ⟨first, List.mem_cons_of_mem other inside, isNamed⟩

end Sketch

/-- A message of a document is an error. -/
def Diagnostic.isError (diagnostic : Diagnostic) : Bool :=
  (Item.value diagnostic.severity).isErrorSeverity

/-- Some message of a document is an error. -/
def Document.hasErrors (document : Document) : Bool :=
  document.diagnostics.any Diagnostic.isError

/-- Some diagnostic is an error when its message is. -/
theorem Model.anyError_of_standing {m : Model} {I : Interpretation Json Reference}
    {diagnostics : List Diagnostic} {ids : List NodeId}
    (stand : List.Forall₂ (fun d => Planting.Standing.diagnostic d I m) diagnostics ids) :
    m.anyError (ids.map .node) = .ok (diagnostics.any Diagnostic.isError) := by
  induction stand with
  | nil => rfl
  | @cons diagnostic id _ _ here _ ih =>
    have shape : m.shape? id = some (.diagnostic (.value diagnostic.severity) _) := here
    rw [List.map_cons, anyError, errorOf, shapeIn?_node, shape, ih, List.any_cons]
    show (if diagnostic.isError = true then _ else _) = _
    cases diagnostic.isError <;> rfl

/-- The sketches of the rules of a view. -/
def View.sketches (view : View) : List Sketch :=
  view.document.rules.map fun rule => ⟨view.face, rule.production⟩

namespace View.IsAt

variable {view : View} {m : Model} {id : NodeId}

/-- What a shown grammar imports. -/
theorem importsOf (h : view.IsAt m id) : m.importsOf id = .ok (view.imports.map .node) := by
  obtain ⟨name, path, rules, interfaces, types, diagnostics, found, -⟩ := h
  rw [Model.importsOf, Model.itemsOf,
    Model.partOf_of_shape (Model.grammar?_eq_some.mp found) rfl (by decide) (by decide)]
  exact Item.items_ofNodes _

/-- The rules of a shown grammar stand as its sketches. -/
theorem rulesOf (h : view.IsAt m id) (nested : m.Nested) : ∃ rules : List NodeId,
    m.rulesOf id = .ofList (rules.map .node) ∧
      List.Forall₂ (fun sketch rule => Sketch.StandsAt sketch m rule) view.sketches rules := by
  obtain ⟨name, path, rules, interfaces, types, diagnostics, found, stand, -⟩ := h
  refine ⟨rules, ?_, ?_⟩
  · rw [Model.rulesOf, Model.itemsOf,
      Model.partOf_of_shape (Model.grammar?_eq_some.mp found) rfl (by decide) (by decide), ok_bind]
    simp
  · rw [View.sketches, List.forall₂_map_left_iff]
    exact stand.imp fun rule r stands => ⟨stands, nested.below r, rule.isKnown_production⟩

/-- A shown grammar has errors when its document has. -/
theorem hasErrors (h : view.IsAt m id) :
    m.hasErrors (.node id) = .ok view.document.hasErrors := by
  obtain ⟨name, path, rules, interfaces, types, diagnostics, found, -, -, -, stand⟩ := h
  rw [Model.hasErrors, Model.errorsOf, Model.shapeIn?_node, Model.grammar?_eq_some.mp found]
  simp only [Item.items_ofNodes, ok_bind, Model.anyError_of_standing stand]
  rfl

end View.IsAt

namespace Model

variable {m : Model}

/-- A grammar without errors has its collected rules compiled. -/
theorem compileGrammar_of_collectRules {withImports : Bool} {id : NodeId} {rules : List Item}
    (sound : m.hasErrors (.node id) = .ok false)
    (collected : m.collectRules id withImports = .ok rules) (verbose : Bool) (writer : Writer) :
    m.compileGrammar verbose withImports id writer =
      let compiled := m.compileRules verbose rules writer
      ⟨compiled.writer, compiled.notes, compiled.result.map some⟩ := by
  rw [compileGrammar, sound]
  dsimp only
  rw [collected]

section Drawn

variable {verbose withImports : Bool} {id : NodeId} {writer : Writer} {text : String}

/-- A grammar has a diagram when it has no errors and its collected rules have that diagram. -/
theorem result_compileGrammar_eq_some :
    (m.compileGrammar verbose withImports id writer).result = .ok (some text) ↔
      m.hasErrors (.node id) = .ok false ∧ ∃ rules, m.collectRules id withImports = .ok rules ∧
        (m.compileRules verbose rules writer).result = .ok text := by
  constructor
  · intro h
    unfold compileGrammar at h
    split at h
    · cases h
    · split at h
      · split at h <;> cases h
      · cases h
    · next sound =>
      split at h
      · cases h
      · next rules collected =>
        obtain ⟨whole, compiled, ⟨⟩⟩ := map_eq_ok.mp h
        exact ⟨sound, rules, collected, compiled⟩
  · rintro ⟨sound, rules, collected, compiled⟩
    rw [compileGrammar_of_collectRules sound collected]
    exact map_eq_ok.mpr ⟨text, compiled, rfl⟩

/-- What is compiled with notes is compiled without them. -/
theorem result_compileGrammar_quiet
    (h : (m.compileGrammar verbose withImports id writer).result = .ok (some text)) :
    (m.compileGrammar false withImports id writer).result = .ok (some text) := by
  obtain ⟨sound, rules, collected, compiled⟩ := result_compileGrammar_eq_some.mp h
  exact result_compileGrammar_eq_some.mpr
    ⟨sound, rules, collected, result_compileRules_quiet compiled⟩

/-- A grammar that is compiled has its collected rules compiled. -/
theorem exists_of_compileGrammar
    (h : (m.compileGrammar verbose withImports id writer).result = .ok (some text)) :
    ∃ rules, m.collectRules id withImports = .ok rules ∧
      (m.compileRules verbose rules writer).result = .ok text :=
  (result_compileGrammar_eq_some.mp h).2

end Drawn

namespace Displays

variable {grammars : List NodeId} {views : NodeId → View}

/-- What grammars import is among them. -/
theorem closed (h : m.Displays grammars views) : ∀ g ∈ grammars, ∃ imports : List NodeId,
    m.importsOf g = .ok (imports.map .node) ∧ ∀ i ∈ imports, i ∈ grammars :=
  fun g mem => ⟨_, (h.shown g mem).importsOf, h.known g mem⟩

/-- What is reached from a displayed grammar is found without a fault, and displayed. -/
theorem exists_reachable (h : m.Displays grammars views) {id : NodeId} (own : id ∈ grammars) :
    ∃ reached, m.reachable id = .ok reached ∧ ∀ g ∈ id :: reached, g ∈ grammars := by
  have inside : ∀ item ∈ (views id).imports.map Item.node, ∃ g ∈ grammars, item = .node g := by
    intro item mem
    obtain ⟨i, direct, rfl⟩ := List.mem_map.mp mem
    exact ⟨i, h.known id own i direct, rfl⟩
  obtain ⟨reached, searched, known⟩ := @exists_reachFrom _ _ h.closed [id] _ inside
  refine ⟨reached, ?_, ?_⟩
  · rw [reachable, (h.shown id own).importsOf, ok_bind, searched]
  · exact List.forall_mem_cons.mpr ⟨own, known⟩

/-- The rules of displayed grammars stand as the sketches of their views. -/
theorem ofEach_rulesOf (h : m.Displays grammars views) {gs : List NodeId}
    (inside : ∀ g ∈ gs, g ∈ grammars) : ∃ ids : List NodeId,
      Emission.ofEach m.rulesOf gs = .ofList (ids.map .node) ∧
        List.Forall₂ (fun sketch id => Sketch.StandsAt sketch m id)
          (gs.flatMap fun g => (views g).sketches) ids := by
  induction gs with
  | nil => exact ⟨[], rfl, .nil⟩
  | cons g rest ih =>
    rw [List.forall_mem_cons] at inside
    obtain ⟨ids, others, stand'⟩ := ih inside.2
    obtain ⟨rules, listed, stand⟩ := (h.shown g inside.1).rulesOf h.nested
    refine ⟨rules ++ ids, ?_, List.rel_append stand stand'⟩
    rw [Emission.ofEach, listed, others]
    simp

/-- The rules that are collected are those whose sketches are the first of their names. -/
theorem agree_collectRules (h : m.Displays grammars views) {id : NodeId} {withImports : Bool}
    {reached : List NodeId} (found : (if withImports then m.reachable id else .ok []) = .ok reached)
    (inside : ∀ g ∈ id :: reached, g ∈ grammars) :
    Agree (fun kept items => Sketch.AllStandAt kept m items)
      (Sketch.firstOfEachName [] ((id :: reached).flatMap fun g => (views g).sketches))
      (m.collectRules id withImports) := by
  obtain ⟨ids, listed, stand⟩ := h.ofEach_rulesOf inside
  rw [collectRules_eq, found, ok_bind, listed]
  have kept : Agree (fun kept items => Sketch.AllStandAt kept m items)
      (Sketch.firstOfEachName [] ((id :: reached).flatMap fun g => (views g).sketches))
      (m.firstOfEachName [] (ids.map .node)) :=
    @Sketch.agree_firstOfEachName m _ [] ids stand
  show Agree _ _ (m.firstOfEachName [] (ids.map .node) >>= pure)
  rwa [bind_pure]

/-- A grammar with errors has no diagram; any other one has that of the sketches that are kept of
all that it reaches. -/
theorem result_compileGrammar (h : m.Displays grammars views) {id : NodeId} {withImports : Bool}
    {reached : List NodeId} (found : (if withImports then m.reachable id else .ok []) = .ok reached)
    (inside : ∀ g ∈ id :: reached, g ∈ grammars) (writer : Writer) :
    (m.compileGrammar false withImports id writer).result =
      if (views id).document.hasErrors then .ok none
      else (Sketch.firstOfEachName [] ((id :: reached).flatMap fun g => (views g).sketches) >>=
        Sketch.diagram).map some := by
  have asked := (h.shown id (inside id List.mem_cons_self)).hasErrors
  have collected := h.agree_collectRules found inside
  rw [compileGrammar, asked]
  cases (views id).document.hasErrors with
  | true => rfl
  | false =>
    generalize Sketch.firstOfEachName [] _ = sketched at collected ⊢
    generalize m.collectRules id withImports = rules at collected ⊢
    cases collected with
    | fault fault => rfl
    | ok related =>
      obtain ⟨ids, rfl, stand⟩ := related
      simp only [result_of_sketches h.plain stand]
      rfl

end Displays
end Model
end GrammarChart
