import GrammarChart.Proofs.Diagram.Safety
import GrammarChart.Proofs.Document.Binding

/-!
# Loaded models

The models that loading makes, as a history (`Model.IsLoaded`): documents are linked to grammars
that were loaded before, a file gets a grammar that stands in for it while it is loaded, and the
grammar of a file is renamed. In all of them the grammars are sound (`isSound_of_isLoaded`), so
compiling a loaded grammar is no violation.
-/

set_option autoImplicit false

namespace GrammarChart

mutual

/-- A visit of an element of a document meets no element of unknown kind. -/
theorem Element.isSome_handler?_phrase : ∀ (e : Element) (outer : List (Phrase Json Reference)),
    ∀ met ∈ e.phrase.reached outer, met.2.handler?.isSome
  | .keyword _ _, outer | .ruleCall _ _, outer | .action _ _ _ _ _, outer => by
    simp [Element.phrase, Phrase.reached, Phrase.handler?]
  | .crossReference _ none _, outer | .crossReference _ (some _) _, outer => by
    simp [Element.phrase, Phrase.reached, Phrase.handler?]
  | .assignment _ _ _ _, outer => by simp [Element.phrase, Phrase.reached, Phrase.handler?]
  | .alternatives elements mark, outer => by
    rw [Element.phrase, Phrase.reached]
    rintro met mem
    rcases List.mem_cons.mp mem with rfl | below
    · rfl
    · exact Element.isSome_handler?_phrases elements _ met below
  | .group elements mark, outer => by
    rw [Element.phrase, Phrase.reached]
    rintro met mem
    rcases List.mem_cons.mp mem with rfl | below
    · rfl
    · exact Element.isSome_handler?_phrases elements _ met below

/-- Visits of elements of a document meet no element of unknown kind. -/
theorem Element.isSome_handler?_phrases :
    ∀ (es : List Element) (outer : List (Phrase Json Reference)),
    ∀ met ∈ Phrase.reachedAll outer (Element.phrases es), met.2.handler?.isSome
  | [], outer => by simp [Element.phrases, Phrase.reachedAll]
  | e :: rest, outer => by
    rw [Element.phrases, Phrase.reachedAll]
    intro met mem
    rcases List.mem_append.mp mem with here | later
    · exact Element.isSome_handler?_phrase e outer met here
    · exact Element.isSome_handler?_phrases rest outer met later

end

/-- The rules of a document are known. -/
theorem Rule.isKnown_production (rule : Rule) : rule.production.isKnown := by
  cases rule with
  | terminal name regex hidden fragment => rfl
  | parser name definition inferredType entry fragment =>
    cases definition with
    | none => rfl
    | some definition =>
      exact List.all_eq_true.mpr (definition.isSome_handler?_phrase [])

/-- Values stand as they are, and anything stands for a reference. -/
def Interpretation.values : Interpretation Json Reference := ⟨id, fun _ _ _ => True⟩

/-- Whatever the references of a document lead to, its values stand. -/
theorem Interpretation.carries_values {I : Interpretation Json Reference} (word : I.word = id)
    {m m' : Model} (extension : m.Extends m') : I.Carries m .values m' where
  word := word.symm
  extension := extension
  leads := fun _ _ _ => trivial

/-- The grammar that stands for a file while it is loaded. -/
def Grammar.standIn (name path : Item) : Grammar :=
  ⟨name, .ofNodes [], .ofNodes [], .ofNodes [], .ofNodes [], path⟩

namespace Model

variable {m m' : Model} {grammars : List NodeId}

/-- The models that loading makes, with the grammars in them. -/
inductive IsLoaded : Model → List NodeId → Prop where
  | empty : IsLoaded empty []
  | link {m m' : Model} {grammars : List NodeId} {document : Document} {fields : Fields}
      {imported : Imported} {id : NodeId} (before : IsLoaded m grammars)
      (imports : ∀ g ∈ imported.map Prod.snd, g ∈ grammars)
      (linked : document.link fields imported m = .ok (m', id)) : IsLoaded m' (id :: grammars)
  | standIn {m : Model} {grammars : List NodeId} (before : IsLoaded m grammars)
      (name path : Item) : IsLoaded (m.add (.ofShape (.grammar (.standIn name path)) .nothing)).1
        (⟨m.nodes.length⟩ :: grammars)
  | rename {m : Model} {grammars : List NodeId} (before : IsLoaded m grammars) (id : NodeId)
      (name path : Grammar → Item) : IsLoaded
        (m.updateGrammar id fun g => { g with name := name g, path := path g }) grammars

/-- A node has the parts that it had when it is what it was. -/
theorem partOf_congr {id : NodeId} (same : m'.node? id = m.node? id) (name : String) :
    m'.partOf (.node id) name = m.partOf (.node id) name := by
  simp [partOf, Item.node?, same]

/-- What can be gone through is part of a node. -/
theorem exists_node?_of_itemsOf {id : NodeId} {name : String} {items : List Item}
    (h : m.itemsOf (.node id) name = .ok items) : ∃ node, m.node? id = some node := by
  cases found : m.node? id with
  | some node => exact ⟨node, rfl⟩
  | none =>
    simp [itemsOf, partOf, Item.node?, found] at h

/-- Renaming a grammar leaves rules and imports alone. -/
theorem partOf_rename (m : Model) (id g : NodeId) (name path : Grammar → Item) {field : String}
    (isField : field ∈ ["rules", "imports"]) :
    (m.updateGrammar id fun g => { g with name := name g, path := path g }).partOf
      (.node g) field = m.partOf (.node g) field := by
  have found :
      ((m.updateGrammar id fun g => { g with name := name g, path := path g }).node? g).bind
        (·.part? field) = (m.node? g).bind (·.part? field) := by
    rw [updateGrammar, node?_update]
    split
    · cases m.node? g with
      | none => rfl
      | some node =>
        rw [Option.map_some, Option.bind_some, Option.bind_some]
        cases hs : node.shape with
        | grammar grammar =>
          simp only [List.mem_cons, List.not_mem_nil, or_false] at isField
          rcases isField with rfl | rfl <;> simp [Node.part?, hs, Shape.parts, List.lookup]
        | _ => rfl
    · rfl
  unfold partOf
  rw [Item.node?, Option.bind_some, found]
  rfl

/-- Sound grammars stay sound in a model that still has what they are made of. -/
theorem IsSound.grow (sound : m.IsSound .values grammars) (nested : m'.Nested)
    (extension : m.Extends m') (parts : ∀ g ∈ grammars, ∀ name ∈ ["rules", "imports"],
      m'.itemsOf (.node g) name = m.itemsOf (.node g) name) : m'.IsSound .values grammars where
  nested := nested
  grammar := by
    intro g mem
    obtain ⟨rules, imports, listed, imported, bear, known⟩ := sound.grammar g mem
    refine ⟨rules, imports, ?_, ?_, ?_, known⟩
    · rw [parts g mem "rules" (by simp), listed]
    · exact (parts g mem "imports" (by simp)).trans imported
    · intro r inside
      obtain ⟨-, production, isKnown, stands⟩ := bear r inside
      have carries : Interpretation.values.Carries m .values m' :=
        Interpretation.carries_values rfl extension
      exact ⟨nested.below r, production, isKnown, Production.standsAt_of_carries carries stands⟩

/-- Sound grammars stay sound in a model that has the same nodes for them. -/
theorem IsSound.grow_of_node? (sound : m.IsSound .values grammars) (nested : m'.Nested)
    (extension : m.Extends m') (same : ∀ g node, m.node? g = some node → m'.node? g = some node) :
    m'.IsSound .values grammars := by
  refine sound.grow nested extension fun g mem name _ => ?_
  obtain ⟨rules, imports, listed, -⟩ := sound.grammar g mem
  obtain ⟨node, found⟩ := exists_node?_of_itemsOf listed
  rw [itemsOf, partOf_congr ((same g node found).trans found.symm)]
  rfl

/-- A further grammar is sound when its rules and its imports are. -/
theorem IsSound.cons (sound : m.IsSound .values grammars) {g : NodeId} {grammar : Grammar}
    {rules imports : List NodeId} (found : m.grammar? g = some grammar)
    (listed : grammar.rules = .ofNodes rules) (imported : grammar.imports = .ofNodes imports)
    (bear : ∀ r ∈ rules, m.BearsRule Interpretation.values r)
    (known : ∀ i ∈ imports, i ∈ grammars) : m.IsSound .values (g :: grammars) where
  nested := sound.nested
  grammar := by
    intro g' mem
    rcases List.mem_cons.mp mem with rfl | old
    · have shape := grammar?_eq_some.mp found
      have rulesPart : m.partOf (.node g') "rules" = .ok grammar.rules :=
        partOf_of_shape shape rfl (by decide) (by decide)
      have importsPart : m.partOf (.node g') "imports" = .ok grammar.imports :=
        partOf_of_shape shape rfl (by decide) (by decide)
      refine ⟨rules, imports, ?_, ?_, bear, fun i direct => List.mem_cons_of_mem _ (known i direct)⟩
      · rw [itemsOf, rulesPart, ok_bind, listed, Item.items_ofNodes]
      · rw [importsOf, itemsOf, importsPart, ok_bind, imported, Item.items_ofNodes]
    · obtain ⟨rules, imports, listed, imported, bear, known⟩ := sound.grammar g' old
      exact ⟨rules, imports, listed, imported, bear,
        fun i direct => List.mem_cons_of_mem _ (known i direct)⟩

/-- The grammars of a loaded model are sound. -/
theorem isSound_of_isLoaded (h : m.IsLoaded grammars) : m.IsSound .values grammars := by
  induction h with
  | empty => exact ⟨nested_empty, fun g mem => absurd mem List.not_mem_nil⟩
  | @link m m' grammars document fields imported id before imports linked sound =>
    have isLinked := Document.isLinked_of_link linked
    have kept := sound.grow_of_node? (isLinked.nested sound.nested)
      (extends_of_isPrefix isLinked.nodes) fun g node found =>
        node?_of_isPrefix isLinked.nodes found
    obtain ⟨rules, interfaces, types, diagnostics, found, stand, -⟩ := isLinked.stands
    refine kept.cons found rfl rfl ?_ imports
    intro r mem
    obtain ⟨i, bound, rfl⟩ := List.mem_iff_getElem.mp mem
    have stands := stand.get (stand.length_eq ▸ bound) bound
    exact ⟨Nested.below (isLinked.nested sound.nested) _, _, Rule.isKnown_production _,
      Production.standsAt_of_carries (Interpretation.carries_values rfl (.refl m')) stands⟩
  | @standIn m grammars before name path sound =>
    have childless : ∀ child ∈
        (Node.ofShape (.grammar (.standIn name path)) .nothing).shape.children.items, False :=
      fun child mem => absurd mem List.not_mem_nil
    have kept := sound.grow_of_node?
      (nested_add sound.nested fun child mem => (childless child mem).elim)
      (extends_add m (.ofShape (.grammar (.standIn name path)) .nothing)) fun g node found => by
        obtain ⟨bound, -⟩ := List.getElem?_eq_some_iff.mp found
        rw [node?_add_of_not_mem bound (childless g), found]
    have here := (has_add m (.ofShape (.grammar (.standIn name path)) .nothing)).shape?
    exact kept.cons (grammar?_eq_some.mpr here) rfl rfl (by simp) (by simp)
  | @rename m grammars before id name path sound =>
    refine sound.grow (nested_update sound.nested ?_ ?_) (extends_update ?_) ?_
    · intro node
      cases node.shape <;> rfl
    · intro node
      cases hs : node.shape <;> simp [hs, Shape.children]
    · intro node settled
      cases hs : node.shape <;> simp_all [Shape.isSettled]
    · intro g mem field isField
      rw [itemsOf, m.partOf_rename id g name path isField]
      rfl

end Model

end GrammarChart
