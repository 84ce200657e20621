import GrammarChart.Proofs.Document.Faces
import GrammarChart.Proofs.Document.Loaded

/-!
# Shown documents

Every grammar that loading makes shows a document: its rules stand with the faces of what their
references lead to. `Model.Displays` says so of all grammars of a model, and each step of loading
keeps it: linking a further document (`Displays.link`), putting a grammar in the place of a file
(`Displays.standIn`) and renaming (`Displays.rename`). What a grammar shows never changes, whatever
is loaded later.
-/

set_option autoImplicit false

namespace GrammarChart

/-- Adding nodes that are as they are made keeps the property. -/
def Model.IsKeptByAdding (P : Model → Prop) : Prop :=
  ∀ (m : Model) (shape : Shape) (mark : Item), P m → P (m.add (.ofShape shape mark)).1

section Planted

variable {P : Model → Prop}

mutual

/-- Planting an element keeps what adding nodes keeps. -/
theorem Element.plant_keeps (kept : Model.IsKeptByAdding P) (position : Position) (p : Planting)
    (h : P p.model) : ∀ e : Element, P (e.plant position p).1.model
  | .keyword _ _ => kept _ _ _ h
  | .ruleCall _ _ => kept _ _ _ (kept _ _ _ h)
  | .crossReference _ none _ => kept _ _ _ (kept _ _ _ h)
  | .crossReference type (some terminal) _ =>
    kept _ _ _ (Element.plant_keeps kept (position ++ [.field "terminal"]) (p.link type).1
      (kept _ _ _ h) terminal)
  | .assignment _ _ terminal _ =>
    kept _ _ _ (Element.plant_keeps kept (position ++ [.field "terminal"]) p h terminal)
  | .alternatives elements _ => kept _ _ _ (Element.plantAll_keeps kept position 0 p h elements)
  | .group elements _ => kept _ _ _ (Element.plantAll_keeps kept position 0 p h elements)
  | .action none _ _ _ _ => kept _ _ _ h
  | .action (some _) _ _ _ _ => kept _ _ _ (kept _ _ _ h)

/-- Planting the members of a group keeps what adding nodes keeps. -/
theorem Element.plantAll_keeps (kept : Model.IsKeptByAdding P) (position : Position) (index : Nat)
    (p : Planting) (h : P p.model) :
    ∀ elements : List Element, P (Element.plantAll position index p elements).1.model
  | [] => h
  | element :: rest => by
    have head := Element.plant_keeps kept (position ++ [.field "elements", .item index]) p h element
    exact Element.plantAll_keeps kept position (index + 1) _ head rest

end

/-- Planting a rule keeps what adding nodes keeps. -/
theorem Rule.plant_keeps (kept : Model.IsKeptByAdding P) (position : Position) (p : Planting)
    (h : P p.model) (rule : Rule) : P (rule.plant position p).1.model := by
  cases rule with
  | terminal name regex hidden fragment => exact kept _ _ _ h
  | parser name definition inferredType entry fragment =>
    cases definition with
    | none => exact kept _ _ _ h
    | some definition => exact kept _ _ _ (Element.plant_keeps kept _ p h definition)

/-- Planting the items of a list keeps what planting one of them keeps. -/
theorem Planting.each_keeps {α : Type} {plant : Position → Planting → α → Planting × NodeId}
    (each : ∀ position (p : Planting) a, P p.model → P (plant position p a).1.model)
    (field : String) : ∀ (list : List α) (index : Nat) (p : Planting), P p.model →
      P (Planting.each plant field index p list).1.model := by
  intro list
  induction list with
  | nil => exact fun _ _ h => h
  | cons a rest ih => exact fun index p h => ih (index + 1) _ (each _ p a h)

/-- Adding diagnostics keeps what adding nodes keeps. -/
theorem Model.addDiagnostics_keeps (kept : Model.IsKeptByAdding P)
    (diagnostics : List Diagnostic) :
    ∀ m : Model, P m → P (m.addDiagnostics diagnostics).1 := by
  induction diagnostics with
  | nil => exact fun _ h => h
  | cons diagnostic rest ih =>
    intro m h
    exact ih (m.addDiagnostic diagnostic).1 (kept m _ _ h)

/-- Planting a document keeps what adding nodes keeps. -/
theorem Document.plant_keeps (kept : Model.IsKeptByAdding P) (document : Document) (model : Model)
    (imports : List NodeId) (h : P model) : P (document.plant model imports).1.model := by
  have declaration : ∀ position (p : Planting) (d : Declaration), P p.model →
      P (d.plant position p).1.model := fun _ _ _ h => kept _ _ _ h
  have rules := Planting.each_keeps
    (fun position p rule h => Rule.plant_keeps kept position p h rule) "rules" document.rules 0
    ⟨model, [], []⟩ h
  have interfaces := Planting.each_keeps declaration "interfaces" document.interfaces 0 _ rules
  have types := Planting.each_keeps declaration "types" document.types 0 _ interfaces
  exact kept _ _ _ (Model.addDiagnostics_keeps kept document.diagnostics _ types)

end Planted

namespace Model

variable {m m' m'' : Model}

/-- A change that leaves what was given to nodes alone keeps a model plain. -/
theorem isPlain_update (plain : m.IsPlain) {id : NodeId} {change : Node → Node}
    (extras : ∀ node, (change node).extras = node.extras) : (m.update id change).IsPlain := by
  intro other node found
  rw [node?_update] at found
  split at found
  · obtain ⟨before, here, rfl⟩ := Option.map_eq_some_iff.mp found
    rw [extras, plain other before here]
  · exact plain other node found

/-- A node that is added as it is made keeps a model plain. -/
theorem isPlain_add : IsKeptByAdding IsPlain := by
  intro m shape mark plain
  have grown : (Model.mk (m.nodes ++ [Node.ofShape shape mark])).IsPlain := by
    intro id node found
    rcases List.mem_append.mp (List.mem_of_getElem? found) with old | new
    · obtain ⟨i, here⟩ := List.mem_iff_getElem?.mp old
      exact plain ⟨i⟩ node here
    · rw [List.mem_singleton.mp new]
      rfl
  intro id node found
  rw [node?_add] at found
  split at found
  · obtain ⟨before, here, rfl⟩ := Option.map_eq_some_iff.mp found
    exact grown id before here
  · exact grown id node found

/-- Binding references keeps a model plain. -/
theorem isPlain_bindAll {p : Planting} {imported : Imported} {fields : Fields} :
    ∀ {pending : List (NodeId × Json)} {m : Model}, m.IsPlain →
      p.bindAll imported fields m pending = .ok m' → m'.IsPlain := by
  intro pending
  induction pending with
  | nil =>
    intro m plain h
    cases h
    exact plain
  | cons entry rest ih =>
    intro m plain h
    obtain ⟨link, address⟩ := entry
    rw [Planting.bindAll_cons, bind_eq_ok] at h
    obtain ⟨found, -, h⟩ := h
    refine ih ?_ h
    cases found with
    | none => exact plain
    | some target => exact isPlain_update plain fun node => by cases node.shape <;> rfl

/-- Linking a document keeps a model plain. -/
theorem isPlain_link {document : Document} {fields : Fields} {imported : Imported} {id : NodeId}
    (plain : m.IsPlain) (linked : document.link fields imported m = .ok (m', id)) :
    m'.IsPlain := by
  rw [Document.link_eq, bind_eq_ok] at linked
  obtain ⟨bound, run, same⟩ := linked
  cases same
  exact isPlain_bindAll (Document.plant_keeps isPlain_add document m _ plain) run

/-- A model goes on from another one: its settled nodes and its references are the same, and its
grammars are, up to their names and where they come from. -/
structure Keeps (m m' : Model) : Prop where
  extension : m.Extends m'
  links : ∀ id link, m.link? id = some link → m'.link? id = some link
  grammars : ∀ id g, m.grammar? id = some g →
    ∃ name path, m'.grammar? id = some { g with name := name, path := path }

namespace Keeps

/-- A model goes on from itself. -/
theorem refl (m : Model) : m.Keeps m :=
  ⟨.refl m, fun _ _ h => h, fun _ g h => ⟨g.name, g.path, h⟩⟩

/-- What goes on from a model that goes on goes on from the first one. -/
theorem trans (h : m.Keeps m') (k : m'.Keeps m'') : m.Keeps m'' := by
  refine ⟨h.extension.trans k.extension, fun id link here => k.links id link (h.links id link here),
    fun id g here => ?_⟩
  obtain ⟨name, path, there⟩ := h.grammars id g here
  obtain ⟨name', path', last⟩ := k.grammars id _ there
  exact ⟨name', path', last⟩

/-- A model with the same nodes and further ones goes on from it. -/
theorem of_shape? (extension : m.Extends m')
    (same : ∀ id shape, m.shape? id = some shape → m'.shape? id = some shape) : m.Keeps m' := by
  refine ⟨extension, fun id link here => ?_, fun id g here => ⟨g.name, g.path, ?_⟩⟩
  · rw [link?_eq_some] at here ⊢
    exact same id _ here
  · rw [grammar?_eq_some] at here ⊢
    exact same id _ here

/-- A model goes on when a document is linked to it. -/
theorem of_isPrefix (h : m.nodes <+: m'.nodes) : m.Keeps m' := by
  refine of_shape? (extends_of_isPrefix h) fun id shape here => ?_
  obtain ⟨node, found, same⟩ := Option.map_eq_some_iff.mp here
  rw [shape?, node?_of_isPrefix h found, Option.map_some, same]

/-- A model goes on when a node is added. -/
theorem add (m : Model) (node : Node) : m.Keeps (m.add node).1 := by
  refine of_shape? (extends_add m node) fun id shape here => ?_
  have other : id ≠ ⟨m.nodes.length⟩ := by
    rintro rfl
    have := lt_of_shape? here
    simp at this
  rw [shape?_add, if_neg other, here]

/-- A model goes on when a grammar is renamed. -/
theorem rename (m : Model) (renamed : NodeId) (name path : Grammar → Item) :
    m.Keeps (m.updateGrammar renamed fun g => { g with name := name g, path := path g }) := by
  refine ⟨extends_update ?_, fun id link here => ?_, fun id g here => ?_⟩
  · intro node settled
    cases hs : node.shape <;> simp_all [Shape.isSettled]
  · rw [link?_eq_some, shape?, Option.map_eq_some_iff] at here
    obtain ⟨node, found, same⟩ := here
    rw [link?_eq_some, shape?, updateGrammar, node?_update, found]
    split <;> simp [same]
  · rw [grammar?_eq_some, shape?, Option.map_eq_some_iff] at here
    obtain ⟨node, found, same⟩ := here
    by_cases here : renamed = id
    · refine ⟨name g, path g, ?_⟩
      rw [grammar?_eq_some, shape?, updateGrammar, node?_update, if_pos here, found]
      simp [same]
    · refine ⟨g.name, g.path, ?_⟩
      rw [grammar?_eq_some, shape?, updateGrammar, node?_update, if_neg here, found]
      simp [same]

/-- What references lead to keeps its face. -/
theorem carries_seen (h : m.Keeps m') (face : Reference → Face) :
    (Interpretation.seen face).Carries m (.seen face) m' where
  word := rfl
  extension := h.extension
  leads := by
    rintro _ reference ⟨link, target, rfl, isLink, isAt⟩
    exact ⟨link, target, rfl, h.links link target isLink, isAt.later h.extension⟩

/-- References stay bound to what they lead to. -/
theorem carries_bound (h : m.Keeps m') (leadsTo : Json → Except Fault (Option NodeId)) :
    (Interpretation.bound leadsTo).Carries m (.bound leadsTo) m' where
  word := rfl
  extension := h.extension
  leads := by
    rintro _ reference ⟨link, target, rfl, isLink, leads⟩
    exact ⟨link, target, rfl, h.links link _ isLink, leads⟩

end Keeps
end Model

/-- What is shown stays shown in models that go on and carry what references lead to. -/
theorem Document.IsShownAt.later {document : Document} {imports : List NodeId}
    {I I' : Interpretation Json Reference} {m m' : Model} {id : NodeId}
    (h : document.IsShownAt imports I m id) (keeps : m.Keeps m') (carries : I.Carries m I' m') :
    document.IsShownAt imports I' m' id := by
  obtain ⟨name, path, rules, interfaces, types, diagnostics, found, standRules, standInterfaces,
    standTypes, standDiagnostics⟩ := h
  obtain ⟨name', path', found'⟩ := keeps.grammars id _ found
  refine ⟨name', path', rules, interfaces, types, diagnostics, found', ?_, ?_, ?_, ?_⟩
  · exact standRules.imp fun rule _ stands =>
      Planting.Standing.isCarried_rule rule.production _ _ _ _ _ carries stands
  · exact standInterfaces.imp fun d _ stands =>
      Planting.Standing.isCarried_declaration d _ _ _ _ _ carries stands
  · exact standTypes.imp fun d _ stands =>
      Planting.Standing.isCarried_declaration d _ _ _ _ _ carries stands
  · exact standDiagnostics.imp fun d _ stands =>
      Planting.Standing.isCarried_diagnostic d _ _ _ _ _ carries stands

/-- What a grammar shows: a document with the faces of what its references lead to, and the grammars
that it imports. -/
structure View where
  document : Document
  face : Reference → Face
  imports : List NodeId

namespace View

/-- The grammar of a number shows the view. -/
def IsAt (view : View) (m : Model) (id : NodeId) : Prop :=
  view.document.IsShownAt view.imports (.seen view.face) m id

/-- The view of a grammar that stands for a file. -/
def nothing : View := ⟨⟨.null, [], [], [], []⟩, fun _ => .nowhere, []⟩

/-- What is shown stays shown when a model goes on. -/
theorem IsAt.later {view : View} {m m' : Model} {id : NodeId} (h : view.IsAt m id)
    (keeps : m.Keeps m') : view.IsAt m' id :=
  Document.IsShownAt.later h keeps (keeps.carries_seen view.face)

/-- A grammar that shows something is a node of the model. -/
theorem IsAt.lt {view : View} {m : Model} {id : NodeId} (h : view.IsAt m id) :
    id.index < m.nodes.length := by
  obtain ⟨name, path, rules, interfaces, types, diagnostics, found, -⟩ := h
  exact Model.lt_of_shape? (Model.grammar?_eq_some.mp found)

end View

namespace Model

variable {m m' : Model} {grammars : List NodeId} {views : NodeId → View}

/-- Each of the grammars shows its view, and imports only grammars among them. The parser rules
that it calls are rules of its own or of the grammars that it imports. -/
structure Displays (m : Model) (grammars : List NodeId) (views : NodeId → View) : Prop where
  nested : m.Nested
  plain : m.IsPlain
  shown : ∀ g ∈ grammars, (views g).IsAt m g
  known : ∀ g ∈ grammars, ∀ i ∈ (views g).imports, i ∈ grammars
  calls : ∀ g ∈ grammars, ∀ reference name, (views g).face reference = .parserRule name →
    ∃ i, (i = g ∨ i ∈ (views g).imports) ∧ name ∈ (views i).document.ruleNames

/-- The documents that are imported, as the grammars show them. -/
def documentsOf (views : NodeId → View) (imported : Imported) : ImportedDocuments :=
  imported.map fun entry => (entry.1, (views entry.2).document)

/-- The view of a linked document. -/
def linkedView (views : NodeId → View) (document : Document) (fields : Fields)
    (imported : Imported) : View :=
  ⟨document, document.face fields (documentsOf views imported), imported.map Prod.snd⟩

/-- The empty model displays nothing. -/
theorem displays_empty (views : NodeId → View) : empty.Displays [] views :=
  ⟨nested_empty, fun id node found => by simp [node?, empty] at found,
    fun _ mem => absurd mem List.not_mem_nil, fun _ mem => absurd mem List.not_mem_nil,
    fun _ mem => absurd mem List.not_mem_nil⟩

namespace Displays

/-- What is displayed stays displayed when a model goes on. -/
theorem later (h : m.Displays grammars views) (keeps : m.Keeps m') (nested : m'.Nested)
    (plain : m'.IsPlain) : m'.Displays grammars views :=
  ⟨nested, plain, fun g mem => (h.shown g mem).later keeps, h.known, h.calls⟩

/-- A further grammar is displayed beside the others. -/
theorem cons (h : m.Displays grammars views) {g : NodeId} (new : g ∉ grammars) {view : View}
    (shown : view.IsAt m g) (known : ∀ i ∈ view.imports, i ∈ grammars)
    (calls : ∀ reference name, view.face reference = .parserRule name →
      name ∈ view.document.ruleNames ∨ ∃ i ∈ view.imports, name ∈ (views i).document.ruleNames) :
    m.Displays (g :: grammars) (Function.update views g view) := by
  have same : ∀ i ∈ grammars, Function.update views g view i = views i := by
    intro i mem
    exact Function.update_of_ne (by rintro rfl; exact new mem) _ _
  refine ⟨h.nested, h.plain, fun i mem => ?_, fun i mem => ?_, fun i mem => ?_⟩
  · rcases List.mem_cons.mp mem with rfl | old
    · rwa [Function.update_self]
    · rw [same i old]
      exact h.shown i old
  · rcases List.mem_cons.mp mem with rfl | old
    · rw [Function.update_self]
      exact fun j direct => List.mem_cons_of_mem _ (known j direct)
    · rw [same i old]
      exact fun j direct => List.mem_cons_of_mem _ (h.known i old j direct)
  · intro reference name called
    rcases List.mem_cons.mp mem with rfl | old
    · rw [Function.update_self] at called ⊢
      rcases calls reference name called with own | ⟨j, direct, imported⟩
      · exact ⟨i, .inl rfl, by rwa [Function.update_self]⟩
      · exact ⟨j, .inr direct, by rwa [same j (known j direct)]⟩
    · rw [same i old] at called ⊢
      obtain ⟨j, near, named⟩ := h.calls i old reference name called
      refine ⟨j, near, ?_⟩
      rwa [same j (near.elim (fun here => here ▸ old) (h.known i old j))]

/-- A number beyond the nodes is that of no grammar. -/
theorem not_mem (h : m.Displays grammars views) {g : NodeId} (beyond : m.nodes.length ≤ g.index) :
    g ∉ grammars := by
  intro mem
  have := (h.shown g mem).lt
  omega

/-- The documents that are imported are listed where their grammars are. -/
theorem areListed (h : m.Displays grammars views) {imported : Imported}
    (imports : ∀ g ∈ imported.map Prod.snd, g ∈ grammars) (keeps : m.Keeps m') :
    (documentsOf views imported).AreListed imported m' := by
  unfold ImportedDocuments.AreListed documentsOf
  rw [List.forall₂_map_left_iff, List.forall₂_same]
  intro entry mem
  have shown := (h.shown entry.2 (imports _ (List.mem_map_of_mem mem))).later keeps
  exact ⟨rfl, shown.isListedAt fun _ => rfl⟩

/-- The documents that are imported are listed where the importing one is planted. -/
theorem areListed_plant (h : m.Displays grammars views) {imported : Imported}
    (imports : ∀ g ∈ imported.map Prod.snd, g ∈ grammars) (document : Document) :
    (documentsOf views imported).AreListed imported
      (document.plant m (imported.map Prod.snd)).1.model :=
  h.areListed imports (Keeps.of_isPrefix (document.plant_grows m (imported.map Prod.snd)).1.nodes)

/-- A linked document is displayed beside the grammars that it was linked to. -/
theorem link (h : m.Displays grammars views) {document : Document} {fields : Fields}
    {imported : Imported} {id : NodeId} (imports : ∀ g ∈ imported.map Prod.snd, g ∈ grammars)
    (linked : document.link fields imported m = .ok (m', id)) :
    m'.Displays (id :: grammars)
      (Function.update views id (linkedView views document fields imported)) := by
  have isLinked := Document.isLinked_of_link linked
  have keeps := Keeps.of_isPrefix isLinked.nodes
  have carries := @Document.carries_face _ fields _ _ _ _ isLinked.extension
    (h.areListed_plant imports document)
  have later := h.later keeps (isLinked.nested h.nested) (isPlain_link h.plain linked)
  have calls : ∀ reference name,
      (linkedView views document fields imported).face reference = .parserRule name →
      name ∈ document.ruleNames ∨
        ∃ i ∈ imported.map Prod.snd, name ∈ (views i).document.ruleNames := by
    intro reference name called
    refine (Document.mem_ruleNames_of_face called).imp_right ?_
    rintro ⟨other, mem, named⟩
    simp only [documentsOf, List.map_map, List.mem_map, Function.comp_apply] at mem ⊢
    obtain ⟨entry, inside, rfl⟩ := mem
    exact ⟨entry.2, ⟨entry, inside, rfl⟩, named⟩
  refine later.cons (h.not_mem isLinked.new) ?_ imports calls
  obtain ⟨rules, interfaces, types, diagnostics, found, standRules, standInterfaces, standTypes,
    standDiagnostics⟩ := isLinked.stands
  exact Document.IsShownAt.later ⟨_, _, rules, interfaces, types, diagnostics, found, standRules,
    standInterfaces, standTypes, standDiagnostics⟩ (.refl m') carries

/-- A grammar that stands for a file shows nothing. -/
theorem standIn (h : m.Displays grammars views) (name path : Item) :
    (m.add (.ofShape (.grammar (.standIn name path)) .nothing)).1.Displays
      (⟨m.nodes.length⟩ :: grammars) (Function.update views ⟨m.nodes.length⟩ .nothing) := by
  have childless : (Node.ofShape (.grammar (.standIn name path)) .nothing).shape.children.items =
    [] := rfl
  have nested : (m.add (.ofShape (.grammar (.standIn name path)) .nothing)).1.Nested :=
    nested_add h.nested fun child mem => absurd (childless ▸ mem) List.not_mem_nil
  have later := h.later (Keeps.add m _) nested (isPlain_add m _ _ h.plain)
  refine later.cons (h.not_mem (Nat.le_refl _)) ?_ (fun i mem => absurd mem List.not_mem_nil)
    fun reference name called => by cases called
  have here := (has_add m (.ofShape (.grammar (.standIn name path)) .nothing)).shape?
  exact ⟨name, path, [], [], [], [], grammar?_eq_some.mpr here, .nil, .nil, .nil, .nil⟩

/-- Renaming a grammar changes nothing that is displayed. -/
theorem rename (h : m.Displays grammars views) (id : NodeId) (name path : Grammar → Item) :
    (m.updateGrammar id fun g => { g with name := name g, path := path g }).Displays
      grammars views := by
  refine h.later (.rename m id name path) (nested_update h.nested ?_ ?_) (isPlain_update h.plain ?_)
  · intro node
    cases node.shape <;> rfl
  · intro node
    cases hs : node.shape <;> simp [hs, Shape.children]
  · intro node
    cases node.shape <;> rfl

end Displays

/-- All grammars of a loaded model are displayed. -/
theorem exists_displays (h : m.IsLoaded grammars) : ∃ views, m.Displays grammars views := by
  induction h with
  | empty => exact ⟨fun _ => .nothing, displays_empty _⟩
  | link before imports linked ih =>
    obtain ⟨views, displays⟩ := ih
    exact ⟨_, displays.link imports linked⟩
  | standIn before name path ih =>
    obtain ⟨views, displays⟩ := ih
    exact ⟨_, displays.standIn name path⟩
  | rename before id name path ih =>
    obtain ⟨views, displays⟩ := ih
    exact ⟨views, displays.rename id name path⟩

end Model
end GrammarChart
