import GrammarChart.Proofs.Emissions
import GrammarChart.Proofs.Model.Phrase
import GrammarChart.Proofs.Model.Containment

/-!
# Trees that stand in a model

`Phrase.StandsAt` says that the node of a number is the root of a tree: its shape and its mark are
those of the tree, and below it stand the parts of the tree. It says nothing about containers; that
every part has the one that it stands in as its container is `Model.NestedBelow`. What a pass asks
of a node can be read off the tree: its handler (`handlerOf_of_standsAt`), its members
(`membersOf_of_standsAt`) and what it contains (`children_of_standsAt`).
-/

set_option autoImplicit false

namespace GrammarChart

variable {φ ρ : Type}

/-- How the words and the references of trees are found in models. -/
structure Interpretation (φ ρ : Type) where
  word : φ → Json
  /-- What stands in the place of a reference in a model is the reference. -/
  leads : Model → Item → ρ → Prop

namespace Interpretation

/-- What stands in the place of a word. -/
def item (I : Interpretation φ ρ) (word : φ) : Item := .value (I.word word)

/-- What stands in the place of a word that may be missing. -/
def item? (I : Interpretation φ ρ) : Option φ → Item
  | none => .nothing
  | some word => I.item word

end Interpretation

/-- The node of a number has the shape and the mark. -/
def Model.Has (m : Model) (id : NodeId) (shape : Shape) (mark : Item) : Prop :=
  ∃ node, m.node? id = some node ∧ node.shape = shape ∧ node.cardinality = mark

mutual

/-- The node of a number is the root of the tree. -/
def Phrase.StandsAt (I : Interpretation φ ρ) (m : Model) : Phrase φ ρ → NodeId → Prop
  | .keyword value mark, id => m.Has id (.keyword (I.item value)) (I.item? mark)
  | .ruleCall rule mark, id => ∃ link, I.leads m link rule ∧
      m.Has id (.ruleCall link) (I.item? mark)
  | .crossReference type terminal mark, id => ∃ link place, I.leads m link type ∧
      Phrase.StandsIn I m terminal place ∧ m.Has id (.crossReference link place) (I.item? mark)
  | .assignment feature operator terminal mark, id => ∃ place, Phrase.StandsIn I m terminal place ∧
      m.Has id (.assignment (I.item feature) (I.item operator) place) (I.item? mark)
  | .alternatives elements mark, id => ∃ ids, Phrase.StandAt I m elements ids ∧
      m.Has id (.alternatives (.ofNodes ids)) (I.item? mark)
  | .group elements mark, id => ∃ ids, Phrase.StandAt I m elements ids ∧
      m.Has id (.group (.ofNodes ids)) (I.item? mark)
  | .action none inferredType feature operator mark, id =>
      m.Has id (.action .nothing (I.item? inferredType) (I.item? feature) (I.item? operator))
        (I.item? mark)
  | .action (some type) inferredType feature operator mark, id => ∃ link,
      I.leads m (.node link) type ∧
      m.Has id (.action (.node link) (I.item? inferredType) (I.item? feature) (I.item? operator))
        (I.item? mark)
  | .unknown kind mark, id => m.kindName (.node id) = kind ∧
      ∃ shapeKind, m.Has id (.unknown shapeKind) (I.item? mark)

/-- What stands in a place is the root of the tree, or nothing if there is no tree. -/
def Phrase.StandsIn (I : Interpretation φ ρ) (m : Model) : Option (Phrase φ ρ) → Item → Prop
  | none, place => place = .nothing
  | some b, place => ∃ id, place = .node id ∧ b.StandsAt I m id

/-- The nodes are the roots of the trees, one by one. -/
def Phrase.StandAt (I : Interpretation φ ρ) (m : Model) : List (Phrase φ ρ) → List NodeId → Prop
  | [], ids => ids = []
  | b :: rest, ids => ∃ id others, ids = id :: others ∧ b.StandsAt I m id ∧
      Phrase.StandAt I m rest others

end

/-- The node of a number is the rule, with its body below it. -/
def Production.StandsAt (I : Interpretation φ ρ) (m : Model) : Production φ ρ → NodeId → Prop
  | .parser name definition inferredType entry fragment, id => ∃ place,
      Phrase.StandsIn I m definition place ∧ m.shape? id = some (.parserRule (I.item name) place
        (I.item? inferredType) (.value (.bool entry)) (.value (.bool fragment)))
  | .terminal name regex hidden fragment, id => m.shape? id = some (.terminalRule (I.item name)
      (I.item? regex) (.value (.bool hidden)) (.value (.bool fragment)))

variable {I : Interpretation φ ρ} {m : Model}

/-- Trees stand in a row when each of them stands. -/
theorem Phrase.standAt_iff {phrases : List (Phrase φ ρ)} {ids : List NodeId} :
    Phrase.StandAt I m phrases ids ↔ List.Forall₂ (Phrase.StandsAt I m) phrases ids := by
  induction phrases generalizing ids with
  | nil => simp [Phrase.StandAt]
  | cons b rest ih =>
    rw [List.forall₂_cons_left_iff]
    constructor
    · rintro ⟨id, others, rfl, stands, more⟩
      exact ⟨id, others, stands, ih.mp more, rfl⟩
    · rintro ⟨id, others, stands, more, rfl⟩
      exact ⟨id, others, rfl, stands, ih.mpr more⟩

/-- A node that has a shape has it. -/
theorem Model.Has.shape? {id : NodeId} {shape : Shape} {mark : Item} (h : m.Has id shape mark) :
    m.shape? id = some shape := by
  obtain ⟨node, found, rfl, -⟩ := h
  simp [Model.shape?, found]

/-- A node that has a mark has it. -/
theorem Model.Has.markOf {id : NodeId} {shape : Shape} {mark : Item} (h : m.Has id shape mark) :
    m.markOf id = mark := by
  obtain ⟨node, found, -, rfl⟩ := h
  simp [Model.markOf, found]

/-- A part of the shape of a node is a part of the node. -/
theorem Model.partOf_of_shape {id : NodeId} {shape : Shape} {name : String} {item : Item}
    (h : m.shape? id = some shape) (own : shape.parts.lookup name = some item)
    (stands : name ≠ "container") (marked : name ≠ "cardinality") :
    m.partOf (.node id) name = .ok item := by
  obtain ⟨node, found, rfl⟩ := Option.map_eq_some_iff.mp h
  have part : node.part? name = some item := by
    unfold Node.part?
    split
    · exact absurd rfl stands
    · exact absurd rfl marked
    · rw [List.lookup_append, own]
      rfl
  rw [Model.partOf_node found, part]
  rfl

/-- A node is a reference when that is its shape. -/
theorem Model.link?_eq_some {id : NodeId} {link : Link} :
    m.link? id = some link ↔ m.shape? id = some (.reference link) := by
  unfold Model.link?
  split
  · next other found => simp [found]
  · next none =>
    constructor
    · simp
    · intro found
      exact absurd found (none link)

/-- A node is a grammar when that is its shape. -/
theorem Model.grammar?_eq_some {id : NodeId} {grammar : Grammar} :
    m.grammar? id = some grammar ↔ m.shape? id = some (.grammar grammar) := by
  unfold Model.grammar?
  split
  · next other found => simp [found]
  · next none =>
    constructor
    · simp
    · intro found
      exact absurd found (none grammar)

/-- What stands in a place that holds a node is that node. -/
@[simp] theorem Model.shapeIn?_node (m : Model) (id : NodeId) :
    m.shapeIn? (.node id) = m.shape? id := rfl

/-- A list of nodes contains those nodes. -/
theorem Shape.flatMap_contained_ofNodes (ids : List NodeId) :
    (Emission.ofExcept (Item.ofNodes ids).items).flatMap Shape.contained = .ofList ids := by
  simp [Shape.contained_nodes]

/-- A grammar contains its rules and its declared types. -/
theorem Shape.children_grammar {grammar : Grammar} {rules types : List NodeId}
    (hr : grammar.rules = .ofNodes rules) (ht : grammar.types = .ofNodes types) :
    (Shape.grammar grammar).children = .ofList (rules ++ types) := by
  rw [Shape.children, hr, ht, Item.items_ofNodes, Item.items_ofNodes]
  show (Emission.ofExcept (.ok (rules.map .node ++ types.map .node))).flatMap Shape.contained = _
  rw [← List.map_append, Emission.ofExcept_ok, Emission.ofList_flatMap, Emission.ofEach_singleton,
    Shape.contained_nodes]

/-- A node that is visited is no rule. -/
theorem Node.isRule_eq_false {node : Node} (handled : node.shape.handler?.isSome) :
    node.isRule = false := by
  cases shape : node.shape <;> simp [shape, Shape.handler?] at handled <;> simp [isRule, shape]

/-- Only groups and alternatives have members. -/
theorem Model.membersOf_eq_nothing {id : NodeId} {shape : Shape} (h : m.shape? id = some shape)
    (alternatives : shape.handler? ≠ some .alternatives) (group : shape.handler? ≠ some .group) :
    m.membersOf (.node id) = .nothing := by
  cases shape <;> simp_all [Model.membersOf, Shape.handler?]

namespace Phrase

/-- The root of a tree has the mark of the tree and a shape with its handler. -/
theorem has_of_standsAt {b : Phrase φ ρ} {id : NodeId} (h : b.StandsAt I m id) :
    ∃ shape, m.Has id shape (I.item? b.mark) ∧ shape.handler? = b.handler? := by
  cases b with
  | keyword value mark => exact ⟨_, h, rfl⟩
  | ruleCall rule mark =>
    obtain ⟨link, -, has⟩ := h
    exact ⟨_, has, rfl⟩
  | crossReference type terminal mark =>
    obtain ⟨link, place, -, -, has⟩ := h
    exact ⟨_, has, rfl⟩
  | assignment feature operator terminal mark =>
    obtain ⟨place, -, has⟩ := h
    exact ⟨_, has, rfl⟩
  | alternatives elements mark =>
    obtain ⟨ids, -, has⟩ := h
    exact ⟨_, has, rfl⟩
  | group elements mark =>
    obtain ⟨ids, -, has⟩ := h
    exact ⟨_, has, rfl⟩
  | action type inferredType feature operator mark =>
    cases type with
    | none => exact ⟨_, h, rfl⟩
    | some type =>
      obtain ⟨link, -, has⟩ := h
      exact ⟨_, has, rfl⟩
  | unknown kind mark =>
    obtain ⟨-, shapeKind, has⟩ := h
    exact ⟨_, has, rfl⟩

/-- The root of a tree contains the roots of the trees below it, in order. -/
theorem children_of_standsAt {b : Phrase φ ρ} {id : NodeId} (h : b.StandsAt I m id) :
    ∃ shape ids, m.shape? id = some shape ∧ shape.children = .ofList ids ∧
      List.Forall₂ (Phrase.StandsAt I m) b.children ids := by
  have terminal : ∀ {terminal : Option (Phrase φ ρ)} {place : Item},
      Phrase.StandsIn I m terminal place → ∃ ids, Shape.containedIn place = .ofList ids ∧
        List.Forall₂ (Phrase.StandsAt I m) terminal.toList ids := by
    intro terminal place stands
    cases terminal with
    | none =>
      simp only [StandsIn] at stands
      subst stands
      exact ⟨[], rfl, .nil⟩
    | some t =>
      obtain ⟨below, rfl, stands⟩ := stands
      exact ⟨[below], rfl, .cons stands .nil⟩
  have elements : ∀ {elements : List (Phrase φ ρ)} {ids : List NodeId},
      Phrase.StandAt I m elements ids →
        (Emission.ofExcept (Item.ofNodes ids).items).flatMap Shape.contained = .ofList ids ∧
        List.Forall₂ (Phrase.StandsAt I m) elements ids := by
    intro elements ids stands
    exact ⟨Shape.flatMap_contained_ofNodes ids, standAt_iff.mp stands⟩
  cases b with
  | crossReference type t mark =>
    obtain ⟨link, place, -, stands, has⟩ := h
    obtain ⟨ids, contains, below⟩ := terminal stands
    exact ⟨_, ids, has.shape?, contains, below⟩
  | assignment feature operator t mark =>
    obtain ⟨place, stands, has⟩ := h
    obtain ⟨ids, contains, below⟩ := terminal stands
    exact ⟨_, ids, has.shape?, contains, below⟩
  | alternatives es mark =>
    obtain ⟨ids, stands, has⟩ := h
    exact ⟨_, ids, has.shape?, elements stands⟩
  | group es mark =>
    obtain ⟨ids, stands, has⟩ := h
    exact ⟨_, ids, has.shape?, elements stands⟩
  | keyword value mark => exact ⟨_, [], Model.Has.shape? h, rfl, .nil⟩
  | ruleCall rule mark =>
    obtain ⟨link, -, has⟩ := h
    exact ⟨_, [], has.shape?, rfl, .nil⟩
  | action type inferredType feature operator mark =>
    cases type with
    | none => exact ⟨_, [], Model.Has.shape? h, rfl, .nil⟩
    | some type =>
      obtain ⟨link, -, has⟩ := h
      exact ⟨_, [], has.shape?, rfl, .nil⟩
  | unknown kind mark =>
    obtain ⟨-, shapeKind, has⟩ := h
    exact ⟨_, [], has.shape?, rfl, .nil⟩

/-- The members of a root are the roots of the members, in order. -/
theorem membersOf_of_standsAt {b : Phrase φ ρ} {id : NodeId} (h : b.StandsAt I m id) :
    ∃ ids : List NodeId, m.membersOf (.node id) = .ofList (ids.map .node) ∧
      List.Forall₂ (Phrase.StandsAt I m) b.members ids ∧ ∀ child ∈ ids, m.IsChild id child := by
  cases b with
  | alternatives elements mark =>
    obtain ⟨ids, stand, has⟩ := h
    refine ⟨ids, ?_, standAt_iff.mp stand, fun child mem => ⟨_, has.shape?, ?_⟩⟩
    · simp [Model.membersOf, has.shape?]
    · rw [Shape.children, Shape.flatMap_contained_ofNodes]
      exact mem
  | group elements mark =>
    obtain ⟨ids, stand, has⟩ := h
    refine ⟨ids, ?_, standAt_iff.mp stand, fun child mem => ⟨_, has.shape?, ?_⟩⟩
    · simp [Model.membersOf, has.shape?]
    · rw [Shape.children, Shape.flatMap_contained_ofNodes]
      exact mem
  | _ =>
    obtain ⟨shape, has, handled⟩ := has_of_standsAt h
    refine ⟨[], Model.membersOf_eq_nothing has.shape? ?_ ?_, .nil, by simp⟩ <;>
      simp [handled, handler?]

/-- The handler for the root of a tree is the one for the tree. -/
theorem handlerOf_of_standsAt {b : Phrase φ ρ} {id : NodeId} {handler : Handler}
    (h : b.StandsAt I m id) (known : b.handler? = some handler) :
    m.handlerOf (.node id) = .ok handler := by
  obtain ⟨shape, has, handled⟩ := has_of_standsAt h
  simp [Model.handlerOf, has.shape?, handled, known]

/-- The root of a tree is no rule. -/
theorem isRule_of_standsAt {b : Phrase φ ρ} {id : NodeId} {node : Node} (h : b.StandsAt I m id)
    (found : m.node? id = some node) : node.isRule = false := by
  have eq : ∀ {shape : Shape} {mark : Item}, m.Has id shape mark → node.shape = shape := by
    rintro shape mark ⟨other, found', same, -⟩
    rw [found] at found'
    cases found'
    exact same
  cases b with
  | unknown kind mark =>
    obtain ⟨-, shapeKind, has⟩ := h
    simp [Node.isRule, eq has]
  | _ =>
    obtain ⟨shape, has, handled⟩ := has_of_standsAt h
    refine Node.isRule_eq_false ?_
    rw [eq has, handled]
    rfl

/-- From the root of a tree that stands in a node the way goes on as from that node. -/
theorem way_of_standsAt {b : Phrase φ ρ} {rule parent id : NodeId} {path : List NodeId}
    (h : b.StandsAt I m id) (stands : m.containerOf id = .ok (.node parent))
    (way : m.Way rule parent path) : m.Way rule id (id :: path) := by
  obtain ⟨node, found, container⟩ := Model.node?_of_containerOf stands
  exact .step found (isRule_of_standsAt h found) container way

end Phrase
end GrammarChart
