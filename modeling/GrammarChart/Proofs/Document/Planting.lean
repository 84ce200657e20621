import GrammarChart.Document.Planting
import GrammarChart.Proofs.Model.Growth

/-!
# Planted documents

What planting makes of the trees of a document. A planting grows (`Planting.Grows`): the nodes that
were there stay as they are, new nodes contain new nodes only, and the references noted for binding
are new and different from each other. An element is planted as its tree (`Element.bears_plant`),
whose root stands in nothing yet, so that the element around it can contain it.
-/

set_option autoImplicit false

namespace GrammarChart

/-- A value as a word that may be missing. -/
def Json.word? : Json → Option Json
  | .null => none
  | value => some value

mutual

/-- The tree of an element. -/
def Element.phrase : Element → Phrase Json Reference
  | .keyword value mark => .keyword value mark.word?
  | .ruleCall rule mark => .ruleCall rule mark.word?
  | .crossReference type none mark => .crossReference type none mark.word?
  | .crossReference type (some terminal) mark =>
    .crossReference type (some terminal.phrase) mark.word?
  | .assignment feature operator terminal mark =>
    .assignment feature operator (some terminal.phrase) mark.word?
  | .alternatives elements mark => .alternatives (Element.phrases elements) mark.word?
  | .group elements mark => .group (Element.phrases elements) mark.word?
  | .action type inferredType feature operator mark =>
    .action type inferredType.word? feature.word? operator.word? mark.word?

/-- The trees of elements. -/
def Element.phrases : List Element → List (Phrase Json Reference)
  | [] => []
  | element :: rest => element.phrase :: Element.phrases rest

end

/-- The tree of a rule. -/
def Rule.production : Rule → Production Json Reference
  | .parser name definition inferredType entry fragment =>
    .parser name (definition.map Element.phrase) inferredType.word? entry fragment
  | .terminal name regex hidden fragment => .terminal name regex.word? hidden fragment

/-- Values stand as they are, and a reference stands unbound and is noted with its address. -/
def Interpretation.planted (pending : List (NodeId × Json)) : Interpretation Json Reference where
  word := id
  leads m place reference := ∃ link, place = .node link ∧
    m.link? link = some ⟨.value reference.text, .nothing⟩ ∧
    pending.lookup link = reference.address

/-- A value that may be missing stands as it is. -/
@[simp] theorem Interpretation.planted_item? (pending : List (NodeId × Json)) (value : Json) :
    (Interpretation.planted pending).item? value.word? = .value value := by
  cases value <;> rfl

namespace Planting

/-- The nodes of a planting know their containers as far as those of the model it started from did,
and the references that are noted for binding are unbound and different from each other. -/
structure Sound (start : Model) (p : Planting) : Prop where
  nested : ∀ first, start.NestedFrom first → p.model.NestedFrom first
  noted : ∀ entry ∈ p.pending, ∃ text, p.model.link? entry.1 = some ⟨text, .nothing⟩
  distinct : (p.pending.map Prod.fst).Nodup

/-- A planting goes on from another one: what was there stays, and what is new contains and notes
only what is new. -/
structure Grows (start : Model) (p p' : Planting) : Prop where
  sound : p'.Sound start
  nodes : p.model.nodes <+: p'.model.nodes
  fresh : ∀ parent child, p'.model.IsChild parent child →
    p.model.IsChild parent child ∨ p.model.nodes.length ≤ child.index
  pending : ∃ noted, p'.pending = p.pending ++ noted ∧
    ∀ entry ∈ noted, p.model.nodes.length ≤ entry.1.index

/-- The node is new in a planting that goes on from another one, and another node may contain it. -/
structure IsNew (start : Model) (p p' : Planting) (id : NodeId) : Prop where
  new : p.model.nodes.length ≤ id.index
  bound : id.index < p'.model.nodes.length
  free : start.IsClosed → p'.model.IsFree id

variable {start : Model} {p p' p'' : Planting}

/-- A sound planting goes on from itself. -/
theorem Grows.refl (sound : p.Sound start) : p.Grows start p :=
  ⟨sound, List.prefix_refl _, fun _ _ h => .inl h, [], by simp, by simp⟩

/-- What goes on from a planting that goes on goes on from the first one. -/
theorem Grows.trans (h : p.Grows start p') (k : p'.Grows start p'') : p.Grows start p'' := by
  have longer := h.nodes.length_le
  refine ⟨k.sound, h.nodes.trans k.nodes, ?_, ?_⟩
  · intro parent child contained
    rcases k.fresh parent child contained with before | new
    · exact h.fresh parent child before
    · exact .inr (Nat.le_trans longer new)
  · obtain ⟨noted, same, new⟩ := h.pending
    obtain ⟨noted', same', new'⟩ := k.pending
    refine ⟨noted ++ noted', by rw [same', same, List.append_assoc], ?_⟩
    intro entry mem
    rcases List.mem_append.mp mem with early | late
    · exact new entry early
    · exact Nat.le_trans longer (new' entry late)

/-- What stood in nothing still does when a planting goes on. -/
theorem Grows.isFree (h : p.Grows start p') {id : NodeId} (bound : id.index < p.model.nodes.length)
    (free : p.model.IsFree id) : p'.model.IsFree id := by
  intro parent contained
  rcases h.fresh parent id contained with before | new
  · exact free parent before
  · omega

/-- A planting goes on with a node that contains only what is new and stands in nothing. If the
node is a reference, it may be noted for binding. -/
theorem Grows.add (h : p.Grows start p') {node : Node}
    (new : ∀ child ∈ node.shape.children.items, p.IsNew start p' child)
    (model : p''.model = (p'.model.add node).1) {noted : Option (NodeId × Json)}
    (pending : p''.pending = p'.pending ++ noted.toList)
    (isLink : ∀ entry ∈ noted, entry.1 = ⟨p'.model.nodes.length⟩ ∧
      ∃ text, node.shape = .reference ⟨text, .nothing⟩) : p.Grows start p'' := by
  have longer := h.nodes.length_le
  have early : ∀ entry ∈ p'.pending, entry.1.index < p'.model.nodes.length := by
    intro entry mem
    obtain ⟨text, found⟩ := h.sound.noted entry mem
    exact Model.lt_of_shape? (Model.link?_eq_some.mp found)
  -- Only the last entry of what is pending is new, and it is noted for the new node, which no
  -- earlier entry is noted for.
  refine ⟨⟨?_, ?_, ?_⟩, ?_, ?_, ?_⟩
  · rw [model]
    exact fun first nested => (h.sound.nested first nested).add fun child mem =>
      ⟨(new child mem).bound, (new child mem).free nested.closed⟩
  · intro entry mem
    rw [pending, List.mem_append, Option.mem_toList] at mem
    simp only [Model.link?_eq_some, model, Model.shape?_add]
    rcases mem with old | late
    · obtain ⟨text, found⟩ := h.sound.noted entry old
      have other : entry.1 ≠ ⟨p'.model.nodes.length⟩ := by
        intro same
        have := early entry old
        simp [same] at this
      exact ⟨text, by rw [if_neg other]; exact Model.link?_eq_some.mp found⟩
    · obtain ⟨same, text, shape⟩ := isLink entry late
      exact ⟨text, by rw [if_pos same, shape]⟩
  · rw [pending, List.map_append, List.nodup_append]
    refine ⟨h.sound.distinct, ?_, ?_⟩
    · cases noted <;> simp
    · rintro a inOld b inNew rfl
      obtain ⟨entry, old, rfl⟩ := List.mem_map.mp inOld
      obtain ⟨entry', late, same⟩ := List.mem_map.mp inNew
      have := early entry old
      rw [← same, (isLink entry' (Option.mem_toList.mp late)).1] at this
      simp at this
  · rw [List.prefix_iff_getElem?]
    intro i bound
    have fresh : (⟨i⟩ : NodeId) ∉ node.shape.children.items := fun mem => by
      have := (new _ mem).new
      simp only at this
      omega
    have stays : (p'.model.add node).1.node? ⟨i⟩ = p'.model.node? ⟨i⟩ :=
      Model.node?_add_of_not_mem (Nat.lt_of_lt_of_le bound longer) fresh
    rw [← model] at stays
    have before := (List.prefix_iff_getElem?.mp h.nodes) i bound
    exact stays.trans before
  · intro parent child contained
    rw [model, Model.isChild_add] at contained
    split at contained
    · exact .inr (new child contained).new
    · exact h.fresh parent child contained
  · obtain ⟨early, same, later⟩ := h.pending
    refine ⟨early ++ noted.toList, by rw [pending, same, List.append_assoc], ?_⟩
    intro entry mem
    rcases List.mem_append.mp mem with old | late
    · exact later entry old
    · rw [(isLink entry (Option.mem_toList.mp late)).1]
      exact longer

/-- A reference that stands keeps standing when a planting goes on. -/
theorem Grows.leads (h : p.Grows start p') (place : Item) (reference : Reference)
    (led : (Interpretation.planted p.pending).leads p.model place reference) :
    (Interpretation.planted p'.pending).leads p'.model place reference := by
  obtain ⟨link, rfl, found, noted⟩ := led
  have shape := Model.link?_eq_some.mp found
  have bound := Model.lt_of_shape? shape
  obtain ⟨node, here, same⟩ := Option.map_eq_some_iff.mp shape
  refine ⟨link, rfl, ?_, ?_⟩
  · rw [Model.link?_eq_some, Model.shape?, Model.node?_of_isPrefix h.nodes here, Option.map_some,
      same]
  · obtain ⟨more, pending, new⟩ := h.pending
    have absent : more.lookup link = none := by
      rw [List.lookup_eq_none_iff]
      intro entry mem
      have := new entry mem
      simp only [bne_iff_ne, ne_eq]
      rintro rfl
      omega
    rw [pending, List.lookup_append, absent, Option.or_none, noted]

/-- What stands keeps standing when a planting goes on. -/
theorem Grows.carries (h : p.Grows start p') : (Interpretation.planted p.pending).Carries p.model
    (.planted p'.pending) p'.model where
  word := rfl
  extension := Model.extends_of_isPrefix h.nodes
  leads := h.leads

/-- A reference that stands keeps standing when a node is added. -/
theorem leads_add (pending : List (NodeId × Json)) (m : Model) (node : Node) (place : Item)
    (reference : Reference) (led : (Interpretation.planted pending).leads m place reference) :
    (Interpretation.planted pending).leads (m.add node).1 place reference := by
  obtain ⟨link, rfl, found, noted⟩ := led
  have shape := Model.link?_eq_some.mp found
  have bound := Model.lt_of_shape? shape
  have other : link ≠ ⟨m.nodes.length⟩ := by
    rintro rfl
    simp at bound
  exact ⟨link, rfl, by rw [Model.link?_eq_some, Model.shape?_add, if_neg other, shape], noted⟩

/-- What stands keeps standing when a node is added. -/
theorem carries_add (pending : List (NodeId × Json)) (m : Model) (node : Node) :
    (Interpretation.planted pending).Carries m (.planted pending) (m.add node).1 where
  word := rfl
  extension := Model.extends_add m node
  leads := leads_add pending m node

/-- A tree that stands keeps standing when a node is added. -/
theorem standsAt_node (p : Planting) (position : Position) (node : Node)
    {b : Phrase Json Reference} {id : NodeId}
    (stands : b.StandsAt (.planted p.pending) p.model id) :
    b.StandsAt (.planted (p.node position node).1.pending) (p.node position node).1.model id :=
  b.standsAt_of_carries (carries_add p.pending p.model node) stands

/-- What can stand at a node of a model under construction. -/
abbrev Standing := Interpretation Json Reference → Model → NodeId → Prop

/-- What stands keeps standing in models that carry it. -/
def Standing.IsCarried (S : Standing) : Prop :=
  ∀ (I I' : Interpretation Json Reference) (m m' : Model) (id : NodeId), I.Carries m I' m' →
    S I m id → S I' m' id

/-- The tree stands. -/
def Standing.phrase (b : Phrase Json Reference) : Standing := fun I m id => b.StandsAt I m id

/-- A tree is carried. -/
theorem Standing.isCarried_phrase (b : Phrase Json Reference) : (Standing.phrase b).IsCarried :=
  fun _ _ _ _ _ carries stands => b.standsAt_of_carries carries stands

/-- The rule stands. -/
def Standing.rule (rule : Production Json Reference) : Standing :=
  fun I m id => rule.StandsAt I m id

/-- The declaration stands. -/
def Standing.declaration (declaration : Declaration) : Standing := fun _ m id =>
  m.shape? id = some (.typeDeclaration (.value declaration.name) (.value declaration.kind))

/-- The diagnostic stands. -/
def Standing.diagnostic (diagnostic : Diagnostic) : Standing := fun _ m id =>
  m.shape? id = some (.diagnostic (.value diagnostic.severity) (.value diagnostic.message))

/-- A rule is carried. -/
theorem Standing.isCarried_rule (rule : Production Json Reference) :
    (Standing.rule rule).IsCarried :=
  fun _ _ _ _ _ carries stands => Production.standsAt_of_carries carries stands

/-- A declaration is carried. -/
theorem Standing.isCarried_declaration (declaration : Declaration) :
    (Standing.declaration declaration).IsCarried :=
  fun _ _ _ _ _ carries stands => carries.shape? rfl stands

/-- A diagnostic is carried. -/
theorem Standing.isCarried_diagnostic (diagnostic : Diagnostic) :
    (Standing.diagnostic diagnostic).IsCarried :=
  fun _ _ _ _ _ carries stands => carries.shape? rfl stands

/-- A planting goes on from another one, and something stands at a node that is new and stands in
nothing itself. -/
structure Bears (start : Model) (p p' : Planting) (S : Standing) (id : NodeId) : Prop
    extends p.IsNew start p' id where
  grows : p.Grows start p'
  stands : S (.planted p'.pending) p'.model id

/-- What was planted stays planted. -/
theorem Bears.later {S : Standing} {id : NodeId} (carried : S.IsCarried) (h : p.Bears start p' S id)
    (k : p'.Grows start p'') : p.Bears start p'' S id where
  grows := h.grows.trans k
  new := h.new
  bound := Nat.lt_of_lt_of_le h.bound k.nodes.length_le
  free := fun closed => k.isFree h.bound (h.free closed)
  stands := carried _ _ _ _ _ k.carries h.stands

/-- What was planted later was planted after what came before. -/
theorem Bears.earlier {S : Standing} {id : NodeId} (h : p'.Bears start p'' S id)
    (before : p.Grows start p') : p.Bears start p'' S id where
  grows := before.trans h.grows
  new := Nat.le_trans before.nodes.length_le h.new
  bound := h.bound
  free := h.free
  stands := h.stands

/-- What was planted is new. -/
theorem isNew_of_mem {α : Type} {S : α → Standing} {planted : List α} {ids : List NodeId}
    (bear : List.Forall₂ (fun a => p.Bears start p' (S a)) planted ids) {id : NodeId}
    (mem : id ∈ ids) : p.IsNew start p' id := by
  obtain ⟨i, bound, rfl⟩ := List.mem_iff_getElem.mp mem
  exact (bear.get (bear.length_eq ▸ bound) bound).toIsNew

/-- A node that contains one planted node contains what is new. -/
theorem isNew_of_child {S : Standing} {id : NodeId} {node : Node} (bears : p.Bears start p' S id)
    (contains : node.shape.children.items = [id]) :
    ∀ child ∈ node.shape.children.items, p.IsNew start p' child := by
  intro child mem
  rw [contains, List.mem_singleton] at mem
  exact mem ▸ bears.toIsNew

/-- A node without children contains nothing that is not new. -/
theorem isNew_of_childless {node : Node} (childless : node.shape.children.items = []) :
    ∀ child ∈ node.shape.children.items, p.IsNew start p' child := by
  intro child mem
  rw [childless] at mem
  exact absurd mem List.not_mem_nil

/-- A planting goes on with a reference, which stands where it was planted. -/
theorem Grows.link (h : p.Grows start p') (reference : Reference) :
    p.Grows start (p'.link reference).1 ∧
      (Interpretation.planted (p'.link reference).1.pending).leads (p'.link reference).1.model
        (.node (p'.link reference).2) reference := by
  have absent : p'.pending.lookup ⟨p'.model.nodes.length⟩ = none := by
    rw [List.lookup_eq_none_iff]
    intro entry mem
    obtain ⟨text, found⟩ := h.sound.noted entry mem
    have := Model.lt_of_shape? (Model.link?_eq_some.mp found)
    simp only [bne_iff_ne, ne_eq]
    rintro same
    rw [← same] at this
    simp at this
  have number : (p'.link reference).2 = ⟨p'.model.nodes.length⟩ := rfl
  constructor
  · refine h.add ?_ rfl rfl ?_
    · simp [Node.ofShape, Shape.children, Emission.nothing]
    · intro entry mem
      obtain ⟨address, -, rfl⟩ := Option.map_eq_some_iff.mp mem
      exact ⟨rfl, .value reference.text, rfl⟩
  · refine ⟨_, rfl, ?_, ?_⟩
    · rw [Model.link?_eq_some, number]
      show (p'.model.add _).1.shape? _ = _
      rw [Model.shape?_add, if_pos rfl]
      rfl
    · rw [number]
      show (p'.pending ++ _).lookup _ = _
      rw [List.lookup_append, absent]
      cases reference.address with
      | none => rfl
      | some address => simp

/-- A planting goes on with a node, whose children were planted before. -/
theorem Grows.bears_add (h : p.Grows start p') {node : Node}
    (new : ∀ child ∈ node.shape.children.items, p.IsNew start p' child)
    (model : p''.model = (p'.model.add node).1) (pending : p''.pending = p'.pending)
    {S : Standing} (stands : S (.planted p''.pending) p''.model (p'.model.add node).2) :
    p.Bears start p'' S (p'.model.add node).2 where
  grows := by
    have nothing : p''.pending = p'.pending ++ (none : Option (NodeId × Json)).toList := by
      simp [pending]
    exact h.add new model nothing (by simp)
  new := h.nodes.length_le
  bound := by
    rw [model, Model.length_add, Model.snd_add]
    exact Nat.lt_succ_self _
  free := by
    rw [model]
    exact fun closed =>
      Model.isFree_snd_add (h.sound.nested _ closed.nestedFrom).closed fun child mem =>
      (new child mem).bound
  stands := stands

/-- A planting goes on with a node at a position, whose children were planted before. -/
theorem Grows.bears_node (h : p.Grows start p') (position : Position) {node : Node}
    (new : ∀ child ∈ node.shape.children.items, p.IsNew start p' child) {S : Standing}
    (stands : S (.planted (p'.node position node).1.pending)
      (p'.node position node).1.model (p'.node position node).2) :
    p.Bears start (p'.node position node).1 S (p'.node position node).2 := by
  have model : (p'.node position node).1.model = (p'.model.add node).1 := rfl
  have pending : (p'.node position node).1.pending = p'.pending := rfl
  exact h.bears_add new model pending stands

/-- An added node has its shape and its mark. -/
theorem has_node (p : Planting) (position : Position) (node : Node) :
    (p.node position node).1.model.Has (p.node position node).2 node.shape node.cardinality :=
  Model.has_add p.model node

end Planting

open Planting

variable {start : Model}

mutual

/-- An element is planted as its tree. -/
theorem Element.bears_plant (position : Position) {p : Planting} (sound : p.Sound start) :
    ∀ e : Element, p.Bears start (e.plant position p).1 (.phrase e.phrase) (e.plant position p).2
  | .keyword value mark => by
    refine (Grows.refl sound).bears_node position (isNew_of_childless rfl) ?_
    have has := p.has_node position (.ofShape (.keyword (.value value)) (.value mark))
    simp only [Standing.phrase, Element.phrase, Phrase.StandsAt, Interpretation.planted_item?]
    exact has
  | .ruleCall rule mark => by
    obtain ⟨grows, led⟩ := (Grows.refl sound).link rule
    refine grows.bears_node position (isNew_of_childless rfl) ?_
    refine ⟨_, leads_add _ _ _ _ _ led, ?_⟩
    rw [Interpretation.planted_item?]
    exact has_node ..
  | .crossReference type none mark => by
    obtain ⟨grows, led⟩ := (Grows.refl sound).link type
    refine grows.bears_node position (isNew_of_childless rfl) ?_
    refine ⟨_, _, leads_add _ _ _ _ _ led, rfl, ?_⟩
    rw [Interpretation.planted_item?]
    exact has_node ..
  | .crossReference type (some terminal) mark => by
    obtain ⟨grows, led⟩ := (Grows.refl sound).link type
    -- The link comes first, so the terminal is planted into what has the link already.
    have below := Element.bears_plant (position ++ [.field "terminal"]) grows.sound terminal
    have whole := below.earlier grows
    refine whole.grows.bears_node position (isNew_of_child whole rfl) ?_
    refine ⟨_, _, leads_add _ _ _ _ _ (below.grows.leads _ _ led),
      ⟨_, rfl, standsAt_node _ position _ below.stands⟩, ?_⟩
    rw [Interpretation.planted_item?]
    exact has_node ..
  | .assignment feature operator terminal mark => by
    have below := Element.bears_plant (position ++ [.field "terminal"]) sound terminal
    refine below.grows.bears_node position (isNew_of_child below rfl) ?_
    refine ⟨_, ⟨_, rfl, standsAt_node _ position _ below.stands⟩, ?_⟩
    rw [Interpretation.planted_item?]
    exact has_node ..
  | .alternatives elements mark => by
    obtain ⟨grows, below⟩ := Element.bears_plantAll position 0 sound elements
    refine grows.bears_node position ?_ ?_
    · intro child mem
      rw [Node.ofShape, Shape.children, Shape.flatMap_contained_ofNodes] at mem
      exact isNew_of_mem below mem
    · refine ⟨_, Phrase.standAt_iff.mpr (below.imp fun _ _ bears =>
        standsAt_node _ position _ bears.stands), ?_⟩
      rw [Interpretation.planted_item?]
      exact has_node ..
  | .group elements mark => by
    obtain ⟨grows, below⟩ := Element.bears_plantAll position 0 sound elements
    refine grows.bears_node position ?_ ?_
    · intro child mem
      rw [Node.ofShape, Shape.children, Shape.flatMap_contained_ofNodes] at mem
      exact isNew_of_mem below mem
    · refine ⟨_, Phrase.standAt_iff.mpr (below.imp fun _ _ bears =>
        standsAt_node _ position _ bears.stands), ?_⟩
      rw [Interpretation.planted_item?]
      exact has_node ..
  | .action none inferredType feature operator mark => by
    refine (Grows.refl sound).bears_node position (isNew_of_childless rfl) ?_
    have has := p.has_node position (.ofShape (.action .nothing (.value inferredType)
      (.value feature) (.value operator)) (.value mark))
    simp only [Standing.phrase, Element.phrase, Phrase.StandsAt, Interpretation.planted_item?]
    exact has
  | .action (some type) inferredType feature operator mark => by
    obtain ⟨grows, led⟩ := (Grows.refl sound).link type
    refine grows.bears_node position (isNew_of_childless rfl) ?_
    refine ⟨_, leads_add _ _ _ _ _ led, ?_⟩
    simp only [Interpretation.planted_item?]
    exact has_node ..

/-- The members of a group are planted as their trees. -/
theorem Element.bears_plantAll (position : Position) (index : Nat) {p : Planting}
    (sound : p.Sound start) : ∀ elements : List Element,
    p.Grows start (Element.plantAll position index p elements).1 ∧
      List.Forall₂ (fun b =>
        p.Bears start (Element.plantAll position index p elements).1 (.phrase b))
        (Element.phrases elements) (Element.plantAll position index p elements).2
  | [] => ⟨.refl sound, .nil⟩
  | element :: rest => by
    have head := Element.bears_plant (position ++ [.field "elements", .item index]) sound element
    obtain ⟨grows, tail⟩ := Element.bears_plantAll position (index + 1) head.grows.sound rest
    refine ⟨head.grows.trans grows, .cons (head.later (Standing.isCarried_phrase _) grows) ?_⟩
    exact tail.imp fun _ _ bears => bears.earlier head.grows

end

/-- A rule is planted as its tree. -/
theorem Rule.bears_plant (position : Position) {p : Planting} (sound : p.Sound start)
    (rule : Rule) :
    p.Bears start (rule.plant position p).1 (.rule rule.production) (rule.plant position p).2 := by
  cases rule with
  | terminal name regex hidden fragment =>
    refine (Grows.refl sound).bears_node position (isNew_of_childless rfl) ?_
    simp only [Standing.rule, Rule.production, Production.StandsAt, Interpretation.planted_item?]
    exact (has_node ..).shape?
  | parser name definition inferredType entry fragment =>
    cases definition with
    | none =>
      refine (Grows.refl sound).bears_node position (isNew_of_childless rfl) ?_
      refine ⟨_, rfl, ?_⟩
      rw [Interpretation.planted_item?]
      exact (has_node ..).shape?
    | some definition =>
      have below := definition.bears_plant (position ++ [.field "definition"]) sound
      refine below.grows.bears_node position (isNew_of_child below rfl) ?_
      refine ⟨_, ⟨_, rfl, standsAt_node _ position _ below.stands⟩, ?_⟩
      rw [Interpretation.planted_item?]
      exact (has_node ..).shape?

/-- A declaration is planted as it is. -/
theorem Declaration.bears_plant (position : Position) {p : Planting} (sound : p.Sound start)
    (declaration : Declaration) : p.Bears start (declaration.plant position p).1
      (.declaration declaration) (declaration.plant position p).2 := by
  refine (Grows.refl sound).bears_node position (isNew_of_childless rfl) ?_
  exact (has_node ..).shape?

/-- The items of a list are planted one after the other. -/
theorem Planting.bears_each {α : Type} {plant : Position → Planting → α → Planting × NodeId}
    {S : α → Standing} (carried : ∀ a, (S a).IsCarried)
    (bears : ∀ position {p : Planting}, p.Sound start → ∀ a,
      p.Bears start (plant position p a).1 (S a) (plant position p a).2)
    (field : String) : ∀ (list : List α) (index : Nat) {p : Planting}, p.Sound start →
    p.Grows start (Planting.each plant field index p list).1 ∧
      List.Forall₂ (fun a => p.Bears start (Planting.each plant field index p list).1 (S a)) list
        (Planting.each plant field index p list).2 := by
  intro list
  induction list with
  | nil => exact fun index p sound => ⟨.refl sound, .nil⟩
  | cons a rest ih =>
    intro index p sound
    have head := bears [.field field, .item index] sound a
    obtain ⟨grows, tail⟩ := ih (index + 1) head.grows.sound
    refine ⟨head.grows.trans grows, .cons (head.later (carried a) grows) ?_⟩
    exact tail.imp fun _ _ bears => bears.earlier head.grows

/-- Diagnostics are added one after the other. -/
theorem Model.bears_addDiagnostics : ∀ (diagnostics : List Diagnostic) {p : Planting},
    p.Sound start → p.Grows start { p with model := (p.model.addDiagnostics diagnostics).1 } ∧
      List.Forall₂ (fun d =>
        p.Bears start { p with model := (p.model.addDiagnostics diagnostics).1 } (.diagnostic d))
        diagnostics (p.model.addDiagnostics diagnostics).2 := by
  intro diagnostics
  induction diagnostics with
  | nil => exact fun sound => ⟨.refl sound, .nil⟩
  | cons diagnostic rest ih =>
    intro p sound
    have head : p.Bears start { p with model := (p.model.addDiagnostic diagnostic).1 }
        (.diagnostic diagnostic) (p.model.addDiagnostic diagnostic).2 := by
      have model : ({ p with model := (p.model.addDiagnostic diagnostic).1 } : Planting).model =
        (p.model.addDiagnostic diagnostic).1 := rfl
      refine (Grows.refl sound).bears_add (isNew_of_childless rfl) model rfl ?_
      exact (Model.has_add ..).shape?
    obtain ⟨grows, tail⟩ := ih head.grows.sound
    refine ⟨head.grows.trans grows, .cons (head.later (Standing.isCarried_diagnostic _) grows) ?_⟩
    exact tail.imp fun _ _ bears => bears.earlier head.grows

/-- The node of a number is the grammar of a document with the given imports. -/
def Document.StandsAt (document : Document) (imports : List NodeId)
    (I : Interpretation Json Reference) (m : Model) (id : NodeId) : Prop :=
  ∃ rules interfaces types diagnostics,
    m.grammar? id = some ⟨.value document.name, .ofNodes rules, .ofNodes (interfaces ++ types),
      .ofNodes imports, .ofNodes diagnostics, .nothing⟩ ∧
    List.Forall₂ (fun rule => Standing.rule rule.production I m) document.rules rules ∧
    List.Forall₂ (fun d => Standing.declaration d I m) document.interfaces interfaces ∧
    List.Forall₂ (fun d => Standing.declaration d I m) document.types types ∧
    List.Forall₂ (fun d => Standing.diagnostic d I m) document.diagnostics diagnostics

/-- A planting that starts is sound. -/
theorem Planting.sound_start (model : Model) : Planting.Sound model ⟨model, [], []⟩ :=
  ⟨fun _ nested => nested, fun _ mem => absurd mem List.not_mem_nil, List.nodup_nil⟩

/-- A document is planted as its grammar, beside the nodes that were there before. -/
theorem Document.plant_grows (document : Document) (model : Model) (imports : List NodeId) :
    (⟨model, [], []⟩ : Planting).Grows model (document.plant model imports).1 ∧
      model.nodes.length ≤ (document.plant model imports).2.index ∧
      document.StandsAt imports (.planted (document.plant model imports).1.pending)
        (document.plant model imports).1.model (document.plant model imports).2 := by
  obtain ⟨grows₁, bear₁⟩ := Planting.bears_each
    (fun rule => Standing.isCarried_rule rule.production) Rule.bears_plant "rules" document.rules 0
    (Planting.sound_start model)
  generalize made₁ : Planting.each Rule.plant "rules" 0 ⟨model, [], []⟩ document.rules = r₁
    at grows₁ bear₁
  obtain ⟨p₁, rules⟩ := r₁
  simp only at grows₁ bear₁
  obtain ⟨grows₂, bear₂⟩ := Planting.bears_each Standing.isCarried_declaration
    Declaration.bears_plant "interfaces" document.interfaces 0 grows₁.sound
  generalize made₂ : Planting.each Declaration.plant "interfaces" 0 p₁ document.interfaces = r₂
    at grows₂ bear₂
  obtain ⟨p₂, interfaces⟩ := r₂
  simp only at grows₂ bear₂
  obtain ⟨grows₃, bear₃⟩ := Planting.bears_each Standing.isCarried_declaration
    Declaration.bears_plant "types" document.types 0 grows₂.sound
  generalize made₃ : Planting.each Declaration.plant "types" 0 p₂ document.types = r₃
    at grows₃ bear₃
  obtain ⟨p₃, types⟩ := r₃
  simp only at grows₃ bear₃
  obtain ⟨grows₄, bear₄⟩ := Model.bears_addDiagnostics document.diagnostics grows₃.sound
  generalize made₄ : p₃.model.addDiagnostics document.diagnostics = r₄ at grows₄ bear₄
  obtain ⟨m₄, diagnostics⟩ := r₄
  simp only at grows₄ bear₄
  let grammar : Grammar := ⟨.value document.name, .ofNodes rules, .ofNodes (interfaces ++ types),
    .ofNodes imports, .ofNodes diagnostics, .nothing⟩
  let node : Node := .ofShape (.grammar grammar) .nothing
  have made : document.plant model imports =
      ({ p₃ with model := (m₄.add node).1 }, (m₄.add node).2) := by
    simp only [Document.plant, made₁, made₂, made₃, made₄, node, grammar]
  rw [made]
  -- Everything that was planted is still there when the grammar is added.
  have rulesStand := bear₁.imp fun rule _ bears =>
    bears.later (Standing.isCarried_rule rule.production) (grows₂.trans (grows₃.trans grows₄))
  have interfacesStand := bear₂.imp fun d _ bears =>
    (bears.earlier grows₁).later (Standing.isCarried_declaration d) (grows₃.trans grows₄)
  have typesStand := bear₃.imp fun d _ bears =>
    (bears.earlier (grows₁.trans grows₂)).later (Standing.isCarried_declaration d) grows₄
  have contains : node.shape.children.items = rules ++ (interfaces ++ types) :=
    congrArg Emission.items (Shape.children_grammar rfl rfl)
  have new : ∀ child ∈ node.shape.children.items,
      Planting.IsNew model ⟨model, [], []⟩ { p₃ with model := m₄ } child := by
    intro child mem
    rw [contains, List.mem_append, List.mem_append] at mem
    rcases mem with rule | interface | type
    · exact isNew_of_mem rulesStand rule
    · exact isNew_of_mem interfacesStand interface
    · exact isNew_of_mem typesStand type
  have grows := grows₁.trans (grows₂.trans (grows₃.trans grows₄))
  have isModel : ({ p₃ with model := (m₄.add node).1 } : Planting).model = (m₄.add node).1 := rfl
  have bears := grows.bears_add new isModel rfl (S := document.StandsAt imports) ?_
  · exact ⟨bears.grows, bears.new, bears.stands⟩
  · have carries := carries_add p₃.pending m₄ node
    refine ⟨rules, interfaces, types, diagnostics, ?_, ?_, ?_, ?_, ?_⟩
    · exact Model.grammar?_eq_some.mpr (Model.has_add m₄ node).shape?
    · exact rulesStand.imp fun rule _ bears =>
        Standing.isCarried_rule rule.production _ _ _ _ _ carries bears.stands
    · exact interfacesStand.imp fun d _ bears =>
        Standing.isCarried_declaration d _ _ _ _ _ carries bears.stands
    · exact typesStand.imp fun d _ bears =>
        Standing.isCarried_declaration d _ _ _ _ _ carries bears.stands
    · exact bear₄.imp fun d _ bears =>
        Standing.isCarried_diagnostic d _ _ _ _ _ carries bears.stands

end GrammarChart
