import GrammarChart.Proofs.Model.Standing

/-!
# Growing models

A model grows by adding a node, which adopts its children, and it changes by binding references and
by renaming grammars. None of this moves a tree that stands (`Model.Extends`,
`Phrase.standsAt_of_carries`). Containers stay right as well: `Model.Nested` says that every node
has what it stands in as its container, and `Model.NestedFrom` says it of the nodes from a number
on, whatever the ones before are like. Adding a node keeps both as long as the children of the node
are free, that is, stand in nothing yet (`NestedFrom.add`). Binding and renaming leave containers
and children alone (`containsAlike_update`).
-/

set_option autoImplicit false

namespace GrammarChart

/-- Nodes of this shape stay as they were made. A reference is bound later on, and a grammar may be
renamed. -/
def Shape.isSettled : Shape → Bool
  | .reference _ => false
  | .grammar _ => false
  | _ => true

namespace Model

variable {m m' m'' : Model}

/-- The settled nodes of one model are nodes of another one. -/
def Extends (m m' : Model) : Prop :=
  ∀ id shape mark, shape.isSettled = true → m.Has id shape mark →
    m'.Has id shape mark ∧ m'.kindName (.node id) = m.kindName (.node id)

namespace Extends

/-- A model extends itself. -/
theorem refl (m : Model) : m.Extends m := fun _ _ _ _ has => ⟨has, rfl⟩

/-- What extends an extension extends the model. -/
theorem trans (h : m.Extends m') (k : m'.Extends m'') : m.Extends m'' := by
  intro id shape mark settled has
  obtain ⟨has', named⟩ := h id shape mark settled has
  obtain ⟨has'', named'⟩ := k id shape mark settled has'
  exact ⟨has'', named'.trans named⟩

/-- A model extends another one when it has its nodes, up to their containers. -/
theorem of_nodes (h : ∀ id node, m.node? id = some node → node.shape.isSettled = true →
    ∃ node', m'.node? id = some node' ∧ node'.shape = node.shape ∧
      node'.cardinality = node.cardinality ∧ node'.special = node.special) : m.Extends m' := by
  rintro id shape mark settled ⟨node, found, rfl, rfl⟩
  obtain ⟨node', found', shape, mark, special⟩ := h id node found settled
  refine ⟨⟨node', found', shape, mark⟩, ?_⟩
  simp [kindName, found, found', Node.kindName, shape, special]

end Extends

/-- A model that goes on with further nodes has the nodes of the model. -/
theorem node?_of_isPrefix (h : m.nodes <+: m'.nodes) {id : NodeId} {node : Node}
    (found : m.node? id = some node) : m'.node? id = some node := by
  obtain ⟨more, same⟩ := h
  obtain ⟨bound, -⟩ := List.getElem?_eq_some_iff.mp found
  rw [node?, ← same, List.getElem?_append_left bound]
  exact found

/-- A model that goes on with further nodes extends the model. -/
theorem extends_of_isPrefix (h : m.nodes <+: m'.nodes) : m.Extends m' :=
  Extends.of_nodes fun _ node found _ => ⟨node, node?_of_isPrefix h found, rfl, rfl, rfl⟩

/-- A node that is there has a number below the number of nodes. -/
theorem lt_of_shape? {id : NodeId} {shape : Shape} (h : m.shape? id = some shape) :
    id.index < m.nodes.length := by
  obtain ⟨node, found, -⟩ := Option.map_eq_some_iff.mp h
  obtain ⟨bound, -⟩ := List.getElem?_eq_some_iff.mp found
  exact bound

/-- Every node that stands in another one has it as its container. -/
def Nested (m : Model) : Prop :=
  ∀ {parent child : NodeId}, m.IsChild parent child → m.containerOf child = .ok (.node parent)

/-- Whatever stands in a node is a node of the model. -/
def IsClosed (m : Model) : Prop :=
  ∀ {parent child : NodeId}, m.IsChild parent child → child.index < m.nodes.length

/-- The model is closed, and every node from the number on that stands in another one has it as its
container. -/
structure NestedFrom (m : Model) (first : Nat) : Prop where
  closed : m.IsClosed
  container : ∀ {parent child : NodeId}, m.IsChild parent child → first ≤ child.index →
    m.containerOf child = .ok (.node parent)

/-- The node stands in no other one. -/
def IsFree (m : Model) (id : NodeId) : Prop :=
  ∀ parent, ¬ m.IsChild parent id

/-- Where all nodes have the right container, so have those below a node. -/
theorem Nested.below (h : m.Nested) (root : NodeId) : m.NestedBelow root :=
  fun _ _ _ contained => h contained

/-- What stands in a node is a node of the model. -/
theorem Nested.lt (h : m.Nested) {parent child : NodeId} (contained : m.IsChild parent child) :
    child.index < m.nodes.length := by
  obtain ⟨node, found, -⟩ := node?_of_containerOf (h contained)
  obtain ⟨bound, -⟩ := List.getElem?_eq_some_iff.mp found
  exact bound

/-- Where all nodes have the right container, so have those from the first number on. -/
theorem nestedFrom_zero : m.NestedFrom 0 ↔ m.Nested := by
  constructor
  · intro h parent child contained
    exact h.container contained (Nat.zero_le _)
  · intro h
    exact ⟨h.lt, fun contained _ => h contained⟩

/-- A closed model has no node behind its last one that could have a wrong container. -/
theorem IsClosed.nestedFrom (h : m.IsClosed) : m.NestedFrom m.nodes.length where
  closed := h
  container := by
    intro parent child contained beyond
    have := h contained
    omega

/-- The model without any node is nested. -/
theorem nested_empty : empty.Nested := by
  rintro parent child ⟨shape, found, -⟩
  simp [shape?, node?, empty] at found

/-- In two models the same stands in the same, and the nodes have the same containers. -/
structure ContainsAlike (m m' : Model) : Prop where
  size : m'.nodes.length = m.nodes.length
  children : ∀ {parent child : NodeId}, m'.IsChild parent child ↔ m.IsChild parent child
  container : ∀ child, m'.containerOf child = m.containerOf child

namespace ContainsAlike

/-- A model contains what it contains. -/
theorem refl (m : Model) : m.ContainsAlike m := ⟨rfl, .rfl, fun _ => rfl⟩

/-- Two changes that leave alone what stands in what. -/
theorem trans (h : m.ContainsAlike m') (k : m'.ContainsAlike m'') : m.ContainsAlike m'' where
  size := k.size.trans h.size
  children := k.children.trans h.children
  container := fun child => (k.container child).trans (h.container child)

/-- Where the same stands in the same, containers stay right. -/
theorem nestedFrom (h : m.ContainsAlike m') {first : Nat} (nested : m.NestedFrom first) :
    m'.NestedFrom first where
  closed := by
    intro parent child contained
    rw [h.size]
    exact nested.closed (h.children.mp contained)
  container := by
    intro parent child contained late
    rw [h.container]
    exact nested.container (h.children.mp contained) late

/-- Where the same stands in the same, a nested model stays nested. -/
theorem nested (h : m.ContainsAlike m') (nested : m.Nested) : m'.Nested :=
  nestedFrom_zero.mp (h.nestedFrom (nestedFrom_zero.mpr nested))

end ContainsAlike

section Add

variable {node : Node}

/-- The number of an added node. -/
theorem snd_add (m : Model) (node : Node) : (m.add node).2 = ⟨m.nodes.length⟩ := rfl

/-- What adding a node does to the nodes: those that it contains get it as their container. -/
theorem node?_add (m : Model) (node : Node) (id : NodeId) :
    (m.add node).1.node? id =
      if id ∈ node.shape.children.items then
        (Model.mk (m.nodes ++ [node])).node? id |>.map
          ({ · with container := some (.node ⟨m.nodes.length⟩) })
      else (Model.mk (m.nodes ++ [node])).node? id :=
  node?_adoptAll ..

/-- An added node is one node more. -/
theorem length_add (m : Model) (node : Node) :
    (m.add node).1.nodes.length = m.nodes.length + 1 := by
  have adopted : ∀ (children : List NodeId) (m : Model) (parent : NodeId),
      (m.adoptAll parent children).nodes.length = m.nodes.length := by
    intro children
    induction children with
    | nil => intro m parent; rfl
    | cons child rest ih =>
      intro m parent
      have step : m.adoptAll parent (child :: rest) = (m.adopt parent child).adoptAll parent rest :=
        rfl
      rw [step, ih]
      simp [adopt, update]
  simp [add, adopted]

/-- Adding a node changes no shape and adds that of the node. -/
theorem shape?_add (m : Model) (node : Node) (id : NodeId) :
    (m.add node).1.shape? id =
      if id = ⟨m.nodes.length⟩ then some node.shape else m.shape? id := by
  have grown : ((Model.mk (m.nodes ++ [node])).node? id).map Node.shape =
      if id = ⟨m.nodes.length⟩ then some node.shape else m.shape? id := by
    obtain ⟨i⟩ := id
    simp only [node?, shape?, NodeId.mk.injEq, List.getElem?_append]
    by_cases before : i < m.nodes.length
    · have other : i ≠ m.nodes.length := by omega
      simp [before, other]
    · by_cases new : i = m.nodes.length
      · simp [new]
      · have beyond : ([node] : List Node)[i - m.nodes.length]? = none :=
          List.getElem?_eq_none (by simp only [List.length_singleton]; omega)
        simp [before, new, beyond]
  rw [shape?, node?_add]
  split
  · rw [Option.map_map]
    exact grown
  · exact grown

/-- An added node contains its children, and every other node what it contained. -/
theorem isChild_add {parent child : NodeId} : (m.add node).1.IsChild parent child ↔
    if parent = ⟨m.nodes.length⟩ then child ∈ node.shape.children.items
    else m.IsChild parent child := by
  unfold IsChild
  rw [shape?_add]
  split
  · simp
  · rfl

/-- An added node stands in nothing. -/
theorem isFree_snd_add (h : m.IsClosed)
    (bounded : ∀ child ∈ node.shape.children.items, child.index < m.nodes.length) :
    (m.add node).1.IsFree (m.add node).2 := by
  intro parent contained
  rw [isChild_add, snd_add] at contained
  split at contained
  · have := bounded _ contained
    simp at this
  · have := h contained
    simp at this

/-- Adding a node leaves alone what it does not contain. -/
theorem node?_add_of_not_mem {id : NodeId} (bound : id.index < m.nodes.length)
    (fresh : id ∉ node.shape.children.items) : (m.add node).1.node? id = m.node? id := by
  rw [node?_add, if_neg fresh]
  exact List.getElem?_append_left bound

/-- An added node gets the nodes that it contains as their container. -/
theorem containerOf_add {child : NodeId} (bound : child.index < m.nodes.length) :
    (m.add node).1.containerOf child =
      if child ∈ node.shape.children.items then .ok (.node ⟨m.nodes.length⟩)
      else m.containerOf child := by
  have old : (Model.mk (m.nodes ++ [node])).node? child = m.node? child :=
    List.getElem?_append_left bound
  obtain ⟨found, same⟩ : ∃ found, m.node? child = some found :=
    ⟨_, List.getElem?_eq_getElem bound⟩
  unfold containerOf
  rw [node?_add, old, same]
  by_cases mem : child ∈ node.shape.children.items
  · rw [if_pos mem, if_pos mem]
    rfl
  · rw [if_neg mem, if_neg mem]

/-- Adding a node keeps containers right when what the node contains stood in nothing before. -/
theorem NestedFrom.add {first : Nat} (h : m.NestedFrom first)
    (free : ∀ child ∈ node.shape.children.items, child.index < m.nodes.length ∧ m.IsFree child) :
    (m.add node).1.NestedFrom first where
  closed := by
    intro parent child contained
    rw [isChild_add] at contained
    rw [length_add]
    split at contained
    · have := (free child contained).1
      omega
    · have := h.closed contained
      omega
  container := by
    intro parent child contained late
    rw [isChild_add] at contained
    split at contained
    · next new =>
      rw [containerOf_add (free child contained).1, if_pos contained, new]
    · have fresh : child ∉ node.shape.children.items := fun mem =>
        (free child mem).2 parent contained
      rw [containerOf_add (h.closed contained), if_neg fresh, h.container contained late]

/-- Adding a node keeps a model nested when what the node contains stood in nothing before. -/
theorem nested_add (h : m.Nested) (free : ∀ child ∈ node.shape.children.items,
    child.index < m.nodes.length ∧ m.IsFree child) : (m.add node).1.Nested :=
  nestedFrom_zero.mp ((nestedFrom_zero.mpr h).add free)

/-- A model extends the one before a node was added. -/
theorem extends_add (m : Model) (node : Node) : m.Extends (m.add node).1 := by
  refine Extends.of_nodes fun id found here _ => ?_
  obtain ⟨bound, -⟩ := List.getElem?_eq_some_iff.mp here
  have old : (Model.mk (m.nodes ++ [node])).node? id = some found := by
    rw [node?, List.getElem?_append_left bound]
    exact here
  rw [node?_add, old]
  split
  · exact ⟨_, rfl, rfl, rfl, rfl⟩
  · exact ⟨found, rfl, rfl, rfl, rfl⟩

/-- An added node has its shape and its mark. -/
theorem has_add (m : Model) (node : Node) :
    (m.add node).1.Has (m.add node).2 node.shape node.cardinality := by
  have new : (Model.mk (m.nodes ++ [node])).node? ⟨m.nodes.length⟩ = some node := by
    simp [node?]
  rw [snd_add]
  unfold Has
  rw [node?_add, new]
  split
  · exact ⟨_, rfl, rfl, rfl⟩
  · exact ⟨node, rfl, rfl, rfl⟩

end Add

section Update

variable {id : NodeId} {change : Node → Node}

/-- A change that leaves the containers and the children of nodes alone leaves alone what stands in
what. -/
theorem containsAlike_update (m : Model) (id : NodeId)
    (container : ∀ node, (change node).container = node.container)
    (children : ∀ node, (change node).shape.children = node.shape.children) :
    m.ContainsAlike (m.update id change) where
  size := List.length_modify ..
  children := by
    intro parent child
    have same : ((m.update id change).shape? parent).map Shape.children =
        (m.shape? parent).map Shape.children := by
      rw [shape?, shape?, node?_update]
      split
      · simp only [Option.map_map, Function.comp_def, children]
      · rfl
    have contains : ∀ model : Model, model.IsChild parent child ↔
        ∃ below, (model.shape? parent).map Shape.children = some below ∧ child ∈ below.items := by
      intro model
      simp only [IsChild, Option.map_eq_some_iff, exists_exists_and_eq_and]
    rw [contains, contains, same]
  container := by
    intro child
    have stays : ((m.update id change).node? child).bind Node.container =
        (m.node? child).bind Node.container := by
      rw [node?_update]
      split
      · cases m.node? child <;> simp [container]
      · rfl
    unfold containerOf
    rw [stays]

/-- A change that leaves containers and children alone keeps a model nested. -/
theorem nested_update (h : m.Nested) (container : ∀ node, (change node).container = node.container)
    (children : ∀ node, (change node).shape.children = node.shape.children) :
    (m.update id change).Nested :=
  (m.containsAlike_update id container children).nested h

/-- A change that leaves all settled nodes alone extends a model. -/
theorem extends_update
    (keeps : ∀ node : Node, node.shape.isSettled = true → change node = node) :
    m.Extends (m.update id change) := by
  refine Extends.of_nodes fun other node found settled => ?_
  refine ⟨node, ?_, rfl, rfl, rfl⟩
  rw [node?_update, found]
  split
  · rw [Option.map_some, keeps node settled]
  · rfl

end Update

end Model
/-- Lists that go together still do under a relation that holds wherever the first one held. -/
theorem forall₂_imp_of_mem {α β : Type} {R S : α → β → Prop} {xs : List α} {ys : List β}
    (imp : ∀ x ∈ xs, ∀ y, R x y → S x y) (h : List.Forall₂ R xs ys) : List.Forall₂ S xs ys := by
  induction h with
  | nil => exact .nil
  | @cons x y xs ys head _ ih =>
    refine .cons (imp x List.mem_cons_self y head) (ih ?_)
    intro x' mem
    exact imp x' (List.mem_cons_of_mem x mem)

/-- Searches of lists that go together, for members with properties that agree, end alike. -/
theorem find?_of_forall₂ {α β : Type} {R : α → β → Prop} {p : α → Bool} {q : β → Bool}
    {xs : List α} {ys : List β} (h : List.Forall₂ R xs ys) (same : ∀ x y, R x y → p x = q y) :
    (xs.find? p = none ∧ ys.find? q = none) ∨
      ∃ x y, xs.find? p = some x ∧ ys.find? q = some y ∧ R x y := by
  induction h with
  | nil => exact .inl ⟨rfl, rfl⟩
  | @cons x y xs ys head _ ih =>
    rw [List.find?_cons, List.find?_cons, same x y head]
    cases q y with
    | true => exact .inr ⟨x, y, rfl, rfl, head⟩
    | false => exact ih

variable {φ ρ : Type} {I I' : Interpretation φ ρ} {m m' : Model}

/-- What stands in one model stands in another one: its words are the same, its settled nodes are
there, and its references still are what they were. -/
structure Interpretation.Carries (I : Interpretation φ ρ) (m : Model) (I' : Interpretation φ ρ)
    (m' : Model) : Prop where
  word : I'.word = I.word
  extension : m.Extends m'
  leads : ∀ place reference, I.leads m place reference → I'.leads m' place reference

namespace Interpretation.Carries

/-- A word that may be missing is the same. -/
theorem item?_eq (h : I.Carries m I' m') (word : Option φ) : I'.item? word = I.item? word := by
  cases word with
  | none => rfl
  | some word => rw [item?, item?, item, item, h.word]

/-- A settled node is there. -/
theorem has (h : I.Carries m I' m') {id : NodeId} {shape : Shape} {mark : Item}
    (settled : shape.isSettled = true) (here : m.Has id shape mark) : m'.Has id shape mark :=
  (h.extension id shape mark settled here).1

/-- A settled shape is there. -/
theorem shape? (h : I.Carries m I' m') {id : NodeId} {shape : Shape}
    (settled : shape.isSettled = true) (here : m.shape? id = some shape) :
    m'.shape? id = some shape := by
  obtain ⟨node, found, same⟩ := Option.map_eq_some_iff.mp here
  exact (h.has settled ⟨node, found, same, rfl⟩).shape?

end Interpretation.Carries

/-- A tree that stands in a model stands in every model that carries it. -/
theorem Phrase.standsAt_of_carries (h : I.Carries m I' m') (b : Phrase φ ρ) :
    ∀ {id : NodeId}, b.StandsAt I m id → b.StandsAt I' m' id := by
  have item : ∀ w, I'.item w = I.item w := fun w => h.item?_eq (some w)
  induction b using Phrase.induct with
  | step b ih =>
    have terminal : ∀ {t : Option (Phrase φ ρ)} {place}, (∀ c ∈ t.toList, c ∈ b.children) →
        Phrase.StandsIn I m t place → Phrase.StandsIn I' m' t place := by
      intro t place below stands
      cases t with
      | none => simpa only [StandsIn] using stands
      | some t =>
        obtain ⟨id, rfl, stands⟩ := stands
        exact ⟨id, rfl, ih t (below t (by simp)) stands⟩
    have elements : ∀ {es : List (Phrase φ ρ)} {ids}, (∀ c ∈ es, c ∈ b.children) →
        Phrase.StandAt I m es ids → Phrase.StandAt I' m' es ids := by
      intro es ids below stand
      rw [standAt_iff] at stand ⊢
      exact forall₂_imp_of_mem (fun c mem id => ih c (below c mem)) stand
    -- What is left of each kind is its own shape, which is settled and so the same in both models.
    intro id stands
    cases b with
    | keyword value mark =>
      simp only [StandsAt, item, h.item?_eq] at stands ⊢
      exact h.has rfl stands
    | ruleCall rule mark =>
      obtain ⟨link, led, here⟩ := stands
      exact ⟨link, h.leads _ _ led, by rw [h.item?_eq]; exact h.has rfl here⟩
    | crossReference type t mark =>
      obtain ⟨link, place, led, below, here⟩ := stands
      exact ⟨link, place, h.leads _ _ led, terminal (fun c mem => mem) below, by
        rw [h.item?_eq]; exact h.has rfl here⟩
    | assignment feature operator t mark =>
      obtain ⟨place, below, here⟩ := stands
      exact ⟨place, terminal (fun c mem => mem) below, by
        rw [item, item, h.item?_eq]; exact h.has rfl here⟩
    | alternatives es mark =>
      obtain ⟨ids, below, here⟩ := stands
      exact ⟨ids, elements (fun c mem => mem) below, by rw [h.item?_eq]; exact h.has rfl here⟩
    | group es mark =>
      obtain ⟨ids, below, here⟩ := stands
      exact ⟨ids, elements (fun c mem => mem) below, by rw [h.item?_eq]; exact h.has rfl here⟩
    | action type inferredType feature operator mark =>
      cases type with
      | none =>
        simp only [StandsAt, h.item?_eq] at stands ⊢
        exact h.has rfl stands
      | some type =>
        obtain ⟨link, led, here⟩ := stands
        exact ⟨link, h.leads _ _ led, by simp only [h.item?_eq]; exact h.has rfl here⟩
    | unknown kind mark =>
      obtain ⟨named, shapeKind, here⟩ := stands
      refine ⟨?_, shapeKind, by rw [h.item?_eq]; exact h.has rfl here⟩
      rw [(h.extension _ _ _ rfl here).2, named]

/-- A rule that stands in a model stands in every model that carries it. -/
theorem Production.standsAt_of_carries (h : I.Carries m I' m') {rule : Production φ ρ} {id : NodeId}
    (stands : rule.StandsAt I m id) : rule.StandsAt I' m' id := by
  have item : ∀ w, I'.item w = I.item w := fun w => h.item?_eq (some w)
  cases rule with
  | parser name definition inferredType entry fragment =>
    obtain ⟨place, below, here⟩ := stands
    refine ⟨place, ?_, by rw [item, h.item?_eq]; exact h.shape? rfl here⟩
    cases definition with
    | none => simpa only [Phrase.StandsIn] using below
    | some b =>
      obtain ⟨body, rfl, stands⟩ := below
      exact ⟨body, rfl, b.standsAt_of_carries h stands⟩
  | terminal name regex hidden fragment =>
    simp only [StandsAt, item, h.item?_eq] at stands ⊢
    exact h.shape? rfl stands

end GrammarChart
