import Mathlib
import GrammarChart.Model.Multiplicity

/-!
# The way up to a rule

`Model.Way` follows the containers of a node up to the rule that it stands in. There is only one
way from a node (`Way.unique`), so no node is met twice on it, and no way is longer than the model
has nodes (`Way.length_lt`). The climb of the model therefore meets the whole way
(`climb_of_way`): the owner of an element is the rule at the end of its way, and the nodes that
enclose it are the nodes on it.
-/

set_option autoImplicit false

namespace GrammarChart.Model

variable {m : Model} {rule : NodeId}

/-- The nodes from a node up to a rule, the node itself first and the rule left out. Each of them
has the next one as its container, and none of them is a rule. -/
inductive Way (m : Model) (rule : NodeId) : NodeId → List NodeId → Prop where
  | rule (h : m.nodeIs Node.isRule rule = true) : Way m rule rule []
  | step {id parent : NodeId} {path : List NodeId} {node : Node} (found : m.node? id = some node)
      (element : node.isRule = false) (stands : node.container = some (.node parent))
      (rest : Way m rule parent path) : Way m rule id (id :: path)

namespace Way

/-- The end of every way is a rule. -/
theorem isRule_end {id : NodeId} {path : List NodeId} (h : m.Way rule id path) :
    m.nodeIs Node.isRule rule = true := by
  induction h with
  | rule h => exact h
  | step _ _ _ _ ih => exact ih

/-- No node on a way is a rule. -/
theorem isRule_of_mem {id a : NodeId} {path : List NodeId} (h : m.Way rule id path)
    (mem : a ∈ path) : m.nodeIs Node.isRule a = false := by
  induction h with
  | rule _ => simp at mem
  | step found element _ _ ih =>
    rcases List.mem_cons.mp mem with rfl | later
    · simp [nodeIs, found, element]
    · exact ih later

/-- The nodes on a way are nodes of the model. -/
theorem lt_of_mem {id a : NodeId} {path : List NodeId} (h : m.Way rule id path)
    (mem : a ∈ path) : a.index < m.nodes.length := by
  induction h with
  | rule _ => simp at mem
  | step found _ _ _ ih =>
    rcases List.mem_cons.mp mem with rfl | later
    · obtain ⟨bound, -⟩ := List.getElem?_eq_some_iff.mp found
      exact bound
    · exact ih later

/-- From a node there is at most one way to a rule. -/
theorem unique {id : NodeId} {path other : List NodeId} (h : m.Way rule id path)
    (k : m.Way rule id other) : path = other := by
  induction h generalizing other with
  | rule isRule =>
    cases k with
    | rule _ => rfl
    | step found element _ _ => simp [nodeIs, found, element] at isRule
  | step found element stands _ ih =>
    cases k with
    | rule isRule => simp [nodeIs, found, element] at isRule
    | step found' _ stands' rest' =>
      rw [found] at found'
      cases found'
      rw [stands] at stands'
      cases stands'
      rw [ih rest']

/-- From every node on a way the rest of the way leads on. -/
theorem of_mem {id a : NodeId} {path : List NodeId} (h : m.Way rule id path) (mem : a ∈ path) :
    ∃ before rest, path = before ++ rest ∧ m.Way rule a rest := by
  induction h with
  | rule _ => simp at mem
  | @step id parent path node found element stands rest ih =>
    rcases List.mem_cons.mp mem with rfl | later
    · exact ⟨[], a :: path, rfl, .step found element stands rest⟩
    · obtain ⟨before, after, rfl, way⟩ := ih later
      exact ⟨id :: before, after, rfl, way⟩

/-- No node is met twice on a way: from it there would be two ways of different length. -/
theorem nodup {id : NodeId} {path : List NodeId} (h : m.Way rule id path) : path.Nodup := by
  induction h with
  | rule _ => exact List.nodup_nil
  | @step id parent path node found element stands rest ih =>
    refine List.nodup_cons.mpr ⟨?_, ih⟩
    intro again
    obtain ⟨before, after, split, way⟩ := rest.of_mem again
    have same : id :: path = after := (Way.step found element stands rest).unique way
    have longer := congrArg List.length split
    rw [← same] at longer
    simp only [List.length_append, List.length_cons] at longer
    omega

/-- A way and the rule at its end are different nodes of the model. -/
theorem length_lt {id : NodeId} {path : List NodeId} (h : m.Way rule id path) :
    path.length < m.nodes.length := by
  have fresh : rule ∉ path := by
    intro mem
    have no := h.isRule_of_mem mem
    rw [h.isRule_end] at no
    simp at no
  have ruleBound : rule.index < m.nodes.length := by
    have isRule := h.isRule_end
    simp only [nodeIs, Option.any_eq_true] at isRule
    obtain ⟨node, found, -⟩ := isRule
    obtain ⟨bound, -⟩ := List.getElem?_eq_some_iff.mp found
    exact bound
  have distinct : ((rule :: path).map NodeId.index).Nodup := by
    refine (List.nodup_cons.mpr ⟨fresh, h.nodup⟩).map ?_
    intro a b same
    cases a
    cases b
    exact congrArg NodeId.mk same
  have inside : (rule :: path).map NodeId.index ⊆ List.range m.nodes.length := by
    intro i mem
    obtain ⟨a, ha, rfl⟩ := List.mem_map.mp mem
    rcases List.mem_cons.mp ha with rfl | later
    · exact List.mem_range.mpr ruleBound
    · exact List.mem_range.mpr (h.lt_of_mem later)
  have count := (List.subperm_of_subset distinct inside).length_le
  simp only [List.map_cons, List.length_cons, List.length_map, List.length_range] at count
  omega

end Way

/-- A climb with enough steps meets the whole way and then the rule. -/
theorem climb_of_way {id : NodeId} {path : List NodeId} (h : m.Way rule id path) {steps : Nat}
    (enough : path.length < steps) :
    ∃ above, m.climb steps (.node id) = path ++ rule :: above := by
  induction h generalizing steps with
  | rule isRule =>
    obtain ⟨steps, rfl⟩ : ∃ k, steps = k + 1 := ⟨steps - 1, by simp at enough; omega⟩
    simp only [nodeIs, Option.any_eq_true] at isRule
    obtain ⟨node, found, -⟩ := isRule
    exact ⟨m.climb steps (node.container.getD .nothing), by simp [climb, found]⟩
  | @step id parent path node found _ stands _ ih =>
    obtain ⟨steps, rfl⟩ : ∃ k, steps = k + 1 := ⟨steps - 1, by simp at enough; omega⟩
    simp only [List.length_cons] at enough
    obtain ⟨above, climbed⟩ := ih (show path.length < steps by omega)
    exact ⟨above, by simp [climb, found, stands, climbed]⟩

/-- The nodes that an element stands in start with the way of its container. -/
theorem ancestors_of_way {id : NodeId} {path : List NodeId} (h : m.Way rule id (id :: path)) :
    ∃ above, m.ancestors id = path ++ rule :: above := by
  have short := h.length_lt
  cases h with
  | @step _ parent _ node found element stands rest =>
    simp only [List.length_cons] at short
    obtain ⟨above, climbed⟩ := climb_of_way rest (show path.length < m.nodes.length by omega)
    exact ⟨above, by simp [ancestors, found, stands, climbed]⟩

/-- The owner of an element is the rule at the end of its way. -/
theorem ownerRule_of_way {id : NodeId} {path : List NodeId} (h : m.Way rule id (id :: path)) :
    m.ownerRule id = .ok rule := by
  obtain ⟨above, met⟩ := ancestors_of_way h
  have none : path.find? (m.nodeIs Node.isRule) = none := by
    rw [List.find?_eq_none]
    intro a mem
    simp [h.isRule_of_mem (List.mem_cons_of_mem id mem)]
  simp [ownerRule, met, List.find?_append, none, h.isRule_end]

/-- The nodes that enclose an element within its rule are those on the way of its container. -/
theorem enclosing_of_way {id : NodeId} {path : List NodeId} (h : m.Way rule id (id :: path)) :
    m.enclosing id = path := by
  obtain ⟨above, met⟩ := ancestors_of_way h
  rw [enclosing, met, List.takeWhile_append_of_pos]
  · simp [h.isRule_end]
  · intro a mem
    simp [h.isRule_of_mem (List.mem_cons_of_mem id mem)]

/-- One node stands directly in another one. -/
def IsChild (m : Model) (parent child : NodeId) : Prop :=
  ∃ shape, m.shape? parent = some shape ∧ child ∈ shape.children.items

/-- Every node below the given one has the node that it stands in as its container. -/
def NestedBelow (m : Model) (root : NodeId) : Prop :=
  ∀ parent child, Relation.ReflTransGen m.IsChild root parent → m.IsChild parent child →
    m.containerOf child = .ok (.node parent)

/-- The container of a child is its parent. -/
theorem NestedBelow.containerOf {parent child : NodeId} (h : m.NestedBelow parent)
    (stands : m.IsChild parent child) : m.containerOf child = .ok (.node parent) :=
  h parent child .refl stands

/-- What is below a child is below its parent. -/
theorem NestedBelow.child {parent child : NodeId} (h : m.NestedBelow parent)
    (stands : m.IsChild parent child) : m.NestedBelow child := by
  intro a b below step
  exact h a b (.head stands below) step

/-- A container that can be asked for is the one that the node has. -/
theorem node?_of_containerOf {id : NodeId} {container : Item}
    (h : m.containerOf id = .ok container) :
    ∃ node, m.node? id = some node ∧ node.container = some container := by
  unfold Model.containerOf at h
  split at h
  · next found =>
    simp only [Except.ok.injEq] at h
    subst h
    exact Option.bind_eq_some_iff.mp found
  · simp at h

/-- Every node of the model that stands in another one has it as its container. -/
def isNested (m : Model) : Bool :=
  (List.range m.nodes.length).all fun i =>
    ((m.shape? ⟨i⟩).toList.flatMap fun shape => shape.children.items).all fun child =>
      (((m.node? child).bind Node.container).bind Item.node?) == some ⟨i⟩

/-- Where all that is contained knows its container, so does all that is below a node. -/
theorem nestedBelow_of_isNested (nested : m.isNested) (root : NodeId) : m.NestedBelow root := by
  rintro ⟨i⟩ child - ⟨shape, found, mem⟩
  obtain ⟨node, here, -⟩ := Option.map_eq_some_iff.mp found
  obtain ⟨bound, -⟩ := List.getElem?_eq_some_iff.mp here
  have own := List.all_eq_true.mp (List.all_eq_true.mp nested i (List.mem_range.mpr bound)) child
    (by simpa [found] using mem)
  simp only [beq_iff_eq, Option.bind_eq_some_iff] at own
  obtain ⟨container, stands, isNode⟩ := own
  have same : container = .node ⟨i⟩ := by
    cases container with
    | node id =>
      cases isNode
      rfl
    | value _ | list _ => simp [Item.node?] at isNode
  subst same
  have asked : (m.node? child).bind Node.container = some (.node ⟨i⟩) :=
    Option.bind_eq_some_iff.mpr stands
  rw [containerOf, asked]

end GrammarChart.Model
