import GrammarChart.Proofs.Document.Addresses
import GrammarChart.Proofs.Document.Planting

/-!
# Places

Planting notes the place of every node that it makes. Hops lead through the nodes of a model as
well (`Model.descend`, `Model.partAt`), and what is noted at the position of a path is the node that
the path leads to (`Planting.Notes`), also in models that go on from the planting. Different paths
lead to different nodes.
-/

set_option autoImplicit false

namespace GrammarChart

/-- The position that a path leads to. -/
def stepsOf (path : List Hop) : Position :=
  path.flatMap Hop.steps

/-- Hops with the same steps are the same, whatever steps follow. -/
theorem Hop.steps_append_inj {a b : Hop} {s t : Position} (h : a.steps ++ s = b.steps ++ t) :
    a = b ∧ s = t := by
  cases a <;> cases b <;> simp_all [steps, field, index?]

/-- Paths that lead to the same position are the same. -/
theorem stepsOf_injective : ∀ {a b : List Hop}, stepsOf a = stepsOf b → a = b
  | [], [], _ => rfl
  | [], b :: _, h => by simp [stepsOf, Hop.steps] at h
  | a :: _, [], h => by simp [stepsOf, Hop.steps] at h
  | a :: as, b :: bs, h => by
    rw [stepsOf, stepsOf, List.flatMap_cons, List.flatMap_cons] at h
    obtain ⟨rfl, rest⟩ := Hop.steps_append_inj h
    rw [stepsOf_injective rest]

/-- The node that a hop leads to from a node of this shape. -/
def Shape.below? (shape : Shape) (hop : Hop) : Option NodeId :=
  match hop, shape with
  | .definition, .parserRule _ body _ _ _ => body.node?
  | .terminal, .assignment _ _ terminal => terminal.node?
  | .terminal, .crossReference _ terminal => terminal.node?
  | .elements index, .alternatives elements => (Model.nodesIn elements)[index]?
  | .elements index, .group elements => (Model.nodesIn elements)[index]?
  | _, _ => none

namespace Model

/-- The node that a hop leads to from a node. -/
def below? (m : Model) (id : NodeId) (hop : Hop) : Option NodeId :=
  (m.shape? id).bind fun shape => shape.below? hop

/-- The node that a path leads to from a node. -/
def descend (m : Model) : NodeId → List Hop → Option NodeId
  | id, [] => some id
  | id, hop :: rest => (m.below? id hop).bind fun child => m.descend child rest

/-- The node that a path leads to from a grammar, the given number of whose types are interfaces.
The grammar itself is no part. -/
def partAt (m : Model) (grammar : Grammar) (interfaces : Nat) : List Hop → Option NodeId
  | .rules index :: rest => (nodesIn grammar.rules)[index]?.bind fun id => m.descend id rest
  | .interfaces index :: rest =>
    ((nodesIn grammar.types).take interfaces)[index]?.bind fun id => m.descend id rest
  | .types index :: rest =>
    ((nodesIn grammar.types).drop interfaces)[index]?.bind fun id => m.descend id rest
  | _ => none

end Model

/-- How nodes are found by their paths in a model. -/
abbrev Finder := Model → List Hop → Option NodeId

namespace Finder

/-- Finds nothing. -/
def nothing : Finder := fun _ _ => none

/-- Finds what is below a node. -/
def below (id : NodeId) : Finder := fun m path => m.descend id path

/-- Finds a node at the end of the path. -/
def here (id : NodeId) : Finder := fun _ path => if path = [] then some id else none

/-- Finds with the one or else with the other. -/
def or (f g : Finder) : Finder := fun m path => (f m path).or (g m path)

/-- Finds after a hop. -/
def under (hop : Hop) (f : Finder) : Finder
  | _, [] => none
  | m, first :: rest => if first = hop then f m rest else none

/-- Finds what is below the nodes of a list, whose hops have indices from the given one on. -/
def items (hop : Nat → Hop) : Nat → List NodeId → Finder
  | _, [] => nothing
  | index, id :: ids => (under (hop index) (below id)).or (items hop (index + 1) ids)

end Finder

namespace Planting

/-- A planting goes on from another one and notes what it makes: what is noted at the position of a
path, seen from the given position, is what the path finds in models that go on from the planting,
and every node is noted once. -/
structure Notes (p p' : Planting) (position : Position) (find : Finder) : Prop where
  extension : p.model.Extends p'.model
  longer : p.model.nodes.length ≤ p'.model.nodes.length
  places : ∃ made, p'.places = p.places ++ made ∧
    (∀ entry ∈ made, p.model.nodes.length ≤ entry.2.index ∧
      entry.2.index < p'.model.nodes.length ∧ ∃ path, entry.1 = position ++ stepsOf path) ∧
    (made.map Prod.snd).Nodup ∧
    ∀ m, p'.model.Extends m → ∀ path, made.lookup (position ++ stepsOf path) = find m path

variable {p p' p'' : Planting} {position : Position} {f g : Finder}

namespace Notes

/-- A planting that notes no place finds nothing. -/
theorem of_places (extension : p.model.Extends p'.model)
    (longer : p.model.nodes.length ≤ p'.model.nodes.length) (places : p'.places = p.places) :
    p.Notes p' position Finder.nothing :=
  ⟨extension, longer, [], by rw [places, List.append_nil], by simp, List.nodup_nil,
    fun _ _ _ => rfl⟩

/-- What is found in the same way is noted. -/
theorem congr (h : p.Notes p' position f)
    (same : ∀ m, p'.model.Extends m → ∀ path, f m path = g m path) : p.Notes p' position g := by
  obtain ⟨extension, longer, made, noted, new, distinct, found⟩ := h
  refine ⟨extension, longer, made, noted, new, distinct, ?_⟩
  intro m more path
  rw [found m more path, same m more path]

/-- What is noted first and what is noted then is found with the one or else with the other. -/
theorem append (h : p.Notes p' position f) (k : p'.Notes p'' position g) :
    p.Notes p'' position (f.or g) := by
  obtain ⟨extension, longer, made, noted, new, distinct, found⟩ := h
  obtain ⟨extension', longer', made', noted', new', distinct', found'⟩ := k
  refine ⟨extension.trans extension', Nat.le_trans longer longer', made ++ made', ?_, ?_, ?_, ?_⟩
  · rw [noted', noted, List.append_assoc]
  · intro entry mem
    rcases List.mem_append.mp mem with early | late
    · obtain ⟨after, before, path⟩ := new entry early
      exact ⟨after, Nat.lt_of_lt_of_le before longer', path⟩
    · obtain ⟨after, before, path⟩ := new' entry late
      exact ⟨Nat.le_trans longer after, before, path⟩
  · rw [List.map_append, List.nodup_append]
    refine ⟨distinct, distinct', ?_⟩
    rintro a inEarly b inLate rfl
    obtain ⟨entry, early, rfl⟩ := List.mem_map.mp inEarly
    obtain ⟨entry', late, same⟩ := List.mem_map.mp inLate
    have before := (new entry early).2.1
    have after := (new' entry' late).1
    rw [same] at after
    omega
  · intro m more path
    rw [List.lookup_append, found m (extension'.trans more) path, found' m more path]
    rfl

/-- What is noted after a hop is found after the hop. -/
theorem under {hop : Hop} (h : p.Notes p' (position ++ hop.steps) f) :
    p.Notes p' position (f.under hop) := by
  obtain ⟨extension, longer, made, noted, new, distinct, found⟩ := h
  refine ⟨extension, longer, made, noted, ?_, distinct, ?_⟩
  · intro entry mem
    obtain ⟨after, before, path, same⟩ := new entry mem
    refine ⟨after, before, hop :: path, ?_⟩
    rw [same, stepsOf, stepsOf, List.flatMap_cons, List.append_assoc]
  · intro m more path
    have elsewhere : (∀ rest, path ≠ hop :: rest) →
        made.lookup (position ++ stepsOf path) = none := by
      intro other
      rw [List.lookup_eq_none_iff]
      intro entry mem
      obtain ⟨-, -, rest, same⟩ := new entry mem
      simp only [bne_iff_ne, ne_eq]
      intro here
      rw [same, List.append_assoc, List.append_cancel_left_eq] at here
      exact other rest (stepsOf_injective here)
    cases path with
    | nil => exact elsewhere fun _ => (List.cons_ne_nil _ _).symm
    | cons first rest =>
      rw [Finder.under]
      split
      · next same =>
        rw [same, ← found m more rest, stepsOf, List.flatMap_cons, ← List.append_assoc]
        rfl
      · next other =>
        refine elsewhere fun rest' same => other ?_
        rw [List.cons.injEq] at same
        exact same.1

/-- A node that is planted is found at its position, besides what was found before. -/
theorem node (h : p.Notes p' position f) (node : Node) :
    p.Notes (p'.node position node).1 position (f.or (.here (p'.node position node).2)) := by
  refine h.append ⟨Model.extends_add p'.model node, ?_, [(position, (p'.node position node).2)],
    rfl, ?_, List.nodup_singleton _, ?_⟩
  · exact (Model.length_add p'.model node).symm ▸ Nat.le_succ _
  · intro entry mem
    rw [List.mem_singleton] at mem
    subst mem
    refine ⟨Nat.le_refl _, ?_, [], (List.append_nil position).symm⟩
    have longer := Model.length_add p'.model node
    exact longer.symm ▸ Nat.lt_succ_self _
  · intro m more path
    rw [Finder.here]
    by_cases last : path = []
    · subst last
      simp [stepsOf]
    · have other : position ++ stepsOf path ≠ position := by
        intro same
        have nowhere : stepsOf path = stepsOf [] := by simpa [stepsOf] using same
        exact last (stepsOf_injective nowhere)
      simp [last, other]

/-- A reference is planted at no place. -/
theorem link (h : p.Notes p' position f) (reference : Reference) :
    p.Notes (p'.link reference).1 position f := by
  have nothing : p'.Notes (p'.link reference).1 position Finder.nothing := by
    refine .of_places (Model.extends_add _ _) ?_ rfl
    exact (Model.length_add _ _).symm ▸ Nat.le_succ _
  refine (h.append nothing).congr fun m _ path => ?_
  exact Option.or_none

end Notes

/-- Paths that find the same node are the same. -/
theorem Notes.injective (h : p.Notes p' position f) {m : Model} (more : p'.model.Extends m)
    {a b : List Hop} {id : NodeId} (first : f m a = some id) (second : f m b = some id) :
    a = b := by
  obtain ⟨-, -, made, -, -, distinct, found⟩ := h
  have noted : ∀ path, f m path = some id → (position ++ stepsOf path, id) ∈ made := by
    intro path isFound
    rw [← found m more path, List.lookup_eq_some_iff] at isFound
    obtain ⟨before, after, split, -⟩ := isFound
    rw [split]
    simp
  have same := List.inj_on_of_nodup_map distinct (noted a first) (noted b second) rfl
  rw [Prod.mk.injEq, List.append_cancel_left_eq] at same
  exact stepsOf_injective same.1

/-- A planting goes on from itself. -/
theorem notes_refl (p : Planting) (position : Position) : p.Notes p position Finder.nothing :=
  .of_places (.refl p.model) (Nat.le_refl _) rfl

end Planting

/-- The hops from a settled node that was planted lead on in models that go on. -/
theorem Planting.below?_node {p : Planting} {position : Position} {node : Node} {m : Model}
    (settled : node.shape.isSettled = true) (more : (p.node position node).1.model.Extends m)
    (hop : Hop) : m.below? (p.node position node).2 hop = node.shape.below? hop := by
  have shape := (more _ _ _ settled (p.has_node position node)).1.shape?
  rw [Model.below?, shape, Option.bind_some]

namespace Finder

variable {f : Finder} {m : Model} {id : NodeId}

attribute [local simp] items under or here below Model.descend

/-- What is found below a node is the node itself, and what hops from it lead to. -/
theorem or_here (nothing : f m [] = none)
    (further : ∀ hop rest, f m (hop :: rest) = (m.below? id hop).bind fun child =>
      m.descend child rest) (path : List Hop) : f.or (here id) m path = below id m path := by
  cases path with
  | nil => simp [nothing]
  | cons hop rest => simp [further]

/-- Below a node from which no hop leads on, there is only the node. -/
theorem nothing_or_here (nowhere : ∀ hop, m.below? id hop = none) (path : List Hop) :
    nothing.or (here id) m path = below id m path :=
  or_here rfl (fun hop rest => by rw [nowhere]; rfl) path

/-- Below a node from which one hop leads on, there is the node and what is below that hop. -/
theorem under_or_here {hop : Hop} {child : NodeId} (leads : m.below? id hop = some child)
    (nowhere : ∀ other, other ≠ hop → m.below? id other = none) (path : List Hop) :
    ((below child).under hop).or (here id) m path = below id m path := by
  refine or_here rfl (fun first rest => ?_) path
  rw [under]
  by_cases same : first = hop
  · rw [if_pos same, same, leads]
    rfl
  · rw [if_neg same, nowhere first same]
    rfl

/-- Nothing is found in a list when the path does not start with a hop into the list. -/
theorem items_eq_none (hop : Nat → Hop) {first : Hop} (ids : List NodeId) :
    ∀ (start : Nat) (rest : List Hop), (∀ index, start ≤ index → first ≠ hop index) →
      items hop start ids m (first :: rest) = none := by
  induction ids with
  | nil => exact fun _ _ _ => rfl
  | cons id ids ih =>
    intro start rest other
    rw [items, or, under, if_neg (other start (Nat.le_refl _)),
      ih (start + 1) rest fun index more => other index (Nat.le_of_succ_le more)]
    rfl

/-- Nothing is found in a list before the first hop. -/
theorem items_nil (hop : Nat → Hop) (ids : List NodeId) : ∀ start : Nat,
    items hop start ids m [] = none := by
  induction ids with
  | nil => exact fun _ => rfl
  | cons id ids ih =>
    intro start
    rw [items, or, ih]
    rfl

/-- A hop into a list leads to the node at its index. -/
theorem items_hop {hop : Nat → Hop} (injective : Function.Injective hop) (ids : List NodeId) :
    ∀ (start index : Nat) (rest : List Hop), items hop start ids m (hop (start + index) :: rest) =
      ids[index]?.bind fun id => m.descend id rest := by
  induction ids with
  | nil => exact fun _ _ _ => rfl
  | cons id ids ih =>
    intro start index rest
    rw [items, or, under]
    cases index with
    | zero =>
      have elsewhere := items_eq_none (m := m) hop ids (start + 1) rest fun index more same => by
        have equal : start + 0 = index := injective same
        omega
      rw [if_pos (by rw [Nat.add_zero]), elsewhere, Option.or_none]
      rfl
    | succ index =>
      have apart : hop (start + (index + 1)) ≠ hop start := fun same => by
        have := injective same
        omega
      rw [if_neg apart, Option.none_or, ← Nat.add_assoc, Nat.add_right_comm, ih]
      rfl

/-- A hop into a whole list leads to the node at its index. -/
theorem items_zero_hop {hop : Nat → Hop} (injective : Function.Injective hop) (ids : List NodeId)
    (index : Nat) (rest : List Hop) : items hop 0 ids m (hop index :: rest) =
      ids[index]?.bind fun id => m.descend id rest := by
  have found := items_hop (m := m) injective ids 0 index rest
  rwa [Nat.zero_add] at found

/-- Below a node from which hops lead to the nodes of a list, there is the node and what is below
those. -/
theorem items_or_here {hop : Nat → Hop} (injective : Function.Injective hop) {ids : List NodeId}
    (leads : ∀ index, m.below? id (hop index) = ids[index]?)
    (nowhere : ∀ other, (∀ index, other ≠ hop index) → m.below? id other = none)
    (path : List Hop) : (items hop 0 ids).or (here id) m path = below id m path := by
  refine or_here (items_nil hop ids 0) (fun first rest => ?_) path
  by_cases member : ∃ index, first = hop index
  · obtain ⟨index, rfl⟩ := member
    rw [items_zero_hop injective, leads]
  · have other : ∀ index, first ≠ hop index := fun index same => member ⟨index, same⟩
    rw [nowhere first other, items_eq_none hop ids 0 rest fun index _ => other index]
    rfl

end Finder

open Planting

mutual

/-- The nodes of an element are found below its node. -/
theorem Element.notes_plant (position : Position) (p : Planting) : ∀ e : Element,
    p.Notes (e.plant position p).1 position (.below (e.plant position p).2)
  | .keyword value mark => by
    refine ((p.notes_refl position).node _).congr fun m more => Finder.nothing_or_here fun hop => ?_
    rw [below?_node rfl more]
    cases hop <;> rfl
  | .ruleCall rule mark => by
    have linked := (p.notes_refl position).link rule
    refine (linked.node _).congr fun m more => Finder.nothing_or_here fun hop => ?_
    rw [below?_node rfl more]
    cases hop <;> rfl
  | .crossReference type none mark => by
    have linked := (p.notes_refl position).link type
    refine (linked.node _).congr fun m more => Finder.nothing_or_here fun hop => ?_
    rw [below?_node rfl more]
    cases hop <;> rfl
  | .crossReference type (some terminal) mark => by
    have linked := (p.notes_refl position).link type
    have below := Element.notes_plant (position ++ Hop.steps .terminal) (p.link type).1 terminal
    refine ((linked.append below.under).node _).congr fun m more => ?_
    refine Finder.under_or_here ?_ fun hop other => ?_
    · rw [below?_node rfl more]
      rfl
    · rw [below?_node rfl more]
      cases hop <;> first | rfl | exact absurd rfl other
  | .assignment feature operator terminal mark => by
    have below := Element.notes_plant (position ++ Hop.steps .terminal) p terminal
    refine (below.under.node _).congr fun m more => ?_
    refine Finder.under_or_here ?_ fun hop other => ?_
    · rw [below?_node rfl more]
      rfl
    · rw [below?_node rfl more]
      cases hop <;> first | rfl | exact absurd rfl other
  | .alternatives elements mark => by
    have below := Element.notes_plantAll position 0 p elements
    refine (below.node _).congr fun m more => ?_
    refine Finder.items_or_here (fun _ _ => Hop.elements.inj) (fun index => ?_) fun hop other => ?_
    · rw [below?_node rfl more]
      exact congrArg (·[index]?) (Model.nodesIn_ofNodes _)
    · rw [below?_node rfl more]
      cases hop <;> first | rfl | exact absurd rfl (other _)
  | .group elements mark => by
    have below := Element.notes_plantAll position 0 p elements
    refine (below.node _).congr fun m more => ?_
    refine Finder.items_or_here (fun _ _ => Hop.elements.inj) (fun index => ?_) fun hop other => ?_
    · rw [below?_node rfl more]
      exact congrArg (·[index]?) (Model.nodesIn_ofNodes _)
    · rw [below?_node rfl more]
      cases hop <;> first | rfl | exact absurd rfl (other _)
  | .action none inferredType feature operator mark => by
    refine ((p.notes_refl position).node _).congr fun m more => Finder.nothing_or_here fun hop => ?_
    rw [below?_node rfl more]
    cases hop <;> rfl
  | .action (some type) inferredType feature operator mark => by
    have linked := (p.notes_refl position).link type
    refine (linked.node _).congr fun m more => Finder.nothing_or_here fun hop => ?_
    rw [below?_node rfl more]
    cases hop <;> rfl

/-- The nodes of the members of a group are found after the hops to them. -/
theorem Element.notes_plantAll (position : Position) (index : Nat) (p : Planting) :
    ∀ elements : List Element, p.Notes (Element.plantAll position index p elements).1 position
      (.items .elements index (Element.plantAll position index p elements).2)
  | [] => p.notes_refl position
  | element :: rest => by
    have head := Element.notes_plant (position ++ Hop.steps (.elements index)) p element
    exact head.under.append (Element.notes_plantAll position (index + 1) _ rest)

end

/-- The nodes of a rule are found below its node. -/
theorem Rule.notes_plant (position : Position) (p : Planting) (rule : Rule) :
    p.Notes (rule.plant position p).1 position (.below (rule.plant position p).2) := by
  cases rule with
  | terminal name regex hidden fragment =>
    refine ((p.notes_refl position).node _).congr fun m more => Finder.nothing_or_here fun hop => ?_
    rw [below?_node rfl more]
    cases hop <;> rfl
  | parser name definition inferredType entry fragment =>
    cases definition with
    | none =>
      refine ((p.notes_refl position).node _).congr fun m more => ?_
      refine Finder.nothing_or_here fun hop => ?_
      rw [below?_node rfl more]
      cases hop <;> rfl
    | some definition =>
      have below := definition.notes_plant (position ++ Hop.steps .definition) p
      refine (below.under.node _).congr fun m more => ?_
      refine Finder.under_or_here ?_ fun hop other => ?_
      · rw [below?_node rfl more]
        rfl
      · rw [below?_node rfl more]
        cases hop <;> first | rfl | exact absurd rfl other

/-- The node of a declaration is found. -/
theorem Declaration.notes_plant (position : Position) (p : Planting) (declaration : Declaration) :
    p.Notes (declaration.plant position p).1 position
      (.below (declaration.plant position p).2) := by
  refine ((p.notes_refl position).node _).congr fun m more => Finder.nothing_or_here fun hop => ?_
  rw [below?_node rfl more]
  cases hop <;> rfl

/-- The nodes of the items of a list are found after the hops to the items. -/
theorem Planting.notes_each {α : Type} {plant : Position → Planting → α → Planting × NodeId}
    (notes : ∀ position (p : Planting) a,
      p.Notes (plant position p a).1 position (.below (plant position p a).2))
    {hop : Nat → Hop} {field : String}
    (steps : ∀ index, (hop index).steps = [.field field, .item index]) :
    ∀ (list : List α) (index : Nat) (p : Planting),
      p.Notes (Planting.each plant field index p list).1 []
        (.items hop index (Planting.each plant field index p list).2) := by
  intro list
  induction list with
  | nil => exact fun index p => p.notes_refl []
  | cons a rest ih =>
    intro index p
    have head : p.Notes (plant [.field field, .item index] p a).1 ([] ++ (hop index).steps)
        (.below (plant [.field field, .item index] p a).2) := by
      rw [steps index, List.nil_append]
      exact notes _ p a
    exact head.under.append (ih (index + 1) _)

/-- Every item of a list is planted as a node. -/
theorem Planting.length_each {α : Type} (plant : Position → Planting → α → Planting × NodeId)
    (field : String) : ∀ (list : List α) (index : Nat) (p : Planting),
    (Planting.each plant field index p list).2.length = list.length := by
  intro list
  induction list with
  | nil => exact fun _ _ => rfl
  | cons a rest ih =>
    intro index p
    exact congrArg (· + 1) (ih (index + 1) _)

/-- Adding diagnostics leaves a model as it was. -/
theorem Model.extends_addDiagnostics : ∀ (diagnostics : List Diagnostic) (m : Model),
    m.Extends (m.addDiagnostics diagnostics).1 ∧
      m.nodes.length ≤ (m.addDiagnostics diagnostics).1.nodes.length := by
  intro diagnostics
  induction diagnostics with
  | nil => exact fun m => ⟨.refl m, Nat.le_refl _⟩
  | cons diagnostic rest ih =>
    intro m
    obtain ⟨extension, longer⟩ := ih (m.addDiagnostic diagnostic).1
    have one := Model.length_add m (.ofShape
      (.diagnostic (.value diagnostic.severity) (.value diagnostic.message)) .nothing)
    exact ⟨(Model.extends_add m _).trans extension,
      Nat.le_trans (one.symm ▸ Nat.le_succ _) longer⟩

/-- The finders of the three lists of a grammar find what paths lead to from the grammar. -/
theorem Model.partAt_eq (m : Model) {grammar : Grammar} {rules interfaces types : List NodeId}
    (isRules : grammar.rules = .ofNodes rules)
    (isTypes : grammar.types = .ofNodes (interfaces ++ types))
    (path : List Hop) : (((Finder.items Hop.rules 0 rules).or
      (.items Hop.interfaces 0 interfaces)).or (.items Hop.types 0 types)) m path =
      m.partAt grammar interfaces.length path := by
  unfold Finder.or
  cases path with
  | nil =>
    rw [Finder.items_nil, Finder.items_nil, Finder.items_nil]
    rfl
  | cons hop rest =>
    unfold partAt
    rw [isRules, isTypes, nodesIn_ofNodes, nodesIn_ofNodes, List.take_left, List.drop_left]
    cases hop with
    | rules index =>
      rw [Finder.items_zero_hop (fun _ _ => Hop.rules.inj),
        Finder.items_eq_none Hop.interfaces interfaces 0 rest (by simp),
        Finder.items_eq_none Hop.types types 0 rest (by simp), Option.or_none, Option.or_none]
    | interfaces index =>
      rw [Finder.items_zero_hop (fun _ _ => Hop.interfaces.inj),
        Finder.items_eq_none Hop.rules rules 0 rest (by simp),
        Finder.items_eq_none Hop.types types 0 rest (by simp), Option.none_or, Option.or_none]
    | types index =>
      rw [Finder.items_zero_hop (fun _ _ => Hop.types.inj),
        Finder.items_eq_none Hop.rules rules 0 rest (by simp),
        Finder.items_eq_none Hop.interfaces interfaces 0 rest (by simp), Option.none_or,
        Option.none_or]
    | _ =>
      rw [Finder.items_eq_none Hop.rules rules 0 rest (by simp),
        Finder.items_eq_none Hop.interfaces interfaces 0 rest (by simp),
        Finder.items_eq_none Hop.types types 0 rest (by simp)]
      rfl

/-- What is noted when a document is planted is found by its path from the grammar. -/
theorem Document.notes_plant (document : Document) (model : Model) (imports : List NodeId) :
    ∃ grammar, (document.plant model imports).1.model.grammar? (document.plant model imports).2 =
        some grammar ∧
      (⟨model, [], []⟩ : Planting).Notes (document.plant model imports).1 [] fun m path =>
        m.partAt grammar document.interfaces.length path := by
  have notes₁ := Planting.notes_each Rule.notes_plant (fun index => rfl : ∀ index,
    (Hop.rules index).steps = [.field "rules", .item index]) document.rules 0 ⟨model, [], []⟩
  generalize made₁ : Planting.each Rule.plant "rules" 0 ⟨model, [], []⟩ document.rules = r₁
    at notes₁
  obtain ⟨p₁, rules⟩ := r₁
  simp only at notes₁
  have notes₂ := Planting.notes_each Declaration.notes_plant (fun index => rfl : ∀ index,
    (Hop.interfaces index).steps = [.field "interfaces", .item index]) document.interfaces 0 p₁
  have count := Planting.length_each Declaration.plant "interfaces" document.interfaces 0 p₁
  generalize made₂ : Planting.each Declaration.plant "interfaces" 0 p₁ document.interfaces = r₂
    at notes₂ count
  obtain ⟨p₂, interfaces⟩ := r₂
  simp only at notes₂ count
  have notes₃ := Planting.notes_each Declaration.notes_plant (fun index => rfl : ∀ index,
    (Hop.types index).steps = [.field "types", .item index]) document.types 0 p₂
  generalize made₃ : Planting.each Declaration.plant "types" 0 p₂ document.types = r₃ at notes₃
  obtain ⟨p₃, types⟩ := r₃
  simp only at notes₃
  obtain ⟨extension, longer⟩ := Model.extends_addDiagnostics document.diagnostics p₃.model
  generalize made₄ : p₃.model.addDiagnostics document.diagnostics = r₄ at extension longer
  obtain ⟨m₄, diagnostics⟩ := r₄
  simp only at extension longer
  let grammar : Grammar := ⟨.value document.name, .ofNodes rules, .ofNodes (interfaces ++ types),
    .ofNodes imports, .ofNodes diagnostics, .nothing⟩
  let node : Node := .ofShape (.grammar grammar) .nothing
  have made : document.plant model imports =
      ({ p₃ with model := (m₄.add node).1 }, (m₄.add node).2) := by
    simp only [Document.plant, made₁, made₂, made₃, made₄, node, grammar]
  rw [made]
  refine ⟨grammar, Model.grammar?_eq_some.mpr (Model.has_add m₄ node).shape?, ?_⟩
  -- The diagnostics and the grammar itself are noted at no place.
  have last : p₃.Notes { p₃ with model := (m₄.add node).1 } [] Finder.nothing :=
    .of_places (extension.trans (Model.extends_add m₄ node))
      (Nat.le_trans longer ((Model.length_add m₄ node).symm ▸ Nat.le_succ _)) rfl
  refine (((notes₁.append notes₂).append notes₃).append last).congr fun m _ path => ?_
  rw [← count, ← m.partAt_eq rfl rfl path]
  exact Option.or_none

/-- What is noted at the position of a path in a planted document is the node that the path leads
to from its grammar, also in models that go on from the planting, and no other path leads to it. -/
theorem Document.place?_stepsOf (document : Document) (model : Model) (imports : List NodeId) :
    ∃ grammar, (document.plant model imports).1.model.grammar? (document.plant model imports).2 =
        some grammar ∧
      ∀ m, (document.plant model imports).1.model.Extends m →
        (∀ path, (document.plant model imports).1.place? (stepsOf path) =
          m.partAt grammar document.interfaces.length path) ∧
        ∀ a b id, m.partAt grammar document.interfaces.length a = some id →
          m.partAt grammar document.interfaces.length b = some id → a = b := by
  obtain ⟨grammar, isGrammar, notes⟩ := document.notes_plant model imports
  refine ⟨grammar, isGrammar, fun m more => ⟨fun path => ?_, fun a b id first second =>
    notes.injective more first second⟩⟩
  obtain ⟨-, -, made, noted, -, -, found⟩ := notes
  have lookup : ∀ places : List (Position × NodeId),
      (places.find? (·.1 == stepsOf path)).map Prod.snd = places.lookup (stepsOf path) := by
    intro places
    induction places with
    | nil => rfl
    | cons entry rest ih =>
      rw [List.find?_cons, List.lookup_cons, ← ih, Bool.beq_comm]
      cases stepsOf path == entry.1 <;> rfl
  rw [Planting.place?, lookup, noted, List.nil_append]
  exact found m more path

end GrammarChart
