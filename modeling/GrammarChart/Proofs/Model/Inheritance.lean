import GrammarChart.Proofs.Model.Visits

/-!
# Signals handed down

The model looks for the signals of an element on the way up from it. `Phrase.descend` goes the other
way: from the body of a rule down to everything below it, terminals included, with something that is
carried along. `Model.signals_handed_down` says that the way up finds what is carried down when that
is the operator of the assignment and the mark of the group around an element. What carries the
proof is that the element nearest on the way up is the one that was passed last on the way down
(`Surroundings.around_cons`).
-/

set_option autoImplicit false

namespace GrammarChart

variable {φ ρ : Type}

namespace Phrase

section Descent

variable {σ α : Type} (within : σ → Phrase φ ρ → σ) (read : σ → Phrase φ ρ → α)

mutual

/-- Goes from an element to everything below it, parents before children, and reads something off
each element. `within` says what the parts of an element are handed when the element itself was
handed something. -/
def descend (handed : σ) : Phrase φ ρ → List α
  | .crossReference type terminal mark =>
    read handed (.crossReference type terminal mark) ::
      descendIn (within handed (.crossReference type terminal mark)) terminal
  | .assignment feature operator terminal mark =>
    read handed (.assignment feature operator terminal mark) ::
      descendIn (within handed (.assignment feature operator terminal mark)) terminal
  | .alternatives elements mark =>
    read handed (.alternatives elements mark) ::
      descendAll (within handed (.alternatives elements mark)) elements
  | .group elements mark =>
    read handed (.group elements mark) ::
      descendAll (within handed (.group elements mark)) elements
  | b => [read handed b]

/-- Goes down from where an element may stand. -/
def descendIn (handed : σ) : Option (Phrase φ ρ) → List α
  | none => []
  | some b => b.descend handed

/-- Goes down from elements, one after the other. -/
def descendAll (handed : σ) : List (Phrase φ ρ) → List α
  | [] => []
  | b :: rest => b.descend handed ++ descendAll handed rest

end

/-- From where an element may stand the descent is that of the element. -/
theorem descendIn_eq (handed : σ) (place : Option (Phrase φ ρ)) :
    descendIn within read handed place = place.toList.flatMap (descend within read handed) := by
  cases place <;> simp [descendIn]

/-- The descent from elements is that of each of them. -/
theorem descendAll_eq (handed : σ) (phrases : List (Phrase φ ρ)) :
    descendAll within read handed phrases = phrases.flatMap (descend within read handed) := by
  induction phrases with
  | nil => simp [descendAll]
  | cons b rest ih => simp [descendAll, ih]

/-- The descent reads the element and then goes down from what is directly below it. -/
theorem descend_eq (handed : σ) (b : Phrase φ ρ) : b.descend within read handed =
    read handed b :: b.children.flatMap (descend within read (within handed b)) := by
  cases b <;> simp [descend, children, members, descendIn_eq, descendAll_eq]

/-- Where what is handed down follows from something else that is handed down, so does what is
read. -/
theorem descend_map {τ : Type} {within' : τ → Phrase φ ρ → τ} (follows : σ → τ)
    (keeps : ∀ handed b, follows (within handed b) = within' (follows handed) b)
    (read' : τ → Phrase φ ρ → α) (b : Phrase φ ρ) : ∀ handed : σ,
    b.descend within' read' (follows handed) =
      b.descend within (fun handed b => read' (follows handed) b) handed := by
  induction b using induct with
  | step b ih =>
    intro handed
    rw [descend_eq, descend_eq, ← keeps]
    exact congrArg _ (List.flatMap_congr fun c below => ih c below (within handed b))

/-- Reading something else off is reading and then changing what was read. -/
theorem map_descend {β : Type} (change : α → β) (b : Phrase φ ρ) : ∀ handed : σ,
    (b.descend within read handed).map change =
      b.descend within (fun handed b => change (read handed b)) handed := by
  induction b using induct with
  | step b ih =>
    intro handed
    rw [descend_eq, descend_eq, List.map_cons, List.map_flatMap]
    exact congrArg _ (List.flatMap_congr fun c below => ih c below (within handed b))

end Descent

/-- An element and everything below it, each with those that it stands in, the nearest one first.
The element itself stands in the given ones. -/
def parts (outer : List (Phrase φ ρ)) (b : Phrase φ ρ) : List (List (Phrase φ ρ) × Phrase φ ρ) :=
  b.descend (fun outer b => b :: outer) Prod.mk outer

/-- An element and everything below it. -/
def elements (b : Phrase φ ρ) : List (Phrase φ ρ) :=
  b.descend (fun _ _ => ()) (fun _ b => b) ()

/-- At and below an element are the element and what is at and below its children. -/
theorem elements_eq (b : Phrase φ ρ) : b.elements = b :: b.children.flatMap elements :=
  descend_eq _ _ () b

/-- An element is among those at and below it. -/
theorem self_mem_elements (b : Phrase φ ρ) : b ∈ b.elements := by
  rw [elements_eq]
  exact List.mem_cons_self

/-- What is at or below a child of an element is below the element. -/
theorem mem_elements_of_child {b c d : Phrase φ ρ} (child : c ∈ b.children) (mem : d ∈ c.elements) :
    d ∈ b.elements := by
  rw [elements_eq]
  exact List.mem_cons_of_mem b (List.mem_flatMap.mpr ⟨c, child, mem⟩)

/-- What a visit of an element meets is at or below it. -/
theorem mem_elements_of_mem_reached (b : Phrase φ ρ) : ∀ {outer : List (Phrase φ ρ)}
    {met : List (Phrase φ ρ) × Phrase φ ρ}, met ∈ b.reached outer → met.2 ∈ b.elements := by
  induction b using induct with
  | step b ih =>
    intro outer met mem
    rw [reached_eq] at mem
    rcases List.mem_cons.mp mem with rfl | below
    · exact self_mem_elements b
    · obtain ⟨c, member, inside⟩ := List.mem_flatMap.mp below
      have child := mem_children_of_mem_members member
      exact mem_elements_of_child child (ih c child inside)

/-- What is below something that is below an element is below the element. -/
theorem mem_elements_trans (b : Phrase φ ρ) : ∀ {c d : Phrase φ ρ}, c ∈ b.elements →
    d ∈ c.elements → d ∈ b.elements := by
  induction b using induct with
  | step b ih =>
    intro c d mem below
    rw [elements_eq] at mem
    rcases List.mem_cons.mp mem with rfl | later
    · exact below
    · obtain ⟨child, inside, further⟩ := List.mem_flatMap.mp later
      exact mem_elements_of_child inside (ih child inside further below)

/-- The operator of an assignment. -/
def assigns? : Phrase φ ρ → Option φ
  | .assignment _ operator _ _ => some operator
  | _ => none

/-- The operator of an assignment, or of an action, which may lack it. -/
def ownOperator? : Phrase φ ρ → Option (Option φ)
  | .assignment _ operator _ _ => some (some operator)
  | .action _ _ _ operator _ => some operator
  | _ => none

/-- The mark of a group, which may lack it, or of alternatives with a mark. -/
def groupMark? (I : Interpretation φ ρ) : Phrase φ ρ → Option (Option φ)
  | .group _ mark => some mark
  | .alternatives _ mark => if (I.item? mark).isPresent then some mark else none
  | _ => none

/-- The signals of an element that stands in others, the nearest one first: its mark, its own
operator or that of the nearest assignment, and the mark of the nearest group. -/
def signalsWithin (I : Interpretation φ ρ) (outer : List (Phrase φ ρ)) (b : Phrase φ ρ) :
    List (Option φ) :=
  b.mark :: (b.ownOperator?.or ((outer.findSome? assigns?).map some)).toList ++
    (outer.findSome? (groupMark? I)).toList

end Phrase

/-- What is around an element: the operator of the assignment and the mark of the group that it
stands in, if it stands in any. -/
structure Surroundings (φ : Type) where
  operator : Option φ
  group : Option (Option φ)

namespace Surroundings

/-- Nothing is around the body of a rule. -/
def outside : Surroundings φ := ⟨none, none⟩

/-- What is around the parts of an element. -/
def within (I : Interpretation φ ρ) (s : Surroundings φ) : Phrase φ ρ → Surroundings φ
  | .assignment _ operator _ _ => { s with operator := some operator }
  | .group _ mark => { s with group := some mark }
  | .alternatives _ mark => if (I.item? mark).isPresent then { s with group := some mark } else s
  | _ => s

/-- The signals of an element with the given surroundings. -/
def signals (s : Surroundings φ) : Phrase φ ρ → List (Option φ)
  | .assignment _ operator _ mark => mark :: some operator :: s.group.toList
  | .action _ _ _ operator mark => mark :: operator :: s.group.toList
  | b => b.mark :: s.operator.toList.map some ++ s.group.toList

/-- What the elements around an element amount to, the nearest one first. -/
def around (I : Interpretation φ ρ) (outer : List (Phrase φ ρ)) : Surroundings φ :=
  ⟨outer.findSome? Phrase.assigns?, outer.findSome? (Phrase.groupMark? I)⟩

/-- One more element around changes the surroundings as the descent does. -/
theorem around_cons (I : Interpretation φ ρ) (outer : List (Phrase φ ρ)) (b : Phrase φ ρ) :
    around I (b :: outer) = (around I outer).within I b := by
  cases b with
  | alternatives elements mark =>
    by_cases marked : (I.item? mark).isPresent
    · simp [around, within, List.findSome?_cons, Phrase.assigns?, Phrase.groupMark?, marked]
    · simp [around, within, List.findSome?_cons, Phrase.assigns?, Phrase.groupMark?, marked]
  | _ => rfl

/-- The surroundings give the signals that the elements around give. -/
theorem signals_around (I : Interpretation φ ρ) (outer : List (Phrase φ ρ)) (b : Phrase φ ρ) :
    (around I outer).signals b = b.signalsWithin I outer := by
  cases b with
  | assignment | action => rfl
  | _ =>
    simp only [signals, around, Phrase.signalsWithin, Phrase.ownOperator?, Option.none_or]
    cases outer.findSome? Phrase.assigns? <;> rfl

end Surroundings

namespace Production

/-- Everything below a rule, each part of the body with those that it stands in. -/
def parts (rule : Production φ ρ) : List (List (Phrase φ ρ) × Phrase φ ρ) :=
  rule.body?.toList.flatMap (Phrase.parts [])

/-- The signals of everything below a rule, found on the way down from its body. -/
def handedDown (I : Interpretation φ ρ) (rule : Production φ ρ) : List (List (Option φ)) :=
  rule.body?.toList.flatMap
    (Phrase.descend (Surroundings.within I) Surroundings.signals .outside)

/-- The way down carries to each part the signals of the elements around it. -/
theorem handedDown_eq (I : Interpretation φ ρ) (rule : Production φ ρ) :
    rule.handedDown I = rule.parts.map fun part => part.2.signalsWithin I part.1 := by
  unfold handedDown parts
  rw [List.map_flatMap]
  refine List.flatMap_congr fun b _ => ?_
  have carried := Phrase.descend_map (fun outer b => b :: outer) (Surroundings.around I)
    (Surroundings.around_cons I) Surroundings.signals b []
  rw [Phrase.parts, Phrase.map_descend]
  refine Eq.trans carried ?_
  simp only [Surroundings.signals_around]

end Production

variable {I : Interpretation φ ρ} {m : Model} {rule : NodeId}

/-- A node is an assignment when it is visited as one. -/
theorem Node.isAssignment_eq (node : Node) :
    node.isAssignment = (node.shape.handler? == some .assignment) := by
  unfold isAssignment
  cases node.shape <;> rfl

/-- Of the nodes that are visited as groups or alternatives, some are marked groups. -/
theorem Node.isMarkedGroup_eq (node : Node) :
    node.isMarkedGroup = match node.shape.handler? with
      | some .group => true
      | some .alternatives => node.cardinality.isPresent
      | _ => false := by
  unfold isMarkedGroup
  cases node.shape <;> rfl

namespace Model

section Nearest

variable {outer : List (Phrase φ ρ)} {path : List NodeId} {α : Type}

/-- When the nodes that have a property are those of the elements that give something, the nearest
such node gives what the nearest such element does. -/
theorem find?_bind_of_forall₂ {gives : Phrase φ ρ → Option α} {property : NodeId → Bool}
    {ask : NodeId → Option α}
    (step : ∀ (b : Phrase φ ρ) (id : NodeId), b.StandsAt I m id →
      property id = (gives b).isSome ∧ (property id = true → ask id = gives b))
    (h : List.Forall₂ (Phrase.StandsAt I m) outer path) :
    (path.find? property).bind ask = outer.findSome? gives := by
  induction h with
  | nil => rfl
  | @cons b id outer path stands _ ih =>
    obtain ⟨has, same⟩ := step b id stands
    rw [List.find?_cons, List.findSome?_cons]
    cases given : gives b with
    | none =>
      rw [given] at has
      rw [has]
      exact ih
    | some a =>
      rw [given] at has same
      rw [has]
      exact same has

variable {b : Phrase φ ρ} {id : NodeId}

/-- The operator of the root of a tree is the one that the tree has. -/
theorem operatorOf_of_standsAt (h : b.StandsAt I m id) :
    m.operatorOf id = b.ownOperator?.map I.item? := by
  have read : ∀ {shape : Shape} {mark : Item}, m.Has id shape mark →
      m.operatorOf id = (Node.ofShape shape mark).operator? := by
    rintro shape mark ⟨node, found, rfl, -⟩
    rw [operatorOf, found]
    rfl
  cases b with
  | assignment feature operator terminal mark =>
    obtain ⟨place, -, has⟩ := h
    exact read has
  | action type inferredType feature operator mark =>
    cases type with
    | none => exact read h
    | some type =>
      obtain ⟨link, -, has⟩ := h
      exact read has
  | _ =>
    obtain ⟨shape, has, handled⟩ := Phrase.has_of_standsAt h
    refine (read has).trans ?_
    cases shape <;> first | rfl | simp [Shape.handler?, Phrase.handler?] at handled

/-- The nodes of assignments are those of the elements that assign, and have their operators. -/
theorem assigns?_of_standsAt (h : b.StandsAt I m id) :
    m.nodeIs Node.isAssignment id = (b.assigns?.map I.item).isSome ∧
      (m.nodeIs Node.isAssignment id = true → m.operatorOf id = b.assigns?.map I.item) := by
  have own := operatorOf_of_standsAt h
  obtain ⟨shape, ⟨node, found, same, -⟩, handled⟩ := Phrase.has_of_standsAt h
  have asked : m.nodeIs Node.isAssignment id = node.isAssignment := by simp [nodeIs, found]
  rw [asked, own, Node.isAssignment_eq, same, handled]
  cases b with
  | assignment feature operator terminal mark => exact ⟨rfl, fun _ => rfl⟩
  | _ => exact ⟨rfl, fun never => absurd never (by simp [Phrase.handler?])⟩

/-- The nodes of groups that count are those of the elements that do, and have their marks. -/
theorem groupMark?_of_standsAt (h : b.StandsAt I m id) :
    m.nodeIs Node.isMarkedGroup id = ((b.groupMark? I).map I.item?).isSome ∧
      (m.nodeIs Node.isMarkedGroup id = true →
        some (m.markOf id) = (b.groupMark? I).map I.item?) := by
  obtain ⟨shape, has, handled⟩ := Phrase.has_of_standsAt h
  have own := has.markOf
  obtain ⟨node, found, same, marked⟩ := has
  have asked : m.nodeIs Node.isMarkedGroup id = node.isMarkedGroup := by simp [nodeIs, found]
  rw [asked, own, Node.isMarkedGroup_eq, same, handled, marked]
  cases b with
  | group elements mark => exact ⟨rfl, fun _ => rfl⟩
  | alternatives elements mark =>
    simp only [Phrase.handler?, Phrase.mark, Phrase.groupMark?]
    cases (I.item? mark).isPresent with
    | true => exact ⟨rfl, fun _ => rfl⟩
    | false => exact ⟨rfl, fun never => absurd never (by simp)⟩
  | _ => exact ⟨rfl, fun never => absurd never (by simp [Phrase.handler?])⟩

end Nearest

/-- The signals that apply to what is met are its own and those of what it is met within. -/
theorem signals_of_meets {outer : List (Phrase φ ρ)} {b : Phrase φ ρ} {id : NodeId}
    {path : List NodeId} (h : m.Meets I rule (outer, b) id path) :
    m.signals id = (b.signalsWithin I outer).map I.item? := by
  have mark : m.markOf id = I.item? b.mark := by
    obtain ⟨shape, has, -⟩ := Phrase.has_of_standsAt h.stands
    exact has.markOf
  have around : m.enclosing id = path := enclosing_of_way h.way
  have assigned : (m.nearest Node.isAssignment id).bind m.operatorOf =
      (outer.findSome? Phrase.assigns?).map I.item := by
    rw [nearest, around, List.map_findSome?]
    exact find?_bind_of_forall₂ (fun b id stands => assigns?_of_standsAt stands) h.around
  have grouped : (m.enclosingGroup id).map m.markOf =
      (outer.findSome? (Phrase.groupMark? I)).map I.item? := by
    rw [enclosingGroup, nearest, around, List.map_findSome?, Option.map_eq_bind]
    exact find?_bind_of_forall₂ (fun b id stands => groupMark?_of_standsAt stands) h.around
  have operator : m.governingOperator id =
      (b.ownOperator?.or ((outer.findSome? Phrase.assigns?).map some)).map I.item? := by
    rw [governingOperator, operatorOf_of_standsAt h.stands]
    cases b.ownOperator? with
    | some own => rfl
    | none =>
      refine assigned.trans ?_
      cases outer.findSome? Phrase.assigns? <;> rfl
  simp only [signals, mark, operator, grouped, Phrase.signalsWithin, List.map_append, List.map_cons,
    Option.toList_map]

/-- When what is listed for the members of one list goes with the nodes that the members of another
one reach, so does what is listed for all of them. -/
theorem exists_forall₂_flatMap {α β : Type} {R : β → NodeId → Prop} {S : α → NodeId → Prop}
    {reaches : NodeId → NodeId → Prop} {lists : α → List β} {xs : List α} {ids : List NodeId}
    (step : ∀ x ∈ xs, ∀ id ∈ ids, S x id → ∃ nodes, (∀ node, reaches id node ↔ node ∈ nodes) ∧
      List.Forall₂ R (lists x) nodes)
    (h : List.Forall₂ S xs ids) :
    ∃ nodes, (∀ node, (∃ id ∈ ids, reaches id node) ↔ node ∈ nodes) ∧
      List.Forall₂ R (xs.flatMap lists) nodes := by
  induction h with
  | nil => exact ⟨[], by simp, .nil⟩
  | @cons x id xs ids head _ ih =>
    obtain ⟨first, reached, together⟩ := step x List.mem_cons_self id List.mem_cons_self head
    obtain ⟨more, reached', together'⟩ := ih fun x hx id hid =>
      step x (List.mem_cons_of_mem _ hx) id (List.mem_cons_of_mem _ hid)
    refine ⟨first ++ more, fun node => ?_, List.rel_append together together'⟩
    rw [List.exists_mem_cons_iff, List.mem_append, reached, reached']

/-- The nodes at and below one that is met are those of the parts of its tree, one by one. -/
theorem exists_nodes_of_meets (b : Phrase φ ρ) : ∀ {outer : List (Phrase φ ρ)} {id : NodeId}
    {path : List NodeId}, m.Meets I rule (outer, b) id path →
    ∃ nodes, (∀ node, Relation.ReflTransGen m.IsChild id node ↔ node ∈ nodes) ∧
      List.Forall₂ (fun part node => ∃ path, m.Meets I rule part node path) (b.parts outer)
        nodes := by
  induction b using Phrase.induct with
  | step b ih =>
    intro outer id path meets
    obtain ⟨shape, ids, found, contains, stand⟩ := Phrase.children_of_standsAt meets.stands
    have isChild : ∀ child, m.IsChild id child ↔ child ∈ ids := by
      intro child
      simp [IsChild, found, contains, Emission.ofList]
    obtain ⟨nodes, reached, together⟩ := exists_forall₂_flatMap
      (fun c hc child hchild stands =>
        ih c hc (meets.child ((isChild child).mpr hchild) stands)) stand
    refine ⟨id :: nodes, fun node => ?_, ?_⟩
    · rw [Relation.ReflTransGen.cases_head_iff, List.mem_cons, ← reached, eq_comm]
      simp only [isChild]
    · rw [Phrase.parts, Phrase.descend_eq]
      exact .cons ⟨path, meets⟩ together

/-- A rule contains its body, which is met in nothing else, and no more. -/
theorem children_of_rule {production : Production φ ρ} {id : NodeId}
    (stands : production.StandsAt I m id) (nested : m.NestedBelow id) :
    ∃ ids : List NodeId, (∀ child, m.IsChild id child ↔ child ∈ ids) ∧
      List.Forall₂ (fun b child => m.Meets I id ([], b) child []) production.body?.toList ids := by
  cases production with
  | terminal name regex hidden fragment =>
    have shape : m.shape? id = some _ := stands
    refine ⟨[], fun child => ?_, .nil⟩
    simp [IsChild, shape, Shape.children, Emission.nothing]
  | parser name definition inferredType entry fragment =>
    obtain ⟨place, below, shape⟩ := stands
    cases definition with
    | none =>
      cases below
      refine ⟨[], fun child => ?_, .nil⟩
      simp [IsChild, shape, Shape.children, Shape.containedIn, Item.isNothing, Item.nothing,
        Emission.nothing]
    | some b =>
      obtain ⟨body, rfl, stands⟩ := below
      have isChild : ∀ child, m.IsChild id child ↔ child ∈ [body] := by
        intro child
        simp [IsChild, shape, Shape.children, Shape.containedIn, Shape.contained, Emission.ofList]
      have contained : m.IsChild id body := (isChild body).mpr (by simp)
      have isRule : m.nodeIs Node.isRule id = true := by
        obtain ⟨node, found, same⟩ := Option.map_eq_some_iff.mp shape
        simp [nodeIs, found, Node.isRule, same]
      have way := Phrase.way_of_standsAt stands (nested.containerOf contained) (.rule isRule)
      exact ⟨[body], isChild, .cons ⟨stands, way, .nil, nested.child contained⟩ .nil⟩

/-- Below a rule with proper containers stand the parts of its body and nothing else, and the
signals of each of them are those found on the way down from the body: its own mark, its own
operator or that of the innermost assignment around it, and the mark of the innermost group around
it, where alternatives count when they have a mark. -/
theorem signals_handed_down {production : Production φ ρ} {id : NodeId}
    (stands : production.StandsAt I m id) (nested : m.NestedBelow id) :
    ∃ nodes : List NodeId, (∀ node, Relation.TransGen m.IsChild id node ↔ node ∈ nodes) ∧
      List.Forall₂ (fun part node => (∃ path, m.Meets I id part node path) ∧
        m.signals node = (part.2.signalsWithin I part.1).map I.item? ∧
        (m.multiplicity node).lower =
          (if (m.signals node).any (·.isText "?") then "0" else "1") ∧
        (m.multiplicity node).upper =
          (if (m.signals node).any fun s => s.isText "*" || s.isText "+" || s.isText "+="
            then "*" else "1")) production.parts nodes ∧
      nodes.map m.signals = (production.handedDown I).map (List.map I.item?) ∧
      nodes.map m.multiplicity =
        (production.handedDown I).map fun signals => .ofSignals (signals.map I.item?) := by
  obtain ⟨ids, isChild, bodies⟩ := children_of_rule stands nested
  obtain ⟨nodes, reached, met⟩ :=
    exists_forall₂_flatMap (fun b _ _ _ meets => exists_nodes_of_meets b meets) bodies
  have own : List.Forall₂ (fun part node => m.signals node =
      (part.2.signalsWithin I part.1).map I.item?) production.parts nodes :=
    met.imp fun part node => fun ⟨path, meets⟩ => signals_of_meets meets
  have signals : nodes.map m.signals = (production.handedDown I).map (List.map I.item?) := by
    rw [Production.handedDown_eq, List.map_map, ← List.forall₂_eq_eq_eq, List.forall₂_map_left_iff,
      List.forall₂_map_right_iff]
    exact own.flip
  refine ⟨nodes, fun node => ?_, ?_, signals, ?_⟩
  · rw [Relation.TransGen.head'_iff, ← reached]
    simp only [isChild]
  · exact met.imp fun part node meets =>
      ⟨meets, signals_of_meets meets.choose_spec, rfl, rfl⟩
  · have bounds := congrArg (List.map Multiplicity.ofSignals) signals
    rw [List.map_map, List.map_map] at bounds
    exact bounds

/-- References may lead anywhere, and words are texts. -/
def unlinked : Interpretation String Unit := ⟨.str, fun _ _ _ => True⟩

/-- A model of a rule that adds references to a feature in an optional group, within alternatives
without a mark. -/
def sheltering : Model := ⟨[
  .ofShape (.reference ⟨.value (.str "B"), .nothing⟩) .nothing,
  { Node.ofShape (.ruleCall (.node ⟨0⟩)) .nothing with container := some (.node ⟨2⟩) },
  { Node.ofShape (.crossReference (.node ⟨0⟩) (.node ⟨1⟩)) .nothing with
    container := some (.node ⟨3⟩) },
  { Node.ofShape (.assignment (.value (.str "b")) (.value (.str "+=")) (.node ⟨2⟩)) .nothing with
    container := some (.node ⟨4⟩) },
  { Node.ofShape (.alternatives (.ofNodes [⟨3⟩])) .nothing with container := some (.node ⟨5⟩) },
  { Node.ofShape (.group (.ofNodes [⟨4⟩])) (.value (.str "?")) with container := some (.node ⟨6⟩) },
  .ofShape (.parserRule (.value (.str "A")) (.node ⟨5⟩) .nothing .no .no) .nothing]⟩

/-- The rule of that model. -/
def shelteringRule : Production String Unit :=
  let call := Phrase.ruleCall () none
  let assignment := Phrase.assignment "b" "+=" (some (.crossReference () (some call) none)) none
  .parser "A" (some (.group [.alternatives [assignment] none] (some "?"))) none false false

/-- The rule stands in the model. -/
theorem standsAt_sheltering : shelteringRule.StandsAt unlinked sheltering ⟨6⟩ := by
  have call : Phrase.StandsAt unlinked sheltering (.ruleCall () none) ⟨1⟩ :=
    ⟨_, trivial, _, rfl, rfl, rfl⟩
  have reference : Phrase.StandsAt unlinked sheltering
      (.crossReference () (some (.ruleCall () none)) none) ⟨2⟩ :=
    ⟨_, _, trivial, ⟨_, rfl, call⟩, _, rfl, rfl, rfl⟩
  have assignment : Phrase.StandsAt unlinked sheltering (.assignment "b" "+="
      (some (.crossReference () (some (.ruleCall () none)) none)) none) ⟨3⟩ :=
    ⟨_, ⟨_, rfl, reference⟩, _, rfl, rfl, rfl⟩
  exact ⟨_, ⟨_, rfl, _, ⟨_, _, rfl, ⟨_, ⟨_, _, rfl, assignment, rfl⟩, _, rfl, rfl, rfl⟩, rfl⟩,
    _, rfl, rfl, rfl⟩, rfl⟩

/-- Everything in the group is optional; from the assignment on down there may be many. -/
theorem multiplicities_sheltering : ∃ nodes : List NodeId,
    (∀ node, Relation.TransGen sheltering.IsChild ⟨6⟩ node ↔ node ∈ nodes) ∧
      nodes.map sheltering.multiplicity =
        [⟨true, false⟩, ⟨true, false⟩, ⟨true, true⟩, ⟨true, true⟩, ⟨true, true⟩] := by
  have nested : sheltering.isNested := rfl
  obtain ⟨nodes, reached, -, -, multiplicities⟩ :=
    signals_handed_down standsAt_sheltering (nestedBelow_of_isNested nested ⟨6⟩)
  exact ⟨nodes, reached, multiplicities⟩

end Model
end GrammarChart
