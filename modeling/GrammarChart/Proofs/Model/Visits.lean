import GrammarChart.Diagram.Relationship
import GrammarChart.Proofs.Model.Standing

/-!
# Visits of trees that stand

A visit of the root of a tree meets what `Phrase.reached` lists for the tree, in the same order, up
to the first element of unknown kind (`visits_of_meets`), and what an assignment assigns is gone
through in that order too (`assignedTo_eq_ofEach`). Both go down at most as many steps as the model
has nodes. That this is enough is the invariant of the descent: the steps left and the length of the
way up together are more than there are nodes.
-/

set_option autoImplicit false

namespace GrammarChart

variable {φ ρ : Type} {I : Interpretation φ ρ} {m : Model} {rule : NodeId}

/-- The arrow of a node is that of its shape. -/
theorem Model.Has.arrowOf {id : NodeId} {shape : Shape} {mark : Item} {arrow : Arrow}
    (h : m.Has id shape mark) (drawn : shape.arrow? = some arrow) :
    m.arrowOf (.node id) = .ok arrow := by
  simp [Model.arrowOf, h.shape?, drawn]

/-- What a visit meets is the root of the tree that it should meet there: the tree stands at a node
of the rule, in the trees around it, and all below it is contained in what it stands in. -/
structure Model.Meets (m : Model) (I : Interpretation φ ρ) (rule : NodeId)
    (met : List (Phrase φ ρ) × Phrase φ ρ) (id : NodeId) (path : List NodeId) : Prop where
  stands : met.2.StandsAt I m id
  way : m.Way rule id (id :: path)
  around : List.Forall₂ (Phrase.StandsAt I m) met.1 path
  nested : m.NestedBelow id

namespace Model.Meets

/-- What is below a tree that is met is met within it. -/
theorem child {outer : List (Phrase φ ρ)} {b c : Phrase φ ρ} {id child : NodeId}
    {path : List NodeId} (h : m.Meets I rule (outer, b) id path) (contained : m.IsChild id child)
    (stands : c.StandsAt I m child) : m.Meets I rule (b :: outer, c) child (id :: path) where
  stands := stands
  way := Phrase.way_of_standsAt stands (h.nested.containerOf contained) h.way
  around := .cons h.stands h.around
  nested := h.nested.child contained

/-- Steps that, with the way up, are more than there are nodes are not used up. -/
theorem exists_step {met : List (Phrase φ ρ) × Phrase φ ρ} {id : NodeId} {path : List NodeId}
    {steps : Nat} (h : m.Meets I rule met id path) (enough : m.nodes.length < steps + path.length) :
    ∃ k, steps = k + 1 := by
  have short := h.way.length_lt
  simp only [List.length_cons] at short
  exact ⟨steps - 1, by omega⟩

/-- The owner of what is met is the rule. -/
theorem ownerRule {met : List (Phrase φ ρ) × Phrase φ ρ} {id : NodeId} {path : List NodeId}
    (h : m.Meets I rule met id path) : m.ownerRule id = .ok rule :=
  Model.ownerRule_of_way h.way

end Model.Meets

/-- What a visit hands to a pass goes with what it should meet. -/
def Model.Visited (m : Model) (I : Interpretation φ ρ) (rule : NodeId)
    (met : List (Phrase φ ρ) × Phrase φ ρ) (visited : Handler × Item) : Prop :=
  ∃ id path, visited.2 = .node id ∧ met.2.handler? = some visited.1 ∧ m.Meets I rule met id path

namespace Phrase

/-- What is met, or the violation that it is when it is of unknown kind. -/
def admitted (met : List (Phrase φ ρ) × Phrase φ ρ) : Emission (List (Phrase φ ρ) × Phrase φ ρ) :=
  match met.2 with
  | .unknown kind _ => .fail (.violation (.unsupportedElement kind))
  | _ => .ofList [met]

/-- What a visit of an element meets, up to the first element of unknown kind. -/
def passed (outer : List (Phrase φ ρ)) (b : Phrase φ ρ) :
    Emission (List (Phrase φ ρ) × Phrase φ ρ) :=
  .ofEach admitted (b.reached outer)

theorem passed_eq (outer : List (Phrase φ ρ)) (b : Phrase φ ρ) :
    b.passed outer = (admitted (outer, b)).append (.ofEach (passed (b :: outer)) b.members) := by
  rw [passed, reached_eq, Emission.ofEach, Emission.ofEach_of_flatMap]
  rfl

theorem admitted_of_handler? {met : List (Phrase φ ρ) × Phrase φ ρ} (known : met.2.handler?.isSome) :
    admitted met = .ofList [met] := by
  obtain ⟨outer, b⟩ := met
  cases b <;> first | rfl | cases known

/-- Where all is of known kinds, all is passed. -/
theorem ofEach_admitted {mets : List (List (Phrase φ ρ) × Phrase φ ρ)}
    (known : ∀ met ∈ mets, met.2.handler?.isSome) :
    Emission.ofEach admitted mets = .ofList mets := by
  have each : ∀ met ∈ mets, admitted met = .ofList [met] :=
    fun met mem => admitted_of_handler? (known met mem)
  rw [Emission.ofEach_eq_ofList each, List.flatMap_singleton']

end Phrase

namespace Model

/-- A visit with enough steps meets what is to be reached, and it stops at the first element of
unknown kind. -/
theorem visitsTo_of_meets (b : Phrase φ ρ) : ∀ {outer : List (Phrase φ ρ)} {id : NodeId}
    {path : List NodeId} {steps : Nat}, m.Meets I rule (outer, b) id path →
    m.nodes.length < steps + path.length →
    (b.passed outer).Together (m.Visited I rule) (m.visitsTo steps (.node id)) := by
  induction b using Phrase.induct with
  | step b ih =>
    intro outer id path steps meets enough
    obtain ⟨steps, rfl⟩ := meets.exists_step enough
    rw [Phrase.passed_eq, visitsTo]
    cases handled : b.handler? with
    | none =>
      -- the element has no handler, so the visit stops before anything is handed over
      cases b with
      | unknown kind mark =>
        obtain ⟨called, shapeKind, has⟩ := meets.stands
        have refused : m.handlerOf (.node id) = .error (.violation (.unsupportedElement kind)) := by
          rw [handlerOf, shapeIn?_node, has.shape?, called]
          rfl
        rw [refused]
        exact ⟨rfl, .nil⟩
      | _ => cases handled
    | some handler =>
      obtain ⟨ids, members, stand, contained⟩ := Phrase.membersOf_of_standsAt meets.stands
      have admitted : Phrase.admitted (outer, b) = .ofList [(outer, b)] :=
        Phrase.admitted_of_handler? (by rw [handled]; rfl)
      rw [admitted, Phrase.handlerOf_of_standsAt meets.stands handled, members,
        Emission.ofExcept_ok, Emission.ofList_flatMap, Emission.ofEach_singleton,
        Emission.ofList_flatMap, Emission.ofEach_map]
      apply Emission.Together.append
      · exact ⟨rfl, .cons ⟨id, path, rfl, handled, meets⟩ .nil⟩
      · refine Emission.Together.ofEach ?_ stand
        intro c hc child hchild stands
        apply ih c (Phrase.mem_children_of_mem_members hc)
          (meets.child (contained child hchild) stands)
        simp only [List.length_cons]
        omega

/-- A visit of a body that stands in a rule meets what is to be reached from the body, and it stops
at the first element of unknown kind. -/
theorem visits_of_meets {b : Phrase φ ρ} {id : NodeId} (meets : m.Meets I rule ([], b) id []) :
    (b.passed []).Together (m.Visited I rule) (m.visits (.node id)) :=
  visitsTo_of_meets b meets (by simp)

/-- A visit of a body that stands in a rule and is known meets what is to be reached from the
body. -/
theorem visits_of_standsAt {b : Phrase φ ρ} {id : NodeId} (meets : m.Meets I rule ([], b) id [])
    (known : b.isKnown = true) :
    ∃ visited, m.visits (.node id) = .ofList visited ∧
      List.Forall₂ (m.Visited I rule) (b.reached []) visited := by
  have together := visits_of_meets meets
  rw [Phrase.passed, Phrase.ofEach_admitted fun met mem => List.all_eq_true.mp known met mem]
    at together
  exact together.exists_eq_ofList

/-- Going through what an assignment assigns runs through what is to be reached. -/
theorem assignedTo_eq_ofEach {assignment : NodeId} {feature : Item}
    {produce : Phrase φ ρ → Emission String}
    (draw : ∀ {met : List (Phrase φ ρ) × Phrase φ ρ} {id : NodeId} {path : List NodeId},
      m.Meets I rule met id path →
        m.assignedLine assignment feature (.node id) = produce met.2)
    (b : Phrase φ ρ) :
    ∀ {outer : List (Phrase φ ρ)} {id : NodeId} {path : List NodeId} {steps : Nat},
    m.Meets I rule (outer, b) id path → m.nodes.length < steps + path.length →
    m.assignedTo assignment feature steps (.node id) =
      Emission.ofEach produce ((b.reached outer).map Prod.snd) := by
  induction b using Phrase.induct with
  | step b ih =>
    intro outer id path steps meets enough
    obtain ⟨steps, rfl⟩ := meets.exists_step enough
    obtain ⟨ids, members, stand, contained⟩ := Phrase.membersOf_of_standsAt meets.stands
    have below : Emission.ofEach (fun child => m.assignedTo assignment feature steps (.node child))
        ids = Emission.ofEach produce
          ((b.members.flatMap (Phrase.reached (b :: outer))).map Prod.snd) := by
      rw [List.map_flatMap, Emission.ofEach_of_flatMap]
      refine Emission.ofEach_congr (fun c hc child hchild stands => ?_) stand
      exact ih c (Phrase.mem_children_of_mem_members hc)
        (meets.child (contained child hchild) stands) (by simp only [List.length_cons]; omega)
    rw [assignedTo, draw meets, members, Emission.ofList_flatMap, Emission.ofEach_map, below,
      Phrase.reached_eq]
    rfl

/-- The body of a rule is met where the rule stands. -/
theorem exists_meets_of_standsAt {production : Production φ ρ} {b : Phrase φ ρ} {id : NodeId}
    (h : production.StandsAt I m id) (nested : m.NestedBelow id)
    (hasBody : production.body? = some b) :
    ∃ body, m.drawnRule? (.node id) = some (I.item production.name, .node body) ∧
      m.Meets I id ([], b) body [] := by
  cases production with
  | terminal name regex hidden fragment => simp [Production.body?] at hasBody
  | parser name definition inferredType entry fragment =>
    cases hasBody
    obtain ⟨place, ⟨body, rfl, stands⟩, shape⟩ := h
    have contained : m.IsChild id body := ⟨_, shape, by
      simp [Shape.children, Shape.containedIn, Shape.contained, Emission.append, Emission.ofList,
        Emission.nothing]⟩
    have isRule : m.nodeIs Node.isRule id = true := by
      obtain ⟨node, found, same⟩ := Option.map_eq_some_iff.mp shape
      simp [nodeIs, found, Node.isRule, same]
    refine ⟨body, ?_, stands, ?_, .nil, nested.child contained⟩
    · simp [drawnRule?, shape, Production.name]
    · exact Phrase.way_of_standsAt stands (nested.containerOf contained) (.rule isRule)

/-- A rule without a body is not drawn. -/
theorem drawnRule?_eq_none {production : Production φ ρ} {id : NodeId}
    (h : production.StandsAt I m id) (noBody : production.body? = none) :
    m.drawnRule? (.node id) = none := by
  cases production with
  | terminal name regex hidden fragment =>
    have shape : m.shape? id = some _ := h
    simp [drawnRule?, shape]
  | parser name definition inferredType entry fragment =>
    cases noBody
    obtain ⟨place, rfl, shape⟩ := h
    simp [drawnRule?, shape, Item.isNothing, Item.nothing]

end Model
end GrammarChart
