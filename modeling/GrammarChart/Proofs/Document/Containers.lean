import GrammarChart.Proofs.Document.Imports
import GrammarChart.Proofs.Model.Inheritance

/-!
# Containers of loaded documents

In a document that was loaded, the containers invert what stands in what. Linking a document leaves
its nodes apart from all others (`Document.isApart_of_link`): a new node stands in one new node only,
and that is its container. So one path leads from every element below a rule back to the rule, and
the owner of the element and the elements that enclose it are found on this path
(`Loader.containers_of_load`).
-/

set_option autoImplicit false

namespace GrammarChart

namespace Model

variable {m : Model} {first : Nat} {top parent child rule e : NodeId} {between : List NodeId}

/-- The node stands in another one and in no further one, and has it as its container. -/
structure StandsOnlyIn (m : Model) (parent child : NodeId) : Prop where
  container : m.containerOf child = .ok (.node parent)
  only : ∀ other, m.IsChild other child ↔ other = parent

/-- The nodes lead from one node down to another one, each of them standing directly in the one
before. -/
def LeadsDown (m : Model) (top : NodeId) (between : List NodeId) (bottom : NodeId) : Prop :=
  List.IsChain m.IsChild (top :: (between ++ [bottom]))

instance (m : Model) (parent child : NodeId) : Decidable (m.IsChild parent child) :=
  decidable_of_iff ((m.shape? parent).any fun shape => child ∈ shape.children.items) (by
    simp only [Option.any_eq_true, decide_eq_true_eq]
    rfl)

instance (m : Model) (top : NodeId) (between : List NodeId) (bottom : NodeId) :
    Decidable (m.LeadsDown top between bottom) :=
  inferInstanceAs (Decidable (List.IsChain m.IsChild (top :: (between ++ [bottom]))))

/-- The place of an element below a rule: the nodes lead down to it and no others do. It stands only
in the last one of them, the rule owns it, and the nearest element around it that has a property is
the last one of them that has it. -/
structure StandsBelow (m : Model) (rule : NodeId) (between : List NodeId) (e : NodeId) : Prop where
  path : ∀ other, m.LeadsDown rule other e ↔ other = between
  parent : m.StandsOnlyIn (between.getLastD rule) e
  owner : m.ownerRule e = .ok rule
  nearest : ∀ property, m.nearest property e = (between.filter (m.nodeIs property)).getLast?

section LeadsDown

/-- Nothing stands between a node and what stands directly in it. -/
theorem leadsDown_nil : m.LeadsDown top [] e ↔ m.IsChild top e :=
  List.isChain_pair

/-- A path leads down when it does so without its last step and that step does. -/
theorem leadsDown_concat :
    m.LeadsDown top (between ++ [parent]) e ↔ m.LeadsDown top between parent ∧ m.IsChild parent e := by
  rw [LeadsDown, LeadsDown, List.append_assoc]
  show List.IsChain m.IsChild ((top :: between) ++ parent :: [e]) ↔ _
  rw [List.isChain_split, List.isChain_pair]
  rfl

/-- Nodes lead down to everything below a node. -/
theorem exists_leadsDown (below : Relation.TransGen m.IsChild top e) :
    ∃ between, m.LeadsDown top between e := by
  induction below with
  | single stands => exact ⟨[], leadsDown_nil.mpr stands⟩
  | @tail parent e _ stands ih =>
    obtain ⟨between, leads⟩ := ih
    exact ⟨between ++ [parent], leadsDown_concat.mpr ⟨leads, stands⟩⟩

/-- The last node of a path that leads down to an element is what the element stands in. -/
theorem isChild_getLastD (leads : m.LeadsDown top between e) :
    m.IsChild (between.getLastD top) e := by
  induction between using List.reverseRecOn with
  | nil => exact leadsDown_nil.mp leads
  | append_singleton between parent _ =>
    rw [List.getLastD_concat]
    exact (leadsDown_concat.mp leads).2

/-- The last node of a path is at or below its first one. -/
theorem reflTransGen_getLastD (leads : m.LeadsDown top between e) :
    Relation.ReflTransGen m.IsChild top (between.getLastD top) := by
  induction between using List.reverseRecOn generalizing e with
  | nil => exact .refl
  | append_singleton between parent ih =>
    obtain ⟨above, -⟩ := leadsDown_concat.mp leads
    rw [List.getLastD_concat]
    exact (ih above).tail (isChild_getLastD above)

/-- What nodes lead down to is below the first one. -/
theorem transGen_of_leadsDown (leads : m.LeadsDown top between e) :
    Relation.TransGen m.IsChild top e :=
  .tail' (reflTransGen_getLastD leads) (isChild_getLastD leads)

end LeadsDown

/-- What stands in a node from the number on is from there on as well, and has the right container. -/
structure IsApart (m : Model) (first : Nat) : Prop where
  nested : m.NestedFrom first
  below : ∀ {parent child : NodeId}, m.IsChild parent child → first ≤ parent.index →
    first ≤ child.index

namespace IsApart

/-- Everything below a node from the number on is from there on. -/
theorem le (apart : m.IsApart first) (new : first ≤ top.index)
    (below : Relation.ReflTransGen m.IsChild top e) : first ≤ e.index := by
  induction below with
  | refl => exact new
  | tail _ stands ih => exact apart.below stands ih

/-- Below a node from the number on all containers are right. -/
theorem nestedBelow (apart : m.IsApart first) (new : first ≤ top.index) : m.NestedBelow top := by
  intro parent child below stands
  exact apart.nested.container stands (apart.below stands (apart.le new below))

/-- What stands in a node from the number on stands in that node only. -/
theorem standsOnlyIn (apart : m.IsApart first) (new : first ≤ parent.index)
    (stands : m.IsChild parent child) : m.StandsOnlyIn parent child where
  container := apart.nested.container stands (apart.below stands new)
  only := by
    have isNew := apart.below stands new
    intro other
    constructor
    · intro contained
      have same := apart.nested.container contained isNew
      rw [apart.nested.container stands isNew] at same
      cases same
      rfl
    · rintro rfl
      exact stands

end IsApart

section Rules

variable {φ ρ : Type} {I : Interpretation φ ρ} {production : Production φ ρ}

/-- What nodes lead down to from a rule is met with these nodes around it. -/
theorem exists_meets_of_leadsDown (stands : production.StandsAt I m rule)
    (nested : m.NestedBelow rule) (leads : m.LeadsDown rule between e) :
    ∃ part, m.Meets I rule part e between.reverse := by
  -- A rule is met from above, so the path is taken apart at its lower end.
  induction between using List.reverseRecOn generalizing e with
  | nil =>
    obtain ⟨ids, isChild, bodies⟩ := children_of_rule stands nested
    obtain ⟨i, bound, rfl⟩ := List.mem_iff_getElem.mp ((isChild e).mp (leadsDown_nil.mp leads))
    exact ⟨_, bodies.get (bodies.length_eq ▸ bound) bound⟩
  | append_singleton between parent ih =>
    obtain ⟨above, contained⟩ := leadsDown_concat.mp leads
    obtain ⟨⟨outer, b⟩, meets⟩ := ih above
    obtain ⟨shape, ids, found, contains, stand⟩ := Phrase.children_of_standsAt meets.stands
    have mem : e ∈ ids := by
      obtain ⟨shape', found', mem⟩ := contained
      rw [found, Option.some.injEq] at found'
      subst found'
      rwa [contains] at mem
    obtain ⟨i, bound, rfl⟩ := List.mem_iff_getElem.mp mem
    have part := stand.get (stand.length_eq ▸ bound) bound
    rw [List.reverse_concat]
    exact ⟨_, meets.child contained part⟩

/-- In a model that is apart, an element has its place where nodes lead down to it from a rule. -/
theorem IsApart.standsBelow (apart : m.IsApart first) (new : first ≤ rule.index)
    (stands : production.StandsAt I m rule) (leads : m.LeadsDown rule between e) :
    m.StandsBelow rule between e := by
  have nested := apart.nestedBelow new
  obtain ⟨part, meets⟩ := exists_meets_of_leadsDown stands nested leads
  refine ⟨?_, ?_, ownerRule_of_way meets.way, ?_⟩
  · intro other
    constructor
    -- Both paths are ways up along the containers, of which there is one.
    · intro leads'
      obtain ⟨part', meets'⟩ := exists_meets_of_leadsDown stands nested leads'
      have same := meets'.way.unique meets.way
      rw [List.cons.injEq] at same
      exact List.reverse_injective same.2
    · rintro rfl
      exact leads
  · exact apart.standsOnlyIn (apart.le new (reflTransGen_getLastD leads)) (isChild_getLastD leads)
  · intro property
    rw [nearest, enclosing_of_way meets.way, ← List.head?_filter, List.filter_reverse,
      List.head?_reverse]

end Rules

end Model

/-- Linking a document to a closed model leaves the new nodes apart. -/
theorem Document.isApart_of_link {document : Document} {fields : Fields} {imported : Imported}
    {model model' : Model} {id : NodeId} (closed : model.IsClosed)
    (linked : document.link fields imported model = .ok (model', id)) :
    model'.IsApart model.nodes.length := by
  obtain ⟨grows, -, -⟩ := document.plant_grows model (imported.map Prod.snd)
  obtain ⟨binds, -⟩ := binds_of_link linked
  refine ⟨binds.containment.nestedFrom (grows.sound.nested _ closed.nestedFrom), ?_⟩
  -- Binding moves no node, so what stands in a new node is what planting put there.
  intro parent child stands new
  rcases grows.fresh parent child (binds.containment.children.mp stands) with old | isNew
  · obtain ⟨shape, found, -⟩ := old
    exact absurd (Model.lt_of_shape? found) (Nat.not_lt.mpr new)
  · exact isNew

namespace Loader

variable {resolve : Resolver} {value : Json} {s s' : Loaded} {id : NodeId}

/-- However imports are resolved, what stands in a node of the model is a node of the model. -/
def LeavesClosed (resolve : Resolver) (s : Loaded) : Prop :=
  ∀ paths found between, resolveAll resolve paths s = .ok (found, between) →
    between.model.IsClosed

/-- Resolvers that only load leave models closed that were loaded. -/
theorem leavesClosed_of_isHonest (honest : IsHonest resolve) {grammars : List NodeId}
    (holds : s.Holds grammars) : LeavesClosed resolve s := by
  intro paths found between resolved
  obtain ⟨loaded, -, held, -⟩ := loadsFrom_resolveAll honest paths s found between holds resolved
  have nested : between.model.Nested := (Model.isSound_of_isLoaded held.model).nested
  intro parent child stands
  exact nested.lt stands

/-- In the grammar of a document that was loaded, the rules and the declared types stand in the
grammar only. Every element below a rule has its place there, at the end of the one path that leads
down to it from the rule. -/
theorem containers_of_load (closed : LeavesClosed resolve s)
    (loaded : load resolve value s = .ok (id, s')) :
    ∃ grammar rules types, s'.model.grammar? id = some grammar ∧
      grammar.rules = .ofNodes rules ∧ grammar.types = .ofNodes types ∧
      (∀ node ∈ rules ++ types, s'.model.StandsOnlyIn id node) ∧
      ∀ rule ∈ rules, ∀ e, Relation.TransGen s'.model.IsChild rule e →
        ∃ between, s'.model.StandsBelow rule between e := by
  obtain ⟨fields, paths, found, start, document, -, -, resolved, -, linked⟩ :=
    exists_link_of_load loaded
  have isLinked := Document.isLinked_of_link linked
  have apart := Document.isApart_of_link (closed _ _ _ resolved) linked
  obtain ⟨rules, interfaces, types, diagnostics, isGrammar, rulesStand, -⟩ := isLinked.stands
  have inGrammar : ∀ node ∈ rules ++ (interfaces ++ types), s'.model.IsChild id node := by
    intro node mem
    refine ⟨_, Model.grammar?_eq_some.mp isGrammar, ?_⟩
    rw [Shape.children_grammar rfl rfl]
    exact mem
  refine ⟨_, rules, interfaces ++ types, isGrammar, rfl, rfl, ?_, ?_⟩
  · intro node mem
    exact apart.standsOnlyIn isLinked.new (inGrammar node mem)
  · intro rule mem e below
    have new := apart.below (inGrammar rule (List.mem_append_left _ mem)) isLinked.new
    obtain ⟨i, bound, rfl⟩ := List.mem_iff_getElem.mp mem
    have stands := rulesStand.get (rulesStand.length_eq ▸ bound) bound
    obtain ⟨between, leads⟩ := Model.exists_leadsDown below
    exact ⟨between, apart.standsBelow new stands leads⟩

/-- A document with a call in a cross reference that is assigned in a group. -/
def callInGroup : Json :=
  let call := Json.obj [("$type", .str "RuleCall"), ("rule", .obj [("$ref", .str "#/rules@0")])]
  let reference := Json.obj [("$type", .str "CrossReference"),
    ("type", .obj [("$ref", .str "#/rules@0")]), ("terminal", call)]
  .obj [("rules", .arr [.obj [("$type", .str "ParserRule"), ("name", .str "Item"),
    ("definition", .obj [("$type", .str "Group"), ("elements", .arr [
      .obj [("$type", .str "Keyword"), ("value", .str "item")],
      .obj [("$type", .str "Assignment"), ("feature", .str "next"),
        ("terminal", reference)]])])]])]

/-- From the rule of that document, the group, the assignment and the cross reference lead down to
the call. -/
theorem containers_of_load_callInGroup : LeavesClosed noImports ⟨.empty, []⟩ ∧
    ∃ id s', load noImports callInGroup ⟨.empty, []⟩ = .ok (id, s') ∧
      s'.model.StandsBelow ⟨7⟩ [⟨6⟩, ⟨5⟩, ⟨4⟩] ⟨3⟩ := by
  have closed := leavesClosed_of_isHonest isHonest_noImports Loaded.holds_empty
  have computed : (load noImports callInGroup ⟨.empty, []⟩).toOption.map (fun made =>
      ((made.2.model.grammar? made.1).map fun grammar => Model.nodesIn grammar.rules,
        decide (made.2.model.LeadsDown ⟨7⟩ [⟨6⟩, ⟨5⟩, ⟨4⟩] ⟨3⟩))) = some (some [⟨7⟩], true) := by
    decide +kernel
  refine ⟨closed, ?_⟩
  cases run : load noImports callInGroup ⟨.empty, []⟩ with
  | error fault =>
    rw [run] at computed
    cases computed
  | ok made =>
    obtain ⟨id, s'⟩ := made
    rw [run] at computed
    simp only [Except.toOption, Option.map_some, Option.some.injEq, Prod.mk.injEq,
      decide_eq_true_eq] at computed
    obtain ⟨grammar, rules, types, found, isRules, -, -, below⟩ := containers_of_load closed run
    rw [found, Option.map_some, Option.some.injEq, isRules, Model.nodesIn_ofNodes] at computed
    obtain ⟨rfl, leads⟩ := computed
    obtain ⟨between, place⟩ := below ⟨7⟩ List.mem_cons_self ⟨3⟩
      (Model.transGen_of_leadsDown leads)
    exact ⟨id, s', rfl, (place.path _).mp leads ▸ place⟩

end Loader

end GrammarChart
