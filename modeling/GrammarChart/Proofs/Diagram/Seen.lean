import GrammarChart.Proofs.Diagram.Drawing
import GrammarChart.Proofs.Model.Inheritance

/-!
# Drawings in models

Where a rule stands in a model and its references lead to what has given faces, the model draws what
the tree says: the class block (`classBlock_of_seen`) and the relationship lines
(`relationshipLines_of_seen`). The bounds of a line are read upwards in the model and handed down in
the tree; both meet the same elements (`signals_of_seen`).
-/

set_option autoImplicit false

namespace GrammarChart

/-- Only the parts that every node of its kind has were given to the nodes of a model. -/
def Model.IsPlain (m : Model) : Prop :=
  ∀ id node, m.node? id = some node → node.extras = []

/-- What stands in a place has the face. -/
inductive Face.IsAt (m : Model) : Face → Item → Prop where
  | nowhere : IsAt m .nowhere .nothing
  | parserRule {id : NodeId} {name : Json} {definition inferredType entry fragment : Item}
      (h : m.shape? id = some (.parserRule (.value name) definition inferredType entry fragment)) :
      IsAt m (.parserRule name) (.node id)
  | terminalRule {id : NodeId} {name : Json} {regex hidden fragment : Item}
      (h : m.shape? id = some (.terminalRule (.value name) regex hidden fragment)) :
      IsAt m (.terminalRule name) (.node id)
  | declaredType {id : NodeId} {name : Json} {kind : Item}
      (h : m.shape? id = some (.typeDeclaration (.value name) kind)) :
      IsAt m (.declaredType name) (.node id)
  | element {id : NodeId} {shape : Shape} (h : m.shape? id = some shape)
      (handled : shape.handler?.isSome) : IsAt m .element (.node id)

/-- What stands in a place is a reference to what has the face. -/
def Face.LedTo (m : Model) (place : Item) (face : Face) : Prop :=
  ∃ id link, place = .node id ∧ m.link? id = some link ∧ face.IsAt m link.target

/-- What stands in a place is a reference to what has the face, or nothing if there is none. -/
def Face.MayLeadTo (m : Model) (place : Item) : Option Face → Prop
  | none => place = .nothing
  | some face => ∃ id, place = .node id ∧ face.LedTo m place

/-- Values stand as they are, and references lead to what has the given faces. -/
def Interpretation.seen {ρ : Type} (face : ρ → Face) : Interpretation Json ρ :=
  ⟨id, fun m place reference => (face reference).LedTo m place⟩

/-- A value that may be missing stands as such. -/
@[simp] theorem Interpretation.seen_item? {ρ : Type} (face : ρ → Face) (word : Option Json) :
    (Interpretation.seen face).item? word = .ofWord? word := by
  cases word <;> rfl

/-- A value stands as it is. -/
@[simp] theorem Interpretation.seen_item {ρ : Type} (face : ρ → Face) (word : Json) :
    (Interpretation.seen face).item word = .value word := rfl

namespace Drawing

variable {ρ : Type} {face : ρ → Face} {rule : Production Json ρ}

/-- The class block of a rule, up to the first element of unknown kind. -/
def openBlock (face : ρ → Face) (rule : Production Json ρ) : Emission String :=
  match rule.body? with
  | some body =>
    ((Emission.ofList ["class " ++ rule.name.display ++ " \x7b\n"]).append
      ((body.passed []).flatMap fun met => .ofList (attributes face met.2))).append
        (.ofList ["\x7d\n"])
  | none => .nothing

/-- A rule that is not broken has its whole class block. -/
theorem openBlock_of_isKnown (known : rule.isKnown) :
    openBlock face rule = .ofList (block face rule) := by
  rw [openBlock, block]
  cases hasBody : rule.body? with
  | none => rfl
  | some body =>
    rw [Production.isKnown, hasBody, Option.all_some] at known
    have passed : body.passed [] = .ofList (body.reached []) :=
      Phrase.ofEach_admitted fun met mem => List.all_eq_true.mp known met mem
    dsimp only
    rw [passed, Emission.ofList_flatMap, Emission.ofEach_eq_ofList fun _ _ => rfl]
    rfl

end Drawing

namespace Model

variable {m : Model} {rule : NodeId} {ρ : Type} {face : ρ → Face}

/-- A value that is not null is something. -/
theorem isNothing_value {value : Json} (present : value ≠ .null) :
    (Item.value value).isNothing = false := by
  cases value <;> first | rfl | exact absurd rfl present

/-- The name of what has a face is the name of the face. That an element has none takes a plain
model. -/
theorem nameOf_of_face {item : Item} {f : Face} (plain : f = .element → m.IsPlain) (h : f.IsAt m item)
    (leads : item ≠ .nothing) : m.nameOf item = f.name?.map Item.ofWord? := by
  cases h with
  | nowhere => exact absurd rfl leads
  | parserRule found | terminalRule found | declaredType found =>
    rw [Face.name?, Except.map, Item.ofWord?_word?]
    exact partOf_of_shape found rfl (by decide) (by decide)
  | @element id shape found handled =>
    obtain ⟨node, here, rfl⟩ := Option.map_eq_some_iff.mp found
    have bare : node.extras = [] := plain rfl id node here
    have absent : node.part? "name" = none := by
      cases hs : node.shape <;>
        simp [hs, Shape.handler?, Node.part?, Shape.parts, bare, List.lookup] at handled ⊢
    rw [nameOf, partOf_node here, absent]
    rfl

/-- A reference to what has a face has a target, and it is resolved unless the target is nothing. -/
theorem exists_target_of_face {place : Item} {f : Face} (h : f.LedTo m place) :
    ∃ item, m.targetOf place = .ok item ∧ f.IsAt m item ∧
      m.isResolved place = .ok (!item.isNothing) ∧
      m.targetShape place = .ok (m.shapeIn? item) := by
  obtain ⟨id, link, rfl, found, leads⟩ := h
  have shape : m.shape? id = some (.reference link) := link?_eq_some.mp found
  have target : m.targetOf (.node id) = .ok link.target :=
    partOf_of_shape shape rfl (by decide) (by decide)
  refine ⟨link.target, target, leads, ?_, by rw [targetShape, target]; rfl⟩
  rw [isResolved, resolvedOf, shapeIn?_node, shape]
  simp only [Except.map, Item.isPresent, Json.isPresent]
  rfl

/-- The face of nothing is that of a reference that leads nowhere. -/
theorem isNothing_of_face {item : Item} {f : Face} (h : f.IsAt m item)
    (nothing : item.isNothing = true) : f = .nowhere := by
  cases h <;> first | rfl | simp at nothing

/-- A call of a parser rule has the name of that rule. -/
theorem parserRuleName_of_face {place : Item} {f : Face} (h : f.LedTo m place) :
    m.parserRuleName place = .ok (f.parserRule?.map .value) := by
  obtain ⟨item, -, isAt, -, targetShape⟩ := exists_target_of_face h
  rw [parserRuleName, targetShape, ok_bind]
  cases isAt with
  | nowhere => rfl
  | parserRule found | terminalRule found | declaredType found =>
    rw [shapeIn?_node, found]
    rfl
  | @element id shape found handled =>
    rw [shapeIn?_node, found]
    cases shape <;> first | rfl | simp [Shape.handler?] at handled

/-- What a place for terminals says is what the tree there says: a call of a terminal rule has the
name of that rule, and a call can be used when it leads to a rule. -/
theorem terminal_of_seen {terminal : Option (Phrase Json ρ)} {place : Item}
    (h : Phrase.StandsIn (.seen face) m terminal place) :
    m.terminalName place = .ok ((Drawing.calledTerminal? face terminal).map .value) ∧
      m.terminalIsUsable place = .ok (Drawing.isUsable face terminal) := by
  cases terminal with
  | none =>
    simp only [Phrase.StandsIn] at h
    subst h
    exact ⟨rfl, rfl⟩
  | some t =>
    obtain ⟨id, rfl, stands⟩ := h
    cases t with
    | ruleCall call mark =>
      obtain ⟨link, leads, has⟩ := stands
      obtain ⟨item, -, isAt, -, targetShape⟩ := exists_target_of_face leads
      simp only [terminalName, terminalIsUsable, shapeIn?_node, has.shape?, targetShape,
        Drawing.calledTerminal?, Drawing.isUsable, ok_bind]
      generalize face call = f at isAt
      cases isAt with
      | nowhere => exact ⟨rfl, rfl⟩
      | parserRule found | terminalRule found | declaredType found =>
        rw [shapeIn?_node, found]
        exact ⟨rfl, rfl⟩
      | @element id shape found handled =>
        rw [shapeIn?_node, found]
        cases shape <;> first | exact ⟨rfl, rfl⟩ | simp [Shape.handler?] at handled
    | _ =>
      obtain ⟨shape, has, handled⟩ := Phrase.has_of_standsAt stands
      rw [terminalName, terminalIsUsable, shapeIn?_node, has.shape?]
      cases shape <;> first | exact ⟨rfl, rfl⟩ | simp [Shape.handler?, Phrase.handler?] at handled

/-- The name of a resolved reference is that of its face; an unresolved one has none. -/
theorem resolvedName_of_face {place : Item} {f : Face} (plain : f = .element → m.IsPlain)
    (h : f.LedTo m place) :
    (do if ← m.isResolved place then m.nameOf (← m.targetOf place) else pure Item.nothing) =
      f.name?.map Item.ofWord? := by
  obtain ⟨item, target, isAt, resolved, -⟩ := exists_target_of_face h
  rw [resolved, target]
  cases nothing : item.isNothing with
  | true =>
    rw [isNothing_of_face isAt nothing]
    rfl
  | false =>
    refine nameOf_of_face plain isAt ?_
    rintro rfl
    simp [Item.isNothing, Item.nothing] at nothing

/-- A cross reference declares the type that the tree declares. -/
theorem declaredType_of_seen {place terminalPlace : Item} {type : ρ}
    {terminal : Option (Phrase Json ρ)} (plain : face type = .element → m.IsPlain)
    (h : (face type).LedTo m place)
    (stands : Phrase.StandsIn (.seen face) m terminal terminalPlace) :
    m.declaredType place terminalPlace =
      (Drawing.declared face type terminal).map (Option.map .value) := by
  obtain ⟨item, target, isAt, resolved, -⟩ := exists_target_of_face h
  rw [declaredType, resolved, (terminal_of_seen stands).2, target, Drawing.declared]
  cases nothing : item.isNothing with
  | true =>
    rw [isNothing_of_face isAt nothing]
    cases Drawing.isUsable face terminal <;> rfl
  | false =>
    have leads : item ≠ .nothing := by
      rintro rfl
      simp [Item.isNothing, Item.nothing] at nothing
    simp only [ok_bind, nameOf_of_face plain isAt leads]
    cases Drawing.isUsable face terminal with
    | false => rfl
    | true =>
      cases named : (face type).name? with
      | error fault => rfl
      | ok name =>
        cases name with
        | none => rfl
        | some name =>
          have present : (Item.ofWord? (some name)).isNothing = false :=
            isNothing_value (Face.name?_ne_null named)
          simp only [Except.map, ok_bind, Bool.not_false, Bool.and_self, if_true, present]
          rfl

/-- An action makes the type that the tree says. -/
theorem typeNameOf_of_seen {place : Item} {type : Option ρ}
    (plain : ∀ r, face r = .element → m.IsPlain) (inferredType : Option Json)
    (h : Face.MayLeadTo m place (type.map face)) :
    m.typeNameOf place (.ofWord? inferredType) =
      (Drawing.made face type inferredType).map Item.ofWord? := by
  have byType : inferredType.filter Json.isPresent = none →
      m.typeNameOf place (.ofWord? inferredType) =
        (Drawing.made face type inferredType).map Item.ofWord? := by
    intro absent
    have missing : (Item.ofWord? inferredType).isPresent = false := by
      cases inferredType with
      | none => rfl
      | some word => simpa [Item.ofWord?, Item.isPresent] using absent
    rw [typeNameOf, if_neg (by simp [missing]), Drawing.made, absent]
    cases type with
    | none =>
      subst h
      rfl
    | some type =>
      obtain ⟨id, rfl, ledTo⟩ := h
      exact resolvedName_of_face (plain type) ledTo
  cases inferredType with
  | none => exact byType rfl
  | some word =>
    cases present : word.isPresent with
    | false => exact byType (by simp [present])
    | true =>
      have here : (Item.ofWord? (some word)).isPresent = true := present
      have kept : (some word).filter Json.isPresent = some word := by simp [present]
      rw [typeNameOf, if_pos here, Drawing.made, kept]
      rfl

/-- A feature is shown as its value is. -/
theorem shownFeature_ofWord? (m : Model) (feature : Option Json) :
    m.shownFeature (.ofWord? feature) = feature.bind Json.shown? := by
  cases feature <;> rfl

section Met

variable {met : List (Phrase Json ρ) × Phrase Json ρ} {id : NodeId} {path : List NodeId}

/-- The operator of the nearest assignment, read as it is shown. -/
theorem map_assigns?_seen (outer : List (Phrase Json ρ)) :
    ((outer.findSome? Phrase.assigns?).map some).map (Interpretation.seen face).item? =
      (outer.find? Phrase.isAssignment).bind Phrase.operator? := by
  induction outer with
  | nil => rfl
  | cons c rest ih =>
    cases c with
    | assignment => rfl
    | _ => exact ih

/-- The mark of the nearest group that counts, read as it is shown. -/
theorem map_groupMark?_seen (outer : List (Phrase Json ρ)) :
    (outer.findSome? (Phrase.groupMark? (.seen face))).map (Interpretation.seen face).item? =
      (outer.find? Phrase.isMarkedGroup).map fun group => Item.ofWord? group.mark := by
  induction outer with
  | nil => rfl
  | cons c rest ih =>
    cases c with
    | group elements mark => exact congrArg some (Interpretation.seen_item? face mark)
    | alternatives elements mark =>
      rw [List.findSome?_cons, List.find?_cons, Phrase.groupMark?, Phrase.isMarkedGroup,
        Interpretation.seen_item?]
      cases (Item.ofWord? mark).isPresent with
      | true => exact congrArg some (Interpretation.seen_item? face mark)
      | false => exact ih
    | _ => exact ih

/-- The signals of an element within others, read as they are shown. -/
theorem map_signalsWithin_seen (outer : List (Phrase Json ρ)) (b : Phrase Json ρ) :
    (b.signalsWithin (.seen face) outer).map (Interpretation.seen face).item? =
      b.signals outer := by
  have operator : (b.ownOperator?.or ((outer.findSome? Phrase.assigns?).map some)).map
      (Interpretation.seen face).item? = b.governingOperator outer := by
    rw [Option.map_or, map_assigns?_seen]
    cases b with
    | assignment => rfl
    | action type inferredType feature operator mark =>
      exact congrArg some (Interpretation.seen_item? face operator)
    | _ => rfl
  rw [Phrase.signalsWithin, Phrase.signals, List.map_append, List.map_cons, ← Option.toList_map,
    ← Option.toList_map, operator, map_groupMark?_seen, Interpretation.seen_item?]

/-- The signals that apply to what is met are those of the tree. -/
theorem signals_of_seen (h : m.Meets (.seen face) rule met id path) :
    m.signals id = met.2.signals met.1 :=
  (signals_of_meets h).trans (map_signalsWithin_seen met.1 met.2)

/-- The bounds of what is met are those of the tree. -/
theorem multiplicity_of_seen (h : m.Meets (.seen face) rule met id path) :
    m.multiplicity id = met.2.bounds met.1 := by
  rw [multiplicity, signals_of_seen h, Phrase.bounds]

/-- The attribute lines of what is visited are those of the tree. -/
theorem visitedAttribute_of_seen {visited : Handler × Item}
    (h : m.Visited (.seen face) rule met visited) :
    m.visitedAttribute visited = .ofList (Drawing.attributes face met.2) := by
  obtain ⟨handler, item⟩ := visited
  obtain ⟨id, path, rfl, handled, meets⟩ := h
  obtain ⟨outer, b⟩ := met
  have stands := meets.stands
  cases b with
  | assignment feature operator terminal mark =>
    cases handled
    obtain ⟨place, below, has⟩ := stands
    have called := (terminal_of_seen below).1
    have terminalPart : m.partOf (.node id) "terminal" = .ok place :=
      partOf_of_shape has.shape? rfl (by decide) (by decide)
    have featurePart : m.partOf (.node id) "feature" = .ok (.value feature) :=
      partOf_of_shape has.shape? rfl (by decide) (by decide)
    have operatorPart : m.partOf (.node id) "operator" = .ok (.value operator) :=
      partOf_of_shape has.shape? rfl (by decide) (by decide)
    simp only [visitedAttribute, attributeLine, terminalPart, ok_bind, called, featurePart,
      operatorPart, Drawing.attributes]
    cases Drawing.calledTerminal? face terminal <;> rfl
  | unknown kind mark => cases handled
  | _ =>
    cases handled
    rfl

/-- A line between two names that is drawn for what is met has the bounds of the tree. -/
theorem drawnLine_of_seen {arrow : Arrow} (h : m.Meets (.seen face) rule met id path)
    (drawn : m.arrowOf (.node id) = .ok arrow) (source target : Json) (feature : Option Json)
    (isCall : Bool) : m.drawnLine id (.value source) (.value target) (.ofWord? feature) =
      Line.text ⟨source, some (met.2.bounds met.1), arrow, feature.bind Json.shown?, target,
        isCall⟩ := by
  rw [drawnLine, drawn, ok_bind, multiplicity_of_seen h, shownFeature_ofWord?]
  rfl

section Owned

variable {owner : Json} (named : m.nameOf (.node rule) = .ok (.value owner))

include named

/-- The owner of what is met has the name of the rule. -/
theorem ownerName_of_seen (h : m.Meets (.seen face) rule met id path) :
    m.ownerName id = .ok (.value owner) := by
  rw [ownerName, h.ownerRule, ok_bind, named]

/-- The line from the owner of what is met to a name is written as it is drawn. -/
theorem lineFromOwner_of_seen {arrow : Arrow} (h : m.Meets (.seen face) rule met id path)
    (drawn : m.arrowOf (.node id) = .ok arrow) (feature name : Option Json) (isCall : Bool) :
    m.lineFromOwner id (.ofWord? feature) (name.map .value) =
      Emission.ofEach Line.write (name.toList.map fun name =>
        ⟨owner, some (met.2.bounds met.1), arrow, feature.bind Json.shown?, name, isCall⟩) := by
  cases name with
  | none => rfl
  | some name =>
    rw [Option.map_some, lineFromOwner, ownerName_of_seen named h, ok_bind,
      drawnLine_of_seen h drawn owner name feature isCall]
    exact (Emission.ofEach_singleton _ _).symm

/-- The line from a name to the owner of what is met is written as it is drawn. -/
theorem lineToOwner_of_seen {arrow : Arrow} (h : m.Meets (.seen face) rule met id path)
    (drawn : m.arrowOf (.node id) = .ok arrow) (feature name : Option Json) (isCall : Bool) :
    m.lineToOwner id (.ofWord? feature) (name.map .value) =
      Emission.ofEach Line.write (name.toList.map fun name =>
        ⟨name, some (met.2.bounds met.1), arrow, feature.bind Json.shown?, owner, isCall⟩) := by
  cases name with
  | none => rfl
  | some name =>
    rw [Option.map_some, lineToOwner, ownerName_of_seen named h, ok_bind,
      drawnLine_of_seen h drawn name owner feature isCall]
    exact (Emission.ofEach_singleton _ _).symm

/-- The line of what an assignment assigns is written as the tree draws it. -/
theorem assignedLine_of_seen (plain : ∀ r, face r = .element → m.IsPlain) {arrow : Arrow}
    {met' : List (Phrase Json ρ) × Phrase Json ρ} {assigned : NodeId} {path' : List NodeId}
    (h : m.Meets (.seen face) rule met id path) (drawn : m.arrowOf (.node id) = .ok arrow)
    (feature : Json) (h' : m.Meets (.seen face) rule met' assigned path') :
    m.assignedLine id (.value feature) (.node assigned) =
      (Drawing.assigned face owner (met.2.bounds met.1) arrow feature met'.2).flatMap
        Line.write := by
  obtain ⟨outer', b⟩ := met'
  have stands := h'.stands
  cases b with
  | ruleCall call mark =>
    obtain ⟨link, leads, has⟩ := stands
    rw [assignedLine, shapeIn?_node, has.shape?]
    simp only [parserRuleName_of_face leads, Drawing.assigned, Emission.ofExcept_ok,
      Emission.ofList_flatMap, Emission.ofEach_singleton]
    exact lineFromOwner_of_seen named h drawn (some feature) _ true
  | crossReference type terminal mark =>
    obtain ⟨link, place, leads, below, has⟩ := stands
    rw [assignedLine, shapeIn?_node, has.shape?]
    simp only [declaredType_of_seen (plain type) leads below, Drawing.assigned,
      Emission.flatMap_assoc]
    refine Emission.ofExcept_map_flatMap fun name _ => ?_
    rw [Emission.ofList_flatMap]
    exact lineToOwner_of_seen named h drawn (some feature) name false
  | _ =>
    obtain ⟨shape, has, handled⟩ := Phrase.has_of_standsAt stands
    rw [assignedLine, shapeIn?_node, has.shape?]
    cases shape <;> first | rfl | simp [Shape.handler?, Phrase.handler?] at handled

/-- The lines of an assignment are those of what it assigns, as the tree draws them. -/
theorem assignmentLines_of_seen (plain : ∀ r, face r = .element → m.IsPlain)
    {outer : List (Phrase Json ρ)} {feature operator : Json} {terminal : Option (Phrase Json ρ)}
    {mark : Option Json} (meets : m.Meets (.seen face) rule
      (outer, .assignment feature operator terminal mark) id path) :
    m.elementLines id =
      (Drawing.drawn face owner (outer, .assignment feature operator terminal mark)).flatMap
        Line.write := by
  obtain ⟨place, below, has⟩ := meets.stands
  have drawn : m.arrowOf (.node id) = .ok (Drawing.assignmentArrow operator) := has.arrowOf rfl
  rw [elementLines, has.shape?]
  simp only [Interpretation.seen_item, Drawing.drawn]
  cases terminal with
  | none =>
    simp only [Phrase.StandsIn] at below
    subst below
    rfl
  | some t =>
    obtain ⟨assigned, rfl, stands⟩ := below
    have contained : m.IsChild id assigned := ⟨_, has.shape?, by
      simp [Shape.children, Shape.containedIn, Shape.contained, Emission.append, Emission.ofList,
        Emission.nothing]⟩
    have through := @assignedTo_eq_ofEach _ _ _ m rule id (.value feature) (fun below =>
      (Drawing.assigned face owner (Phrase.bounds outer (.assignment feature operator (some t) mark))
        (Drawing.assignmentArrow operator) feature below).flatMap Line.write)
      (fun met => assignedLine_of_seen named plain meets drawn feature met) t
    rw [through (meets.child contained stands) (by simp only [List.length_cons]; omega),
      Option.toList_some, List.flatMap_singleton, Emission.ofEach_flatMap, t.map_reached _ []]

/-- The line of an action is written as the tree draws it. -/
theorem actionLines_of_seen (plain : ∀ r, face r = .element → m.IsPlain)
    {outer : List (Phrase Json ρ)} {type : Option ρ}
    {inferredType feature operator mark : Option Json} (meets : m.Meets (.seen face) rule
      (outer, .action type inferredType feature operator mark) id path) :
    m.elementLines id =
      (Drawing.drawn face owner (outer, .action type inferredType feature operator mark)).flatMap
        Line.write := by
  have stands := meets.stands
  obtain ⟨place, leads, has⟩ : ∃ place, Face.MayLeadTo m place (type.map face) ∧
      m.Has id (.action place (.ofWord? inferredType) (.ofWord? feature) (.ofWord? operator))
        (.ofWord? mark) := by
    cases type with
    | none => exact ⟨.nothing, rfl, by simpa [Phrase.StandsAt] using stands⟩
    | some type =>
      obtain ⟨link, leads, has⟩ := stands
      exact ⟨.node link, ⟨link, rfl, leads⟩, by simpa using has⟩
  have drawn : m.arrowOf (.node id) = .ok .inheritance := has.arrowOf rfl
  rw [elementLines, has.shape?]
  simp only [typeNameOf_of_seen plain inferredType leads, Drawing.drawn, Emission.flatMap_assoc]
  refine Emission.ofExcept_map_flatMap fun name isMade => ?_
  cases name with
  | none => rfl
  | some name =>
    have present : (Item.ofWord? (some name)).isNothing = false :=
      isNothing_value (Drawing.made_ne_null face isMade)
    rw [if_neg (by simp [present]), Emission.ofList_flatMap]
    exact lineToOwner_of_seen named meets drawn feature (some name) false

/-- The relationship lines of what is visited are written as the tree draws them. -/
theorem visitedLines_of_seen (plain : ∀ r, face r = .element → m.IsPlain) {visited : Handler × Item}
    (h : m.Visited (.seen face) rule met visited) :
    m.visitedLines visited = (Drawing.drawn face owner met).flatMap Line.write := by
  obtain ⟨handler, item⟩ := visited
  obtain ⟨id, path, rfl, -, meets⟩ := h
  obtain ⟨outer, b⟩ := met
  have stands := meets.stands
  rw [visitedLines]
  cases b with
  | assignment feature operator terminal mark => exact assignmentLines_of_seen named plain meets
  | action type inferredType feature operator mark => exact actionLines_of_seen named plain meets
  | ruleCall call mark =>
    obtain ⟨link, leads, has⟩ := stands
    have drawn : m.arrowOf (.node id) = .ok .composition := has.arrowOf rfl
    rw [elementLines, has.shape?]
    simp only [parserRuleName_of_face leads, Drawing.drawn, Emission.ofExcept_ok,
      Emission.ofList_flatMap, Emission.ofEach_singleton]
    exact lineFromOwner_of_seen named meets drawn none _ true
  | crossReference type terminal mark =>
    obtain ⟨link, place, leads, below, has⟩ := stands
    have drawn : m.arrowOf (.node id) = .ok .association := has.arrowOf rfl
    rw [elementLines, has.shape?]
    simp only [declaredType_of_seen (plain type) leads below, Drawing.drawn, Emission.flatMap_assoc]
    refine Emission.ofExcept_map_flatMap fun name _ => ?_
    rw [Emission.ofList_flatMap]
    exact lineFromOwner_of_seen named meets drawn none name false
  | _ =>
    obtain ⟨shape, has, handled⟩ := Phrase.has_of_standsAt stands
    rw [elementLines, has.shape?]
    cases shape <;> first | rfl | simp [Shape.handler?, Phrase.handler?] at handled

end Owned

end Met

section Standing

variable {production : Production Json ρ} {id : NodeId}

/-- A rule has the name of the tree. -/
theorem nameOf_of_seen (h : production.StandsAt (.seen face) m id) :
    m.nameOf (.node id) = .ok (.value production.name) := by
  cases production with
  | parser name definition inferredType entry fragment =>
    obtain ⟨place, -, shape⟩ := h
    exact partOf_of_shape shape rfl (by decide) (by decide)
  | terminal name regex hidden fragment =>
    exact partOf_of_shape h rfl (by decide) (by decide)

/-- The attribute lines of a body are those of the tree, up to the first element of unknown kind. -/
theorem attributeLines_of_seen {b : Phrase Json ρ} {body : NodeId}
    (meets : m.Meets (.seen face) rule ([], b) body []) : m.attributeLines (.node body) =
      (b.passed []).flatMap fun met => .ofList (Drawing.attributes face met.2) :=
  (visits_of_meets meets).flatMap_eq fun _ _ seen => visitedAttribute_of_seen seen

/-- The class block of a rule is that of the tree, up to the first element of unknown kind. -/
theorem classBlock_eq_openBlock (h : production.StandsAt (.seen face) m id)
    (nested : m.NestedBelow id) : m.classBlock (.node id) = Drawing.openBlock face production := by
  rw [classBlock, Drawing.openBlock]
  cases hb : production.body? with
  | none => rw [drawnRule?_eq_none h hb]
  | some b =>
    obtain ⟨body, drawn, meets⟩ := exists_meets_of_standsAt h nested hb
    rw [drawn]
    dsimp only
    rw [attributeLines_of_seen meets]
    rfl

/-- The class block of a rule is that of the tree. -/
theorem classBlock_of_seen (h : production.StandsAt (.seen face) m id) (nested : m.NestedBelow id)
    (known : production.isKnown) :
    m.classBlock (.node id) = .ofList (Drawing.block face production) := by
  rw [classBlock_eq_openBlock h nested, Drawing.openBlock_of_isKnown known]

/-- The relationship lines of a rule are written as the tree draws them. -/
theorem relationshipLines_of_seen (plain : ∀ r, face r = .element → m.IsPlain)
    (h : production.StandsAt (.seen face) m id) (nested : m.NestedBelow id)
    (known : production.isKnown) :
    m.relationshipLines (.node id) = (Drawing.lines face production).flatMap Line.write := by
  have named := nameOf_of_seen h
  rw [relationshipLines, Drawing.lines]
  cases hb : production.body? with
  | none =>
    rw [drawnRule?_eq_none h hb]
    rfl
  | some b =>
    obtain ⟨body, drawn, meets⟩ := exists_meets_of_standsAt h nested hb
    rw [Production.isKnown, hb, Option.all_some] at known
    have lines : (m.visits (.node body)).flatMap m.visitedLines =
        (Emission.ofEach (Drawing.drawn face production.name) (b.reached [])).flatMap
          Line.write := by
      obtain ⟨visited, visits, together⟩ := visits_of_standsAt meets known
      rw [visits, Emission.ofList_flatMap, Emission.ofEach_flatMap]
      refine Emission.ofEach_congr ?_ together
      intro met _ v _ h
      exact visitedLines_of_seen named plain h
    rw [drawn]
    cases b with
    | ruleCall call mark =>
      obtain ⟨link, leads, has⟩ := meets.stands
      simp only [shapeIn?_node, has.shape?, aliasLine, parserRuleName_of_face leads,
        Emission.ofExcept_ok, Emission.ofList_flatMap, Emission.ofEach_singleton]
      cases (face call).parserRule? with
      | none => rfl
      | some name => exact (Emission.ofEach_singleton _ _).symm
    | _ =>
      obtain ⟨shape, has, handled⟩ := Phrase.has_of_standsAt meets.stands
      simp only [shapeIn?_node, has.shape?]
      cases shape <;> first | exact lines | simp [Shape.handler?, Phrase.handler?] at handled

end Standing

end Model
end GrammarChart
