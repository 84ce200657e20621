import GrammarChart.Proofs.Diagram.Seen
import GrammarChart.Proofs.Diagram.Text

/-!
# Lines of texts

A tree whose words are texts is a tree whose words are values (`Phrase.valued`), and what a
reference leads to has a face (`Target.face`). Where the tree of texts stands in a model, so does the
tree of values (`Production.standsAt_valued`). What is drawn for the tree of values is the text of
the tree: its class block (`Drawing.block_valued`) and its relationship lines
(`Drawing.lines_valued`), with the bounds that the text hands down (`Phrase.bounds_valued`).
-/

set_option autoImplicit false

namespace GrammarChart

/-- What stands in a place is the target. -/
inductive Target.IsAt (m : Model) : Target → Item → Prop where
  | nowhere : IsAt m .nowhere .nothing
  | parserRule {id : NodeId} {name : String} {definition inferredType entry fragment : Item}
      (h : m.shape? id =
        some (.parserRule (.value (.str name)) definition inferredType entry fragment)) :
      IsAt m (.parserRule name) (.node id)
  | terminalRule {id : NodeId} {name : String} {regex hidden fragment : Item}
      (h : m.shape? id = some (.terminalRule (.value (.str name)) regex hidden fragment)) :
      IsAt m (.terminalRule name) (.node id)
  | declaredType {id : NodeId} {name : String} {kind : Item}
      (h : m.shape? id = some (.typeDeclaration (.value (.str name)) kind)) :
      IsAt m (.declaredType name) (.node id)

/-- What stands in a place is a reference to the target. -/
def Target.LedTo (m : Model) (place : Item) (target : Target) : Prop :=
  ∃ id link, place = .node id ∧ m.link? id = some link ∧ target.IsAt m link.target

/-- Words are read as texts and references as what they lead to. -/
def Interpretation.texts : Interpretation String Target := ⟨Json.str, Target.LedTo⟩

/-- What a target shows. -/
def Target.face : Target → Face
  | .nowhere => .nowhere
  | .parserRule name => .parserRule (.str name)
  | .terminalRule name => .terminalRule (.str name)
  | .declaredType name => .declaredType (.str name)

namespace Target

variable {m : Model} {target : Target}

/-- No target is an element of a rule body. -/
theorem face_ne_element (target : Target) : target.face ≠ .element := by
  cases target <;> simp [face]

/-- What is a target has its face. -/
theorem IsAt.face {item : Item} (h : target.IsAt m item) : target.face.IsAt m item := by
  cases h with
  | nowhere => exact .nowhere
  | parserRule found => exact .parserRule found
  | terminalRule found => exact .terminalRule found
  | declaredType found => exact .declaredType found

/-- A reference to a target is one to what has its face. -/
theorem LedTo.face {place : Item} (h : target.LedTo m place) : target.face.LedTo m place := by
  obtain ⟨id, link, rfl, found, leads⟩ := h
  exact ⟨id, link, rfl, found, leads.face⟩

/-- A target is a rule when its face is that of one. -/
theorem isRule_face (target : Target) : target.face.isRule = target.isRule := by
  cases target <;> rfl

/-- The name of a target is that of its face. -/
theorem name?_face (target : Target) : target.face.name? = .ok (target.name?.map .str) := by
  cases target <;> rfl

end Target

/-- A text that may be missing stands as the value that it is. -/
@[simp] theorem Interpretation.texts_item? (word : Option String) :
    Interpretation.texts.item? word = .ofWord? (word.map .str) := by
  cases word <;> rfl

/-- A text stands as the value that it is. -/
@[simp] theorem Interpretation.texts_item (word : String) :
    Interpretation.texts.item word = .value (.str word) := rfl

namespace Phrase

section Valued

variable {ρ : Type}

mutual

/-- The tree with its texts as values. -/
def valued : Phrase String ρ → Phrase Json ρ
  | .keyword value mark => .keyword (.str value) (mark.map .str)
  | .ruleCall rule mark => .ruleCall rule (mark.map .str)
  | .crossReference type terminal mark => .crossReference type (valuedIn terminal) (mark.map .str)
  | .assignment feature operator terminal mark =>
    .assignment (.str feature) (.str operator) (valuedIn terminal) (mark.map .str)
  | .alternatives elements mark => .alternatives (valuedAll elements) (mark.map .str)
  | .group elements mark => .group (valuedAll elements) (mark.map .str)
  | .action type inferredType feature operator mark =>
    .action type (inferredType.map .str) (feature.map .str) (operator.map .str) (mark.map .str)
  | .unknown kind mark => .unknown kind (mark.map .str)

/-- The tree that may stand somewhere, with its texts as values. -/
def valuedIn : Option (Phrase String ρ) → Option (Phrase Json ρ)
  | none => none
  | some b => some b.valued

/-- The trees with their texts as values. -/
def valuedAll : List (Phrase String ρ) → List (Phrase Json ρ)
  | [] => []
  | b :: rest => b.valued :: valuedAll rest

end

attribute [local simp] valued valuedIn valuedAll

/-- The trees have their texts as values one by one. -/
theorem valuedAll_eq (elements : List (Phrase String ρ)) :
    valuedAll elements = elements.map valued := by
  induction elements with
  | nil => rfl
  | cons b rest ih => simp [ih]

/-- The members of a tree of values are those of the tree. -/
theorem members_valued (b : Phrase String ρ) : b.valued.members = b.members.map valued := by
  cases b with
  | alternatives elements mark | group elements mark => exact valuedAll_eq elements
  | _ => rfl

/-- The mark of a tree is a text, or there is none. -/
@[simp] theorem mark_valued (b : Phrase String ρ) : b.valued.mark = b.mark.map .str := by
  cases b <;> rfl

/-- A tree of values is of the kind of the tree. -/
@[simp] theorem handler?_valued (b : Phrase String ρ) : b.valued.handler? = b.handler? := by
  cases b <;> rfl

/-- What a visit meets of a tree of values is what it meets of the tree. -/
theorem reached_nil_valued (b : Phrase String ρ) :
    b.valued.reached [] = (b.reached []).map (Prod.map (List.map valued) valued) :=
  reached_map members_valued b []

/-- A tree of values is known when the tree is. -/
theorem isKnown_valued (b : Phrase String ρ) : b.valued.isKnown = b.isKnown := by
  simp [isKnown, reached_nil_valued, List.all_map, Function.comp_def]

end Valued

/-- Where a tree of texts stands, the tree of values stands. -/
theorem standsAt_valued {m : Model} (b : Phrase String Target) : ∀ {id : NodeId},
    b.StandsAt .texts m id → b.valued.StandsAt (.seen Target.face) m id := by
  induction b using Phrase.induct with
  | step b ih =>
    intro id h
    have below : ∀ {terminal : Option (Phrase String Target)} {place : Item},
        terminal.toList = b.children → StandsIn .texts m terminal place →
          StandsIn (.seen Target.face) m (valuedIn terminal) place := by
      intro terminal place children stands
      cases terminal with
      | none => exact stands
      | some t =>
        obtain ⟨id, rfl, stands⟩ := stands
        exact ⟨id, rfl, ih t (by simp [← children]) stands⟩
    have members : ∀ {elements : List (Phrase String Target)} {ids : List NodeId},
        elements = b.children → StandAt .texts m elements ids →
          StandAt (.seen Target.face) m (valuedAll elements) ids := by
      rintro elements ids rfl stand
      rw [valuedAll_eq, standAt_iff, List.forall₂_map_left_iff]
      exact forall₂_imp_of_mem (fun c mem child stands => ih c mem stands) (standAt_iff.mp stand)
    cases b with
    | keyword value mark => simpa [valued, StandsAt] using h
    | ruleCall rule mark =>
      obtain ⟨link, leads, has⟩ := h
      exact ⟨link, leads.face, by simpa using has⟩
    | crossReference type terminal mark =>
      obtain ⟨link, place, leads, stands, has⟩ := h
      exact ⟨link, place, leads.face, below rfl stands, by simpa using has⟩
    | assignment feature operator terminal mark =>
      obtain ⟨place, stands, has⟩ := h
      exact ⟨place, below rfl stands, by simpa using has⟩
    | alternatives elements mark =>
      obtain ⟨ids, stand, has⟩ := h
      exact ⟨ids, members rfl stand, by simpa using has⟩
    | group elements mark =>
      obtain ⟨ids, stand, has⟩ := h
      exact ⟨ids, members rfl stand, by simpa using has⟩
    | action type inferredType feature operator mark =>
      cases type with
      | none => simpa [valued, StandsAt] using h
      | some type =>
        obtain ⟨link, leads, has⟩ := h
        exact ⟨link, leads.face, by simpa using has⟩
    | unknown kind mark =>
      obtain ⟨called, shapeKind, has⟩ := h
      exact ⟨called, shapeKind, by simpa using has⟩

end Phrase

namespace Production

variable {ρ : Type}

/-- The rule with its texts as values. -/
def valued : Production String ρ → Production Json ρ
  | .parser name definition inferredType entry fragment =>
    .parser (.str name) (definition.map Phrase.valued) (inferredType.map .str) entry fragment
  | .terminal name regex hidden fragment =>
    .terminal (.str name) (regex.map .str) hidden fragment

/-- The name of a rule of values is a text. -/
@[simp] theorem name_valued (rule : Production String ρ) : rule.valued.name = .str rule.name := by
  cases rule <;> rfl

/-- The body of a rule of values is that of the rule. -/
@[simp] theorem body?_valued (rule : Production String ρ) :
    rule.valued.body? = rule.body?.map Phrase.valued := by
  cases rule <;> rfl

/-- A rule of values is known when the rule is. -/
theorem isKnown_valued (rule : Production String ρ) : rule.valued.isKnown = rule.isKnown := by
  rw [isKnown, isKnown, body?_valued]
  cases rule.body? with
  | none => rfl
  | some b => exact b.isKnown_valued

/-- Where a rule of texts stands, the rule of values stands. -/
theorem standsAt_valued {m : Model} {rule : Production String Target} {id : NodeId}
    (h : rule.StandsAt .texts m id) : rule.valued.StandsAt (.seen Target.face) m id := by
  cases rule with
  | parser name definition inferredType entry fragment =>
    obtain ⟨place, stands, shape⟩ := h
    refine ⟨place, ?_, by simpa using shape⟩
    cases definition with
    | none => exact stands
    | some b =>
      obtain ⟨body, rfl, stands⟩ := stands
      exact ⟨body, rfl, b.standsAt_valued stands⟩
  | terminal name regex hidden fragment => simpa [StandsAt, valued] using h

end Production

/-! ### Bounds -/

section Bounds

variable {ρ : Type}

/-- A text that may be missing is a text when it is that text. -/
theorem Item.isText_ofWord? (word : Option String) (text : String) :
    (Item.ofWord? (word.map .str)).isText text = (word == some text) := by
  cases word <;> rfl

/-- A text that may be missing is present unless it is missing or empty. -/
theorem Item.isPresent_ofWord? (word : Option String) :
    (Item.ofWord? (word.map .str)).isPresent = !(word == none || word == some "") := by
  cases word with
  | none => rfl
  | some word => simp [Item.ofWord?, Item.isPresent, Json.isPresent, bne]

/-- Some signal lifts the upper bound when some signal is one of those that do. -/
theorem any_isManySignal (signals : List Item) : signals.any Multiplicity.isManySignal =
    (signals.any (·.isText "*") || signals.any (·.isText "+") || signals.any (·.isText "+=")) := by
  induction signals with
  | nil => rfl
  | cons signal rest ih =>
    simp only [List.any_cons, ih, Multiplicity.isManySignal]
    ac_rfl

/-- Some member of what may be missing has a property when it is there and has it. -/
theorem any_toList {α : Type} (o : Option α) (p : α → Bool) : o.toList.any p = o.any p := by
  cases o <;> simp

namespace Phrase

/-- The operator of the nearest assignment around is the one that is handed down. -/
theorem nearest_operator (outer : List (Phrase String ρ)) (text : String) :
    (((outer.map valued).find? isAssignment).bind operator?).any (·.isText text) =
      ((Inherited.around outer).operator == some text) := by
  induction outer with
  | nil => rfl
  | cons b outer ih =>
    rw [List.map_cons, List.find?_cons]
    cases b with
    | assignment feature operator terminal mark => exact Item.isText_ofWord? (some operator) text
    | alternatives elements mark =>
      refine ih.trans ?_
      rw [Inherited.around, Inherited.within]
      split <;> rfl
    | _ => exact ih

/-- The mark of the nearest group around is the one that is handed down. -/
theorem nearest_mark (outer : List (Phrase String ρ)) (text : String) :
    (((outer.map valued).find? isMarkedGroup).map fun group => Item.ofWord? group.mark).any
        (·.isText text) = ((Inherited.around outer).mark == some text) := by
  induction outer with
  | nil => rfl
  | cons b outer ih =>
    rw [List.map_cons, List.find?_cons]
    cases b with
    | group elements mark => exact Item.isText_ofWord? mark text
    | alternatives elements mark =>
      have marked : isMarkedGroup (valued (.alternatives elements mark)) =
          !(mark == none || mark == some "") := Item.isPresent_ofWord? mark
      rw [marked, Inherited.around, Inherited.within]
      by_cases unmarked : mark = none ∨ mark = some ""
      · rw [if_pos unmarked]
        rcases unmarked with rfl | rfl <;> exact ih
      · rw [if_neg unmarked]
        have counts : (!(mark == none || mark == some "")) = true := by
          obtain ⟨missing, empty⟩ := not_or.mp unmarked
          simpa [empty] using Option.isSome_iff_ne_none.mpr missing
        rw [counts]
        exact Item.isText_ofWord? mark text
    | _ => exact ih

/-- The operator that applies to an element is its own, or the one that is handed down. -/
theorem any_governingOperator (outer : List (Phrase String ρ)) (b : Phrase String ρ)
    (text : String) : (b.valued.governingOperator (outer.map valued)).any (·.isText text) =
      ((Inherited.around outer).operatorOf b == some text) := by
  cases b with
  | assignment feature operator terminal mark => exact Item.isText_ofWord? (some operator) text
  | action type inferredType feature operator mark => exact Item.isText_ofWord? operator text
  | _ => exact nearest_operator outer text

/-- An element within others has the bounds that the text hands down. -/
theorem bounds_valued (outer : List (Phrase String ρ)) (b : Phrase String ρ) :
    b.valued.bounds (outer.map valued) = (Inherited.around outer).bounds b := by
  have signals : ∀ text, (b.valued.signals (outer.map valued)).any (·.isText text) =
      [b.mark, (Inherited.around outer).operatorOf b, (Inherited.around outer).mark].contains
        (some text) := by
    intro text
    simp only [Phrase.signals, mark_valued, List.cons_append, List.any_cons, List.any_append,
      any_toList, any_governingOperator, nearest_mark, Item.isText_ofWord?,
      List.contains_cons, List.contains_nil, Bool.or_false, BEq.comm (a := some text)]
  rw [Phrase.bounds, Multiplicity.ofSignals, Inherited.bounds, any_isManySignal]
  unfold Multiplicity.isOptionalSignal
  rw [signals, signals, signals, signals]

end Phrase

end Bounds

/-- Bounds as written are never empty. -/
theorem Multiplicity.text_ne_empty (bounds : Multiplicity) : bounds.text ≠ "" := by
  obtain ⟨optional, many⟩ := bounds
  cases optional <;> cases many <;> decide

/-- Texts are joined by spaces. -/
theorem joinParts_texts (texts : List String) :
    joinParts (texts.map fun text => .value (.str text)) = .ok (" ".intercalate texts) := by
  have all : (texts.map fun text => Item.value (.str text)).mapM Item.text? = some texts := by
    induction texts with
    | nil => rfl
    | cons text rest ih => simp [ih, Item.text?, Item.value?, Json.text?]
  simp [joinParts, all]

/-- A line of texts with bounds. A feature is shown unless it is missing or empty. -/
theorem relationshipLine_texts (source target : String) (bounds : Multiplicity) (arrow : Arrow)
    (feature : Option String) :
    relationshipLine (.value (.str source)) (.value (.str bounds.text)) (.value (.str arrow.text))
        (.value (.str target)) (feature.filter (· ≠ "")) =
      .ok (boundedLine source bounds arrow (feature.getD "") target) := by
  have present : (Item.value (.str bounds.text)).isPresent = true := by
    simp [Item.isPresent, Json.isPresent, bounds.text_ne_empty]
  have unlabelled : relationshipLine (.value (.str source)) (.value (.str bounds.text))
      (.value (.str arrow.text)) (.value (.str target)) none =
        .ok (boundedLine source bounds arrow "" target) := by
    rw [relationshipLine, if_pos present]
    have joined := joinParts_texts [source, bounds.text, arrow.text, target]
    simp only [List.map_cons, List.map_nil] at joined
    simp [joined, Except.map, boundedLine, featureLabel, String.intercalate_cons_cons,
      String.append_assoc]
  cases feature with
  | none => exact unlabelled
  | some text =>
    by_cases empty : text = ""
    · subst empty
      exact unlabelled
    · have kept : (some text).filter (· ≠ "") = some text := by simp [empty]
      have label : featureLabel text = "\"" ++ text ++ "\"" ++ " " := by
        have closed : "\" " = "\"" ++ " " := rfl
        rw [featureLabel, if_neg empty, closed, ← String.append_assoc]
      rw [relationshipLine, if_pos present, kept, boundedLine, Option.getD_some, label]
      simp only [Option.map_some, Option.toList_some, List.cons_append, List.nil_append]
      generalize "\"" ++ text ++ "\"" = quoted
      have joined := joinParts_texts [source, bounds.text, arrow.text, quoted, target]
      simp only [List.map_cons, List.map_nil] at joined
      simp [joined, Except.map, String.intercalate_cons_cons, String.append_assoc]

/-- The line of an alias, without bounds. -/
theorem relationshipLine_alias (name other : String) :
    relationshipLine (.value (.str name)) .nothing (.value (.str Arrow.composition.text))
        (.value (.str other)) none = .ok (name ++ " *-- " ++ other ++ "\n") := by
  have joined := joinParts_texts [name, "*--", other]
  have spaced : " " ++ ("*--" ++ (" " ++ other)) = " *-- " ++ other := by
    rw [← String.append_assoc, ← String.append_assoc]
    rfl
  simp only [List.map_cons, List.map_nil] at joined
  simp only [relationshipLine, Arrow.text, Item.isPresent, Item.nothing, Json.isPresent,
    Bool.false_eq_true, if_false, Option.map_none, Option.toList_none,
    List.nil_append, List.cons_append, joined, Except.map, String.intercalate_cons_cons,
    String.intercalate_singleton, String.append_assoc, spaced]


/-- A text that may be missing is shown unless it is missing or empty. -/
theorem bind_shown?_map_str (feature : Option String) :
    (feature.map Json.str).bind Json.shown? = feature.filter (· ≠ "") := by
  cases feature with
  | none => rfl
  | some text =>
    by_cases empty : text = ""
    · subst empty
      rfl
    · have kept : (some text).filter (· ≠ "") = some text := by simp [empty]
      rw [kept]
      simp [Json.shown?, Json.isPresent, Json.display, empty]

/-- A line of texts with bounds is written as in the text. -/
theorem Line.write_texts (source target : String) (bounds : Multiplicity) (arrow : Arrow)
    (feature : Option String) (isCall : Bool) :
    Line.write ⟨.str source, some bounds, arrow, (feature.map Json.str).bind Json.shown?,
        .str target, isCall⟩ =
      .ofList [boundedLine source bounds arrow (feature.getD "") target] := by
  rw [Line.write, Line.text, bind_shown?_map_str]
  exact congrArg Emission.ofExcept (relationshipLine_texts source target bounds arrow feature)

/-- The line to a name that may be missing is written as in the text. -/
theorem Line.ofEach_write_to (source : String) (target : Option String) (bounds : Multiplicity)
    (arrow : Arrow) (feature : Option String) (isCall : Bool) :
    Emission.ofEach Line.write ((target.map Json.str).toList.map fun target =>
        ⟨.str source, some bounds, arrow, (feature.map Json.str).bind Json.shown?, target, isCall⟩) =
      .ofList (target.toList.map (boundedLine source bounds arrow (feature.getD ""))) := by
  cases target with
  | none => rfl
  | some target =>
    exact (Emission.ofEach_singleton _ _).trans
      (write_texts source target bounds arrow feature isCall)

/-- The line from a name that may be missing is written as in the text. -/
theorem Line.ofEach_write_from (source : Option String) (target : String) (bounds : Multiplicity)
    (arrow : Arrow) (feature : Option String) (isCall : Bool) :
    Emission.ofEach Line.write ((source.map Json.str).toList.map fun source =>
        ⟨source, some bounds, arrow, (feature.map Json.str).bind Json.shown?, .str target, isCall⟩) =
      .ofList (source.toList.map fun source =>
        boundedLine source bounds arrow (feature.getD "") target) := by
  cases source with
  | none => rfl
  | some source =>
    exact (Emission.ofEach_singleton _ _).trans
      (write_texts source target bounds arrow feature isCall)

namespace Drawing

/-- The terminal rule that is called is that of the text. -/
theorem calledTerminal?_valued (terminal : Option (Phrase String Target)) :
    calledTerminal? Target.face (Phrase.valuedIn terminal) =
      (Phrase.calledTerminal? terminal).map .str := by
  cases terminal with
  | none => rfl
  | some t =>
    cases t with
    | ruleCall rule mark => cases rule <;> rfl
    | _ => rfl

/-- The attribute line of an element is that of the text. -/
theorem attributes_valued (b : Phrase String Target) :
    attributes Target.face b.valued = b.attributeLines := by
  cases b with
  | assignment feature operator terminal mark =>
    rw [Phrase.valued, attributes, calledTerminal?_valued, Phrase.attributeLines]
    cases Phrase.calledTerminal? terminal <;> rfl
  | _ => rfl

/-- A terminal can be used when that of the text can. -/
theorem isUsable_valued (terminal : Option (Phrase String Target)) :
    isUsable Target.face (Phrase.valuedIn terminal) = Phrase.isUsable terminal := by
  cases terminal with
  | none => rfl
  | some t =>
    cases t with
    | ruleCall rule mark => exact rule.isRule_face
    | _ => rfl

/-- A cross reference declares the type that it declares in the text. -/
theorem declared_valued (type : Target) (terminal : Option (Phrase String Target)) :
    declared Target.face type (Phrase.valuedIn terminal) =
      .ok ((Phrase.declared? type terminal).map .str) := by
  rw [declared, isUsable_valued, type.name?_face, Phrase.declared?]
  split <;> rfl

/-- An action makes the type that it makes in the text. -/
theorem made_valued (type : Option Target) (inferredType : Option String) :
    made Target.face type (inferredType.map .str) =
      .ok ((Phrase.made? type inferredType).map .str) := by
  have named : (type.map fun type => type.face.name?).getD (.ok none) =
      .ok ((type.bind Target.name?).map .str) := by
    cases type with
    | none => rfl
    | some type => exact type.name?_face
  cases inferredType with
  | none => exact named
  | some word =>
    by_cases empty : word = ""
    · subst empty
      exact named
    · have kept : (some (Json.str word)).filter Json.isPresent = some (.str word) := by
        simp [Json.isPresent, empty]
      rw [made, Option.map_some, kept, Phrase.made?, if_neg empty]
      rfl

/-- An operator has the arrow that it has in the text. -/
theorem assignmentArrow_valued (operator : String) :
    assignmentArrow (.str operator) = Phrase.assignmentArrow operator := by
  simp [assignmentArrow, Phrase.assignmentArrow, Json.isText]

/-- The line of what is assigned is that of the text. -/
theorem assigned_valued (owner : String) (bounds : Multiplicity) (arrow : Arrow) (feature : String)
    (b : Phrase String Target) :
    (assigned Target.face (.str owner) bounds arrow (.str feature) b.valued).flatMap Line.write =
      .ofList (b.assignedLines owner bounds arrow feature) := by
  cases b with
  | ruleCall rule mark =>
    cases rule with
    | parserRule name =>
      exact (Emission.ofList_flatMap _ _).trans
        (Line.ofEach_write_to owner (some name) bounds arrow (some feature) true)
    | _ => rfl
  | crossReference type terminal mark =>
    simp only [Phrase.valued, assigned, declared_valued, Emission.ofExcept_ok,
      Emission.ofList_flatMap, Emission.ofEach_singleton]
    exact Line.ofEach_write_from _ owner bounds arrow (some feature) false
  | _ => rfl

/-- The lines of what is met are those of the text. -/
theorem drawn_valued (owner : String) (outer : List (Phrase String Target))
    (b : Phrase String Target) :
    (drawn Target.face (.str owner) (outer.map Phrase.valued, b.valued)).flatMap Line.write =
      .ofList (b.drawnLines owner (.around outer)) := by
  have bounds := b.bounds_valued outer
  rw [drawn, bounds]
  cases b with
  | assignment feature operator terminal mark =>
    simp only [Phrase.valued, assignmentArrow_valued, Phrase.drawnLines]
    cases terminal with
    | none => rfl
    | some t =>
      simp only [Phrase.valuedIn, Option.toList_some, List.flatMap_singleton,
        Phrase.reached_nil_valued, List.map_map, Emission.ofEach_map, Emission.ofEach_flatMap]
      refine Emission.ofEach_eq_ofList fun met _ => ?_
      exact assigned_valued owner _ _ feature met.2
  | ruleCall rule mark =>
    cases rule with
    | parserRule name =>
      exact (Emission.ofList_flatMap _ _).trans
        (Line.ofEach_write_to owner (some name) _ .composition none true)
    | _ => rfl
  | crossReference type terminal mark =>
    simp only [Phrase.valued, declared_valued, Emission.ofExcept_ok, Emission.ofList_flatMap,
      Emission.ofEach_singleton]
    exact Line.ofEach_write_to owner _ _ .association none false
  | action type inferredType feature operator mark =>
    simp only [Phrase.valued, made_valued, Emission.ofExcept_ok, Emission.ofList_flatMap,
      Emission.ofEach_singleton]
    exact Line.ofEach_write_from _ owner _ .inheritance feature false
  | _ => rfl

/-- The class block of a rule is that of the text. -/
theorem block_valued (rule : Production String Target) :
    block Target.face rule.valued = rule.classBlock := by
  rw [block, Production.classBlock, Production.body?_valued, Production.name_valued]
  cases rule.body? with
  | none => rfl
  | some b =>
    simp only [Option.map_some, Phrase.reached_nil_valued, List.flatMap_map, Prod.map_snd,
      attributes_valued]
    rfl

/-- The relationship lines of a rule are those of the text. -/
theorem lines_valued (rule : Production String Target) :
    (lines Target.face rule.valued).flatMap Line.write = .ofList rule.relationshipLines := by
  rw [lines, Production.relationshipLines, Production.body?_valued, Production.name_valued]
  cases rule.body? with
  | none => rfl
  | some b =>
    have drawn : (Emission.ofEach (drawn Target.face (.str rule.name))
        (b.valued.reached [])).flatMap Line.write =
          .ofList ((b.reached []).flatMap fun met =>
            met.2.drawnLines rule.name (.around met.1)) := by
      rw [Phrase.reached_nil_valued, Emission.ofEach_map, Emission.ofEach_flatMap]
      exact Emission.ofEach_eq_ofList fun met _ => drawn_valued rule.name met.1 met.2
    cases b with
    | ruleCall call mark =>
      cases call with
      | parserRule other =>
        exact (Emission.ofList_flatMap _ _).trans ((Emission.ofEach_singleton _ _).trans
          (congrArg Emission.ofExcept (relationshipLine_alias rule.name other)))
      | _ => rfl
    | _ => exact drawn

end Drawing
end GrammarChart
