import GrammarChart.Diagram.Compilation
import GrammarChart.Proofs.Model.Growth
import GrammarChart.Proofs.Model.Visits

/-!
# Diagrams without violations

Only four things violate the element model or the writer: an element without a handler, an element
that stands in no rule, an arrow for what draws none, and a writer that is used out of turn. None of
them happens to rules that stand in a model (`compileRules_neverBreaks`), whatever their words are
and whatever their references lead to; all other faults are those of values of the wrong type.
-/

set_option autoImplicit false

namespace GrammarChart

/-- Going through an item is no violation. -/
theorem Item.items_neverBreaks (item : Item) : Except.NeverBreaks item.items := by
  cases item with
  | list members => exact .ok members
  | node id => exact .error not_false
  | value v =>
    refine Except.NeverBreaks.map ?_ _
    cases v <;> first | exact .ok _ | exact .error not_false

/-- Joining parts of a line is no violation. -/
theorem relationshipLine_neverBreaks (source bounds arrow target : Item)
    (feature : Option String) :
    Except.NeverBreaks (relationshipLine source bounds arrow target feature) := by
  refine Except.NeverBreaks.map ?_ _
  unfold joinParts
  split
  · exact .ok _
  · exact .error not_false

namespace Model

variable {φ ρ : Type} {I : Interpretation φ ρ} {m : Model} {rule : NodeId}

section Parts

variable (m)

/-- Asking for a part is no violation. -/
theorem partOf_neverBreaks (item : Item) (name : String) :
    Except.NeverBreaks (m.partOf item name) := by
  unfold partOf
  split
  · exact .ok _
  · exact .error not_false

/-- Going through a part is no violation. -/
theorem itemsOf_neverBreaks (item : Item) (name : String) :
    Except.NeverBreaks (m.itemsOf item name) :=
  (m.partOf_neverBreaks item name).bind fun part _ => part.items_neverBreaks

/-- Following a reference is no violation. -/
theorem targetShape_neverBreaks (reference : Item) :
    Except.NeverBreaks (m.targetShape reference) :=
  (m.partOf_neverBreaks reference "ref").map _

/-- Asking whether a reference is resolved is no violation. -/
theorem isResolved_neverBreaks (item : Item) : Except.NeverBreaks (m.isResolved item) := by
  refine Except.NeverBreaks.map ?_ _
  unfold resolvedOf
  split
  · exact .ok _
  · exact m.partOf_neverBreaks item "resolved"

/-- Asking for the name of an assigned terminal rule is no violation. -/
theorem terminalName_neverBreaks (terminal : Item) :
    Except.NeverBreaks (m.terminalName terminal) := by
  unfold terminalName
  split
  · refine (m.targetShape_neverBreaks _).bind fun shape _ => ?_
    split <;> exact .ok _
  · exact .ok _

/-- An attribute line is no violation. -/
theorem attributeLine_neverBreaks (item : Item) : Except.NeverBreaks (m.attributeLine item) := by
  refine (m.partOf_neverBreaks item "terminal").bind fun terminal _ => ?_
  refine (m.terminalName_neverBreaks terminal).bind fun name _ => ?_
  split
  · exact .ok _
  · refine (m.partOf_neverBreaks item "feature").bind fun feature _ => ?_
    refine (m.partOf_neverBreaks item "operator").bind fun operator _ => ?_
    exact .ok _

/-- Asking for the parser rule of a call is no violation. -/
theorem parserRuleName_neverBreaks (call : Item) :
    Except.NeverBreaks (m.parserRuleName call) := by
  refine (m.targetShape_neverBreaks call).bind fun shape _ => ?_
  split <;> exact .ok _

/-- Asking whether a terminal can be used is no violation. -/
theorem terminalIsUsable_neverBreaks (terminal : Item) :
    Except.NeverBreaks (m.terminalIsUsable terminal) := by
  unfold terminalIsUsable
  split
  · refine (m.targetShape_neverBreaks _).bind fun shape _ => ?_
    split <;> exact .ok _
  · exact .ok _

/-- Asking for the type of a cross reference is no violation. -/
theorem declaredType_neverBreaks (type terminal : Item) :
    Except.NeverBreaks (m.declaredType type terminal) := by
  refine (m.isResolved_neverBreaks type).bind fun resolved _ => ?_
  refine (m.terminalIsUsable_neverBreaks terminal).bind fun usable _ => ?_
  split
  · refine (m.partOf_neverBreaks type "ref").bind fun target _ => ?_
    exact (m.partOf_neverBreaks target "name").bind fun name _ => .ok _
  · exact .ok _

/-- Asking for the type of an action is no violation. -/
theorem typeNameOf_neverBreaks (type inferredType : Item) :
    Except.NeverBreaks (m.typeNameOf type inferredType) := by
  unfold typeNameOf
  split
  · exact .ok _
  · split
    · exact .ok _
    · refine (m.isResolved_neverBreaks type).bind fun resolved _ => ?_
      split
      · exact (m.partOf_neverBreaks type "ref").bind fun target _ =>
          m.partOf_neverBreaks target "name"
      · exact .ok _

/-- The attribute lines of what is visited are no violation. -/
theorem visitedAttribute_neverBreaks (visited : Handler × Item) :
    (m.visitedAttribute visited).NeverBreaks := by
  unfold visitedAttribute
  split
  · refine (Emission.NeverBreaks.ofExcept (m.attributeLine_neverBreaks _)).flatMap fun line _ => ?_
    exact .ofList _
  · exact .ofList []

/-- The line of an alias is no violation. -/
theorem aliasLine_neverBreaks (name call : Item) : (m.aliasLine name call).NeverBreaks := by
  have named := Emission.NeverBreaks.ofExcept (m.parserRuleName_neverBreaks call)
  refine named.flatMap fun target _ => ?_
  split
  · exact .ofList []
  · exact .ofExcept (relationshipLine_neverBreaks _ _ _ _ _)

end Parts

section Met

variable {met : List (Phrase φ ρ) × Phrase φ ρ} {id : NodeId} {path : List NodeId}

/-- The shape that an element of a tree has draws an arrow when it draws any line. -/
theorem drawnLine_neverBreaks {arrow : Arrow} (drawn : m.arrowOf (.node id) = .ok arrow)
    (source target feature : Item) :
    Except.NeverBreaks (m.drawnLine id source target feature) := by
  rw [drawnLine, drawn, ok_bind]
  exact relationshipLine_neverBreaks _ _ _ _ _

/-- The line from the owner of what is met is no violation. -/
theorem lineFromOwner_neverBreaks (h : m.Meets I rule met id path) {arrow : Arrow}
    (drawn : m.arrowOf (.node id) = .ok arrow) (feature : Item) (name : Option Item) :
    (m.lineFromOwner id feature name).NeverBreaks := by
  unfold lineFromOwner
  split
  · exact .ofList []
  · refine .ofExcept ?_
    rw [ownerName, h.ownerRule, ok_bind]
    exact (m.partOf_neverBreaks _ "name").bind fun owner _ => drawnLine_neverBreaks drawn _ _ _

/-- The line to the owner of what is met is no violation. -/
theorem lineToOwner_neverBreaks (h : m.Meets I rule met id path) {arrow : Arrow}
    (drawn : m.arrowOf (.node id) = .ok arrow) (feature : Item) (name : Option Item) :
    (m.lineToOwner id feature name).NeverBreaks := by
  unfold lineToOwner
  split
  · exact .ofList []
  · refine .ofExcept ?_
    rw [ownerName, h.ownerRule, ok_bind]
    exact (m.partOf_neverBreaks _ "name").bind fun owner _ => drawnLine_neverBreaks drawn _ _ _

/-- The line of what an assignment assigns is no violation. -/
theorem assignedLine_neverBreaks (h : m.Meets I rule met id path) {arrow : Arrow}
    (drawn : m.arrowOf (.node id) = .ok arrow) (feature item : Item) :
    (m.assignedLine id feature item).NeverBreaks := by
  unfold assignedLine
  split
  · exact (Emission.NeverBreaks.ofExcept (m.parserRuleName_neverBreaks _)).flatMap fun name _ =>
      lineFromOwner_neverBreaks h drawn feature name
  · exact (Emission.NeverBreaks.ofExcept (m.declaredType_neverBreaks _ _)).flatMap fun name _ =>
      lineToOwner_neverBreaks h drawn feature name
  · exact .ofList []

/-- The lines of all that an assignment assigns are no violation. -/
theorem assignedTo_neverBreaks (h : m.Meets I rule met id path) {arrow : Arrow}
    (drawn : m.arrowOf (.node id) = .ok arrow) (feature : Item) (b : Phrase φ ρ) :
    ∀ {assigned : NodeId} (steps : Nat), b.StandsAt I m assigned →
      (m.assignedTo id feature steps (.node assigned)).NeverBreaks := by
  induction b using Phrase.induct with
  | step b ih =>
    intro assigned steps stands
    cases steps with
    | zero => exact .ofList []
    | succ steps =>
      obtain ⟨ids, members, stand, -⟩ := Phrase.membersOf_of_standsAt stands
      refine (assignedLine_neverBreaks h drawn feature _).append ?_
      rw [members, Emission.ofList_flatMap, Emission.ofEach_map]
      refine .ofEach fun child mem => ?_
      obtain ⟨i, bound, rfl⟩ := List.mem_iff_getElem.mp mem
      have bound' : i < b.members.length := by rw [stand.length_eq]; exact bound
      exact ih b.members[i] (Phrase.mem_children_of_mem_members (List.getElem_mem bound')) steps
        (stand.get bound' bound)

/-- The relationship lines of what is visited are no violation. -/
theorem visitedLines_neverBreaks {visited : Handler × Item} (h : m.Visited I rule met visited) :
    (m.visitedLines visited).NeverBreaks := by
  obtain ⟨handler, item⟩ := visited
  obtain ⟨id, path, rfl, -, meets⟩ := h
  obtain ⟨outer, b⟩ := met
  have stands := meets.stands
  rw [visitedLines]
  -- Each kind is drawn from what its shape holds, and the shape is that of the tree.
  cases b with
  | assignment feature operator terminal mark =>
    obtain ⟨place, below, has⟩ := stands
    rw [elementLines, has.shape?]
    cases terminal with
    | none =>
      simp only [Phrase.StandsIn] at below
      subst below
      exact .ofList []
    | some t =>
      obtain ⟨assigned, rfl, stands⟩ := below
      exact assignedTo_neverBreaks meets (has.arrowOf rfl) _ t _ stands
  | ruleCall target mark =>
    obtain ⟨link, -, has⟩ := stands
    rw [elementLines, has.shape?]
    exact (Emission.NeverBreaks.ofExcept (m.parserRuleName_neverBreaks _)).flatMap fun name _ =>
      lineFromOwner_neverBreaks meets (has.arrowOf rfl) _ name
  | crossReference type terminal mark =>
    obtain ⟨link, place, -, -, has⟩ := stands
    rw [elementLines, has.shape?]
    exact (Emission.NeverBreaks.ofExcept (m.declaredType_neverBreaks _ _)).flatMap fun name _ =>
      lineFromOwner_neverBreaks meets (has.arrowOf rfl) _ name
  | action type inferredType feature operator mark =>
    obtain ⟨place, has⟩ : ∃ place, m.Has id (.action place (I.item? inferredType)
        (I.item? feature) (I.item? operator)) (I.item? mark) := by
      cases type with
      | none => exact ⟨_, stands⟩
      | some type =>
        obtain ⟨link, -, has⟩ := stands
        exact ⟨_, has⟩
    rw [elementLines, has.shape?]
    refine (Emission.NeverBreaks.ofExcept (m.typeNameOf_neverBreaks _ _)).flatMap fun name _ => ?_
    split
    · exact .ofList []
    · exact lineToOwner_neverBreaks meets (has.arrowOf rfl) _ _
  | _ =>
    obtain ⟨shape, has, handled⟩ := Phrase.has_of_standsAt stands
    rw [elementLines, has.shape?]
    cases shape <;> first
      | exact .ofList []
      | simp [Shape.handler?, Phrase.handler?] at handled

end Met

section Standing

variable {production : Production φ ρ} {id : NodeId}

/-- Visiting the body of a known rule is no violation, and neither is a pass that is none for all
that is visited. -/
theorem visits_neverBreaks {b : Phrase φ ρ} {body : NodeId} (meets : m.Meets I id ([], b) body [])
    (known : b.isKnown = true) {pass : Handler × Item → Emission String}
    (safe : ∀ met visited, m.Visited I id met visited → (pass visited).NeverBreaks) :
    ((m.visits (.node body)).flatMap pass).NeverBreaks := by
  obtain ⟨visited, visits, together⟩ := visits_of_standsAt meets known
  rw [visits, Emission.ofList_flatMap]
  refine .ofEach fun v mem => ?_
  obtain ⟨i, bound, rfl⟩ := List.mem_iff_getElem.mp mem
  have bound' : i < (b.reached []).length := by rw [together.length_eq]; exact bound
  exact safe _ _ (together.get bound' bound)

/-- The class block of a known rule is no violation. -/
theorem classBlock_neverBreaks (h : production.StandsAt I m id) (nested : m.NestedBelow id)
    (known : production.isKnown) : (m.classBlock (.node id)).NeverBreaks := by
  rw [classBlock]
  cases hb : production.body? with
  | none =>
    rw [drawnRule?_eq_none h hb]
    exact .ofList []
  | some b =>
    obtain ⟨body, drawn, meets⟩ := exists_meets_of_standsAt h nested hb
    rw [Production.isKnown, hb, Option.all_some] at known
    rw [drawn]
    refine ((Emission.NeverBreaks.ofList _).append ?_).append (.ofList _)
    exact visits_neverBreaks meets known fun _ visited _ => m.visitedAttribute_neverBreaks visited

/-- The relationship lines of a known rule are no violation. -/
theorem relationshipLines_neverBreaks (h : production.StandsAt I m id)
    (nested : m.NestedBelow id) (known : production.isKnown) :
    (m.relationshipLines (.node id)).NeverBreaks := by
  rw [relationshipLines]
  cases hb : production.body? with
  | none =>
    rw [drawnRule?_eq_none h hb]
    exact .ofList []
  | some b =>
    obtain ⟨body, drawn, meets⟩ := exists_meets_of_standsAt h nested hb
    rw [Production.isKnown, hb, Option.all_some] at known
    rw [drawn]
    simp only
    split
    · exact m.aliasLine_neverBreaks _ _
    · exact visits_neverBreaks meets known fun _ _ seen => visitedLines_neverBreaks seen

end Standing

/-- Going through a list is no violation when its members are none. -/
theorem mapM_neverBreaks {α β : Type} {f : α → Except Fault β} {xs : List α}
    (h : ∀ x ∈ xs, Except.NeverBreaks (f x)) : Except.NeverBreaks (xs.mapM f) := by
  induction xs with
  | nil => exact .ok []
  | cons x rest ih =>
    rw [List.mapM_cons]
    refine (h x List.mem_cons_self).bind fun y _ => ?_
    exact (ih fun x' mem => h x' (List.mem_cons_of_mem x mem)).bind fun ys _ => .ok _

/-- Fragments are no violation when the texts are none. -/
theorem asFragments_neverBreaks {e : Emission String} (h : e.NeverBreaks) :
    (asFragments e).NeverBreaks := h

section Compilation

variable (m)

/-- The note on the rules is no violation. -/
theorem rulesNote_neverBreaks (rules : List Item) : (m.rulesNote rules).NeverBreaks := by
  refine .ofExcept ((mapM_neverBreaks fun rule _ => m.partOf_neverBreaks rule "name").bind ?_)
  intro names _
  split
  · exact .ok _
  · exact .error not_false

/-- The note on a class is no violation. -/
theorem classNote_neverBreaks (rule : Item) : (m.classNote rule).NeverBreaks := by
  unfold classNote
  split <;> exact .ofList _

end Compilation

/-- The rule of a known tree stands at the node, and all below it is contained in what it stands
in. -/
def BearsRule (m : Model) (I : Interpretation φ ρ) (id : NodeId) : Prop :=
  m.NestedBelow id ∧ ∃ production : Production φ ρ, production.isKnown ∧ production.StandsAt I m id

/-- Compiling rules that stand in a model is no violation. -/
theorem compileRules_neverBreaks {ids : List NodeId} (bear : ∀ id ∈ ids, m.BearsRule I id)
    (verbose : Bool) (writer : Writer) :
    Except.NeverBreaks (m.compileRules verbose (ids.map .node) writer).result := by
  have told : ∀ {note : Emission Output}, note.NeverBreaks →
      (if verbose then note else .nothing).NeverBreaks := by
    intro note h
    cases verbose
    · exact .ofList []
    · exact h
  have outputs : (m.compilationOutputs verbose (ids.map .node)).NeverBreaks := by
    rw [compilationOutputs, Emission.ofEach_map, Emission.ofEach_map]
    refine (told (m.rulesNote_neverBreaks _)).append (.append (.ofEach ?_) (.ofEach ?_))
    · intro id mem
      obtain ⟨nested, production, known, stands⟩ := bear id mem
      exact (asFragments_neverBreaks (classBlock_neverBreaks stands nested known)).append
        (told (m.classNote_neverBreaks _))
    · intro id mem
      obtain ⟨nested, production, known, stands⟩ := bear id mem
      exact asFragments_neverBreaks (relationshipLines_neverBreaks stands nested known)
  simp only [compileRules, Writer.reset, Writer.appendAll_writing, Option.none_or]
  cases stopped : (m.compilationOutputs verbose (ids.map .node)).fault with
  | some fault => exact .error (outputs fault stopped)
  | none =>
    simp only [Writer.finish, Writer.text, List.nil_append, Writer.joined_texts]
    exact .ok _

/-- Grammars whose rules are known and stand in a model, and whose imports are among them. -/
structure IsSound (m : Model) (I : Interpretation φ ρ) (grammars : List NodeId) : Prop where
  nested : m.Nested
  grammar : ∀ g ∈ grammars, ∃ rules imports : List NodeId,
    m.itemsOf (.node g) "rules" = .ok (rules.map .node) ∧
    m.importsOf g = .ok (imports.map .node) ∧ (∀ r ∈ rules, m.BearsRule I r) ∧
    ∀ i ∈ imports, i ∈ grammars

section Collection

variable {grammars : List NodeId}

/-- The search through imports is no violation and finds nothing but the grammars. -/
theorem reachFrom_of_isSound (sound : m.IsSound I grammars) (seen : List NodeId)
    (queue : List Item) (inside : ∀ item ∈ queue, ∃ g ∈ grammars, item = .node g) :
    Except.NeverBreaks (m.reachFrom seen queue) ∧
      ∀ reached, m.reachFrom seen queue = .ok reached → ∀ g ∈ reached, g ∈ grammars := by
  fun_induction reachFrom m seen queue with
  | case1 seen => exact ⟨.ok [], by rintro reached ⟨⟩; simp⟩
  | case2 seen id rest _ ih => exact ih fun item mem => inside item (List.mem_cons_of_mem _ mem)
  | case3 seen id rest _ imports asked ih =>
    have own : id ∈ grammars := by
      obtain ⟨g, mem, same⟩ := inside _ List.mem_cons_self
      cases same
      exact mem
    have further : ∀ item ∈ rest ++ imports, ∃ g ∈ grammars, item = .node g := by
      intro item mem
      rcases List.mem_append.mp mem with later | imported
      · exact inside item (List.mem_cons_of_mem _ later)
      · obtain ⟨_, is, -, listed, -, known⟩ := sound.grammar id own
        rw [asked, Except.ok.injEq] at listed
        subst listed
        obtain ⟨i, direct, rfl⟩ := List.mem_map.mp imported
        exact ⟨i, known i direct, rfl⟩
    obtain ⟨safe, found⟩ := ih further
    refine ⟨safe.map _, ?_⟩
    intro reached h
    cases hr : m.reachFrom (id :: seen) (rest ++ imports) with
    | error fault => simp [hr, Except.map] at h
    | ok others =>
      rw [hr] at h
      cases h
      intro g mem
      rcases List.mem_cons.mp mem with rfl | later
      · exact own
      · exact found others hr g later
  | case4 seen id rest _ fault asked =>
    refine ⟨.error (m.itemsOf_neverBreaks _ _ fault asked), ?_⟩
    rintro reached ⟨⟩
  | case5 => exact ⟨.error not_false, by rintro reached ⟨⟩⟩

/-- Keeping the first rule of each name is no violation and keeps some of the rules. -/
theorem firstOfEachName_sound (names rules : List Item) :
    Except.NeverBreaks (m.firstOfEachName names rules) ∧
      ∀ kept, m.firstOfEachName names rules = .ok kept → kept.Sublist rules := by
  induction rules generalizing names with
  | nil => exact ⟨.ok [], by rintro kept ⟨⟩; exact .slnil⟩
  | cons rule rest ih =>
    constructor
    · refine (m.partOf_neverBreaks rule "name").bind fun name _ => ?_
      split
      · exact .error not_false
      · split
        · exact (ih names).1
        · exact (ih (name :: names)).1.bind fun kept _ => .ok _
    · intro kept h
      rw [firstOfEachName, bind_eq_ok] at h
      obtain ⟨name, -, h⟩ := h
      split at h
      · simp [throw, throwThe, MonadExceptOf.throw] at h
      · split at h
        · exact ((ih names).2 kept h).cons rule
        · rw [bind_eq_ok] at h
          obtain ⟨others, found, same⟩ := h
          cases same
          exact ((ih (name :: names)).2 others found).cons_cons rule

/-- The rules of sound grammars are nodes that bear rules. -/
theorem rulesOf_of_isSound (sound : m.IsSound I grammars) {gs : List NodeId}
    (inside : ∀ g ∈ gs, g ∈ grammars) : ∃ ids : List NodeId,
      Emission.ofEach m.rulesOf gs = .ofList (ids.map .node) ∧ ∀ r ∈ ids, m.BearsRule I r := by
  induction gs with
  | nil => exact ⟨[], rfl, by simp⟩
  | cons g rest ih =>
    obtain ⟨rules, -, listed, -, bear, -⟩ := sound.grammar g (inside g List.mem_cons_self)
    obtain ⟨ids, others, bear'⟩ := ih fun g' mem => inside g' (List.mem_cons_of_mem g mem)
    refine ⟨rules ++ ids, ?_, ?_⟩
    · rw [Emission.ofEach, others, rulesOf, listed]
      simp
    · intro r mem
      rcases List.mem_append.mp mem with own | other
      · exact bear r own
      · exact bear' r other

/-- Collecting rules finds the grammars, goes through their rules and keeps the first of each
name. -/
theorem collectRules_eq (m : Model) (id : NodeId) (withImports : Bool) :
    m.collectRules id withImports =
      (if withImports then m.reachable id else .ok []) >>= fun reached =>
        m.firstOfEachName [] (Emission.ofEach m.rulesOf (id :: reached)).items >>= fun kept =>
          match (Emission.ofEach m.rulesOf (id :: reached)).fault with
          | some fault => .error fault
          | none => .ok kept := by
  cases withImports <;> rfl

/-- The grammars that are reached are among the sound ones. -/
theorem reached_of_isSound (sound : m.IsSound I grammars) {id : NodeId} (own : id ∈ grammars)
    (withImports : Bool) :
    Except.NeverBreaks (if withImports then m.reachable id else .ok []) ∧
      ∀ reached, (if withImports then m.reachable id else .ok []) = .ok reached →
        ∀ g ∈ id :: reached, g ∈ grammars := by
  cases withImports with
  | false =>
    refine ⟨.ok [], ?_⟩
    rintro reached ⟨⟩ g mem
    rw [List.mem_singleton] at mem
    exact mem ▸ own
  | true =>
    obtain ⟨-, imports, -, listed, -, known⟩ := sound.grammar id own
    have inside : ∀ item ∈ imports.map Item.node, ∃ g ∈ grammars, item = .node g := by
      intro item mem
      obtain ⟨i, direct, rfl⟩ := List.mem_map.mp mem
      exact ⟨i, known i direct, rfl⟩
    obtain ⟨safe, found⟩ := reachFrom_of_isSound sound [id] _ inside
    rw [if_pos rfl, reachable, listed, ok_bind]
    refine ⟨safe, fun reached h g mem => ?_⟩
    rcases List.mem_cons.mp mem with rfl | later
    · exact own
    · exact found reached h g later

/-- The rules that a diagram shows are collected without violation, and they are rules of the
grammars. -/
theorem collectRules_of_isSound (sound : m.IsSound I grammars) {id : NodeId} (own : id ∈ grammars)
    (withImports : Bool) : Except.NeverBreaks (m.collectRules id withImports) ∧
      ∀ rules, m.collectRules id withImports = .ok rules →
        ∃ ids : List NodeId, rules = ids.map .node ∧ ∀ r ∈ ids, m.BearsRule I r := by
  obtain ⟨safe, inside⟩ := reached_of_isSound sound own withImports
  rw [collectRules_eq]
  constructor
  · refine safe.bind fun reached found => ?_
    obtain ⟨ids, listed, -⟩ := rulesOf_of_isSound sound (inside reached found)
    rw [listed]
    exact (firstOfEachName_sound [] _).1.bind fun kept _ => .ok kept
  · intro rules h
    rw [bind_eq_ok] at h
    obtain ⟨reached, found, h⟩ := h
    obtain ⟨ids, listed, bear⟩ := rulesOf_of_isSound sound (inside reached found)
    rw [listed, bind_eq_ok] at h
    obtain ⟨kept, first, same⟩ := h
    cases same
    obtain ⟨ids', sub, rfl⟩ := List.sublist_map_iff.mp ((firstOfEachName_sound [] _).2 _ first)
    exact ⟨ids', rfl, fun r mem => bear r (sub.subset mem)⟩

/-- Looking for an error among diagnostics is no violation. -/
theorem anyError_neverBreaks (m : Model) (items : List Item) :
    Except.NeverBreaks (m.anyError items) := by
  induction items with
  | nil => exact .ok false
  | cons item rest ih =>
    have asked : Except.NeverBreaks (m.errorOf item) := by
      unfold errorOf
      split
      · exact .ok _
      · exact m.partOf_neverBreaks item "is_error"
    refine asked.bind fun isError _ => ?_
    split
    · exact .ok true
    · exact ih

/-- Asking a grammar for errors is no violation. -/
theorem hasErrors_neverBreaks (m : Model) (item : Item) :
    Except.NeverBreaks (m.hasErrors item) := by
  refine Except.NeverBreaks.map ?_ _
  unfold errorsOf
  split
  · refine (Item.items_neverBreaks _).bind fun items _ => ?_
    exact (m.anyError_neverBreaks items).bind fun _ _ => .ok _
  · exact m.partOf_neverBreaks item "has_errors"

/-- Compiling a sound grammar is no violation. -/
theorem compileGrammar_neverBreaks (sound : m.IsSound I grammars) {id : NodeId}
    (own : id ∈ grammars) (verbose withImports : Bool) (writer : Writer) :
    Except.NeverBreaks (m.compileGrammar verbose withImports id writer).result := by
  obtain ⟨safe, bear⟩ := collectRules_of_isSound sound own withImports
  unfold compileGrammar
  split
  · next fault stopped => exact .error (m.hasErrors_neverBreaks _ fault stopped)
  · split
    · have noted : Except.NeverBreaks (m.errorsNote id) :=
        (m.partOf_neverBreaks _ "name").bind fun name _ => .ok _
      split
      · exact .ok none
      · next fault stopped => exact .error (noted fault stopped)
    · exact .ok none
  · split
    · next fault stopped => exact .error (safe fault stopped)
    · next rules collected =>
      obtain ⟨ids, rfl, bear⟩ := bear rules collected
      exact (compileRules_neverBreaks bear verbose writer).map some

end Collection

end Model
end GrammarChart
