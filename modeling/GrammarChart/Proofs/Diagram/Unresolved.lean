import GrammarChart.Proofs.Diagram.Fragments
import GrammarChart.Proofs.Diagram.Pruning

/-!
# Unresolved references

What happens to a document when some references of its rules are left unresolved: the fragments that
need one of them are deleted, and nothing else changes (`Production.fragments_without`). What a
fragment needs depends on what it is drawn for (`Phrase.needs`): a call needs its rule; a cross
reference its type, and its terminal when that is a call; an action its type, unless it infers one.
The first and the last lines of class blocks need nothing. `Model.result_without` says this of two
compilations, of models in which the same rules stand.
-/

set_option autoImplicit false

namespace GrammarChart

variable {ρ : Type}

/-- What references lead to when some of them are unresolved. -/
def Target.without (dead : ρ → Bool) (target : ρ → Target) (reference : ρ) : Target :=
  if dead reference then .nowhere else target reference

namespace Phrase

/-- The references without which the line of an element is not drawn. -/
def needs : Phrase String ρ → List ρ
  | .ruleCall rule _ => [rule]
  | .crossReference type terminal _ => type :: (called? terminal).toList
  | .action type inferredType _ _ _ =>
    if inferredType = none ∨ inferredType = some "" then type.toList else []
  | _ => []

variable {dead : ρ → Bool}

/-- A call needs what is dead when its rule is. -/
@[simp] theorem any_needs_ruleCall (rule : ρ) (mark : Option String) :
    (ruleCall rule mark).needs.any dead = dead rule := by
  simp [needs]

/-- A cross reference needs what is dead when its type is, or what its terminal calls. -/
@[simp] theorem any_needs_crossReference (type : ρ) (terminal : Option (Phrase String ρ))
    (mark : Option String) : (crossReference type terminal mark).needs.any dead =
      (dead type || (called? terminal).any dead) := by
  rw [needs, List.any_cons, any_toList]

end Phrase

/-- The references without which a fragment is not in the document. -/
def Fragment.needs : Fragment ρ → List ρ
  | .frame _ => []
  | .drawn source _ => source.needs

/-- None of the references that a fragment needs is dead. -/
def Fragment.isAlive (dead : ρ → Bool) (fragment : Fragment ρ) : Bool :=
  !fragment.needs.any dead

namespace Target

variable {dead : ρ → Bool} {target : ρ → Target} {reference : ρ}

/-- A dead reference leads nowhere. -/
theorem without_of_dead (h : dead reference = true) : without dead target reference = .nowhere :=
  if_pos h

/-- Any other reference leads to what it led to. -/
theorem without_of_alive (h : dead reference = false) :
    without dead target reference = target reference := by
  rw [without, h]
  rfl

end Target

section Deletion

variable {dead : ρ → Bool} {target : ρ → Target}

/-- The lines that are drawn for an element are all deleted or all kept. -/
theorem Fragment.filter_drawn (source : Phrase String ρ) {texts texts' : List String}
    (lost : source.needs.any dead = true → texts' = [])
    (kept : source.needs.any dead = false → texts' = texts) :
    texts'.map (drawn source) = (texts.map (drawn source)).filter (isAlive dead) := by
  -- whether a line is kept hangs on its source alone, so the lines of one source share their fate
  have same : ∀ text, isAlive dead (drawn source text) = !source.needs.any dead := fun _ => rfl
  cases needed : source.needs.any dead with
  | true =>
    rw [lost needed, List.map_nil, eq_comm, List.filter_eq_nil_iff, List.forall_mem_map]
    intro text _
    rw [same, needed]
    decide
  | false =>
    rw [kept needed, eq_comm, List.filter_eq_self, List.forall_mem_map]
    intro text _
    rw [same, needed]
    rfl

/-- The lines that are drawn for a call, and only when its rule leads somewhere, are deleted when
the rule is dead. -/
theorem Fragment.filter_call (lists : Target → List String) (silent : lists .nowhere = [])
    (rule : ρ) (mark : Option String) :
    (lists (Target.without dead target rule)).map (drawn (.ruleCall rule mark)) =
      ((lists (target rule)).map (drawn (.ruleCall rule mark))).filter (isAlive dead) := by
  refine filter_drawn _ (fun lost => ?_) fun kept => ?_
  · rw [Phrase.any_needs_ruleCall] at lost
    rw [Target.without_of_dead lost, silent]
  · rw [Phrase.any_needs_ruleCall] at kept
    rw [Target.without_of_alive kept]

namespace Phrase

/-- A terminal that calls what is dead cannot be used, and any other one can when it could. -/
theorem isUsable_without (terminal : Option (Phrase String ρ)) :
    isUsable (resolveIn (Target.without dead target) terminal) =
      (!(called? terminal).any dead && isUsable (resolveIn target terminal)) := by
  cases terminal with
  | none => rfl
  | some t =>
    cases t with
    | ruleCall rule mark =>
      show (Target.without dead target rule).isRule = (!dead rule && (target rule).isRule)
      cases called : dead rule with
      | true => rw [Target.without_of_dead called]; rfl
      | false => rw [Target.without_of_alive called]; rfl
    | _ => rfl

/-- A cross reference that needs what is dead declares nothing. -/
theorem declared?_of_dead {type : ρ} {terminal : Option (Phrase String ρ)} {mark : Option String}
    (h : (crossReference type terminal mark).needs.any dead = true) :
    declared? (Target.without dead target type) (resolveIn (Target.without dead target) terminal) =
      none := by
  rw [declared?, isUsable_without]
  cases called : (called? terminal).any dead with
  | true => rfl
  | false =>
    rw [any_needs_crossReference, called, Bool.or_false] at h
    rw [Target.without_of_dead h, Target.name?, ite_self]

/-- Any other cross reference declares what it declared. -/
theorem declared?_of_alive {type : ρ} {terminal : Option (Phrase String ρ)} {mark : Option String}
    (h : (crossReference type terminal mark).needs.any dead = false) :
    declared? (Target.without dead target type) (resolveIn (Target.without dead target) terminal) =
      declared? (target type) (resolveIn target terminal) := by
  obtain ⟨alive, called⟩ := Bool.or_eq_false_iff.mp ((any_needs_crossReference ..).symm.trans h)
  rw [declared?, declared?, isUsable_without, called, Target.without_of_alive alive]
  rfl

/-- An action that needs what is dead makes nothing. -/
theorem made?_of_dead {type : Option ρ} {inferredType feature operator mark : Option String}
    (h : (action type inferredType feature operator mark).needs.any dead = true) :
    made? (type.map (Target.without dead target)) inferredType = none := by
  have unnamed : inferredType = none ∨ inferredType = some "" := by
    by_contra named
    rw [needs, if_neg named] at h
    cases h
  rw [needs, if_pos unnamed] at h
  cases type with
  | none => cases h
  | some type =>
    have isDead : dead type = true := by simpa using h
    rcases unnamed with rfl | rfl <;> simp [made?, Target.without_of_dead isDead, Target.name?]

/-- Any other action makes what it made. -/
theorem made?_of_alive {type : Option ρ} {inferredType feature operator mark : Option String}
    (h : (action type inferredType feature operator mark).needs.any dead = false) :
    made? (type.map (Target.without dead target)) inferredType =
      made? (type.map target) inferredType := by
  cases type with
  | none => rfl
  | some type =>
    by_cases unnamed : inferredType = none ∨ inferredType = some ""
    · rw [needs, if_pos unnamed] at h
      have alive : dead type = false := by simpa using h
      rw [Option.map_some, Option.map_some, Target.without_of_alive alive]
    · obtain ⟨missing, empty⟩ := not_or.mp unnamed
      obtain ⟨word, rfl⟩ := Option.ne_none_iff_exists'.mp missing
      have named : word ≠ "" := fun h => empty (congrArg some h)
      rw [made?, made?, if_neg named, if_neg named]

/-- An attribute line is deleted when its terminal calls what is dead. -/
theorem attributeFragments_without (b : Phrase String ρ) :
    b.attributeFragments (Target.without dead target) =
      (b.attributeFragments target).filter (Fragment.isAlive dead) := by
  cases b with
  | assignment feature operator terminal mark =>
    cases terminal with
    | none => rfl
    | some t =>
      cases t with
      | ruleCall rule callMark =>
        exact Fragment.filter_call (fun t =>
          attributeLines (.assignment feature operator (some (.ruleCall t callMark)) mark))
          rfl rule callMark
      | _ => exact Fragment.filter_drawn _ (fun _ => rfl) fun _ => rfl
  | _ => rfl

/-- The line of an assigned element is deleted when the element needs what is dead. -/
theorem assignedFragments_without (owner : String) (bounds : Multiplicity) (arrow : Arrow)
    (feature : String) (b : Phrase String ρ) :
    b.assignedFragments (Target.without dead target) owner bounds arrow feature =
      (b.assignedFragments target owner bounds arrow feature).filter (Fragment.isAlive dead) := by
  cases b with
  | ruleCall rule mark =>
    exact Fragment.filter_call
      (fun t => assignedLines owner bounds arrow feature (.ruleCall t mark)) rfl rule mark
  | crossReference type terminal mark =>
    refine Fragment.filter_drawn _ (fun lost => ?_) fun kept => ?_
    · rw [resolve, assignedLines, declared?_of_dead lost]
      rfl
    · rw [resolve, resolve, assignedLines, assignedLines, declared?_of_alive kept]
  | _ => rfl

/-- The lines of an element are deleted where they need what is dead. -/
theorem drawnFragments_without (owner : String) (inherited : Inherited) (b : Phrase String ρ) :
    b.drawnFragments (Target.without dead target) owner inherited =
      (b.drawnFragments target owner inherited).filter (Fragment.isAlive dead) := by
  have bounds : inherited.bounds (b.resolve (Target.without dead target)) =
      inherited.bounds (b.resolve target) := by
    rw [Inherited.bounds_resolve, Inherited.bounds_resolve]
  cases b with
  | assignment feature operator terminal mark =>
    simp only [drawnFragments, List.filter_flatMap, assignedFragments_without]
  | ruleCall rule mark =>
    exact Fragment.filter_call (fun t => drawnLines owner inherited (.ruleCall t mark))
      rfl rule mark
  | crossReference type terminal mark =>
    refine Fragment.filter_drawn _ (fun lost => ?_) fun kept => ?_
    · rw [resolve, drawnLines, declared?_of_dead lost]
      rfl
    · rw [resolve, resolve] at bounds
      rw [resolve, resolve, drawnLines, drawnLines, declared?_of_alive kept, bounds]
  | action type inferredType feature operator mark =>
    refine Fragment.filter_drawn _ (fun lost => ?_) fun kept => ?_
    · rw [resolve, drawnLines, made?_of_dead lost]
      rfl
    · rw [resolve, resolve] at bounds
      rw [resolve, resolve, drawnLines, drawnLines, made?_of_alive kept, bounds]
  | _ => rfl

end Phrase

namespace Production

/-- The first and the last line of a class block stay, and its attribute lines are deleted where
they need what is dead. -/
theorem blockFragments_without (rule : Production String ρ) :
    rule.blockFragments (Target.without dead target) =
      (rule.blockFragments target).filter (Fragment.isAlive dead) := by
  have attributes : rule.attributeFragments (Target.without dead target) =
      (rule.attributeFragments target).filter (Fragment.isAlive dead) := by
    simp only [attributeFragments, List.filter_flatMap, Phrase.attributeFragments_without]
  rw [blockFragments, blockFragments, attributes, blockAround, blockAround]
  cases rule.body? with
  | none => rfl
  | some body =>
    have frame : ∀ text, Fragment.isAlive dead (.frame text) = true := fun _ => rfl
    simp only [List.cons_append, List.filter_cons_of_pos (frame _), List.filter_append,
      List.filter_nil]

/-- The relationship lines of a rule are deleted where they need what is dead. -/
theorem lineFragments_without (rule : Production String ρ) :
    rule.lineFragments (Target.without dead target) =
      (rule.lineFragments target).filter (Fragment.isAlive dead) := by
  rw [lineFragments, lineFragments]
  cases hb : rule.body? with
  | none => rfl
  | some b =>
    have lines : ((b.reached []).flatMap fun met => met.2.drawnFragments
          (Target.without dead target) rule.name (.around met.1)) =
        ((b.reached []).flatMap fun met => met.2.drawnFragments target rule.name
          (.around met.1)).filter (Fragment.isAlive dead) := by
      simp only [List.filter_flatMap, Phrase.drawnFragments_without]
    cases b with
    | ruleCall call mark => exact Fragment.filter_call (aliasLines rule.name) rfl call mark
    | _ => exact lines

/-- With some references left unresolved, the document has the fragments that need none of them, in
the order that they had. -/
theorem fragments_without (rules : List (Production String ρ)) :
    fragments (Target.without dead target) rules =
      (fragments target rules).filter (Fragment.isAlive dead) := by
  rw [fragments, fragments, List.filter_append, List.filter_flatMap, List.filter_flatMap,
    funext blockFragments_without, funext lineFragments_without]

end Production
end Deletion

section Frames

variable {target : ρ → Target}

/-- What is drawn for an element is no frame. -/
theorem Fragment.filter_isFrame_drawn (source : Phrase String ρ) (texts : List String) :
    (texts.map (drawn source)).filter isFrame = [] := by
  rw [List.filter_eq_nil_iff, List.forall_mem_map]
  exact fun _ _ => Bool.false_ne_true

/-- Attributes are no frames. -/
theorem Phrase.filter_isFrame_attributeFragments (b : Phrase String ρ) :
    (b.attributeFragments target).filter Fragment.isFrame = [] := by
  unfold attributeFragments
  split
  · exact Fragment.filter_isFrame_drawn _ _
  · rfl

/-- Relationships are no frames. -/
theorem Phrase.filter_isFrame_drawnFragments (owner : String) (inherited : Inherited)
    (b : Phrase String ρ) :
    (b.drawnFragments target owner inherited).filter Fragment.isFrame = [] := by
  cases b with
  | assignment feature operator terminal mark =>
    simp only [drawnFragments, List.filter_flatMap, assignedFragments,
      Fragment.filter_isFrame_drawn, List.flatMap_eq_nil_iff, implies_true]
  | _ => exact Fragment.filter_isFrame_drawn _ _

namespace Production

/-- The frames of a class block are its first and its last line. -/
theorem filter_isFrame_blockFragments (rule : Production String ρ) :
    (rule.blockFragments target).filter Fragment.isFrame = rule.blockAround [] := by
  have attributes : (rule.attributeFragments target).filter Fragment.isFrame = [] := by
    simp only [attributeFragments, List.filter_flatMap, Phrase.filter_isFrame_attributeFragments,
      List.flatMap_eq_nil_iff, implies_true]
  rw [blockFragments, blockAround, blockAround]
  cases rule.body? with
  | none => rfl
  | some body =>
    have frame : ∀ text, Fragment.isFrame (.frame text : Fragment ρ) = true := fun _ => rfl
    simp only [List.cons_append, List.filter_cons_of_pos (frame _), List.filter_append, attributes,
      List.filter_nil]

/-- No frame is among the relationships of a rule. -/
theorem filter_isFrame_lineFragments (rule : Production String ρ) :
    (rule.lineFragments target).filter Fragment.isFrame = [] := by
  unfold lineFragments
  split
  · exact Fragment.filter_isFrame_drawn _ _
  · simp only [List.filter_flatMap, Phrase.filter_isFrame_drawnFragments, List.flatMap_eq_nil_iff,
      implies_true]
  · rfl

/-- The frames of a document are the first and the last lines of the class blocks of its rules. -/
theorem filter_isFrame_fragments (rules : List (Production String ρ)) :
    (fragments target rules).filter Fragment.isFrame = rules.flatMap (blockAround · []) := by
  rw [fragments, List.filter_append, List.filter_flatMap, List.filter_flatMap,
    funext filter_isFrame_blockFragments, funext filter_isFrame_lineFragments]
  simp

end Production
end Frames

namespace Model

variable {m m' : Model} {target : ρ → Target} {rules : List (Production String ρ)}
  {ids ids' : List NodeId}

/-- Where rules stand in one model, and in another one with some of their references unresolved, the
two documents are the fragments of the rules and those of the fragments that need nothing
unresolved. The first and the last lines of class blocks are among these. -/
theorem result_without {dead : ρ → Bool}
    (stand : List.Forall₂ m.Draws (rules.map (Production.resolve target)) ids)
    (stand' : List.Forall₂ m'.Draws
      (rules.map (Production.resolve (Target.without dead target))) ids')
    (verbose verbose' : Bool) (writer writer' : Writer) :
    (∀ text, (m.compileRules verbose (ids.map .node) writer).result = .ok text ↔
      (∀ rule ∈ rules, rule.isKnown) ∧
        text = Production.document (Production.fragments target rules)) ∧
    (∀ text, (m'.compileRules verbose' (ids'.map .node) writer').result = .ok text ↔
      (∀ rule ∈ rules, rule.isKnown) ∧ text = Production.document
        ((Production.fragments target rules).filter fun f => !f.needs.any dead)) ∧
    ((Production.fragments target rules).filter fun f => !f.needs.any dead).filter
      Fragment.isFrame = rules.flatMap (Production.blockAround · []) := by
  have kept : (Production.fragments target rules).filter (fun f => !f.needs.any dead) =
      Production.fragments (Target.without dead target) rules :=
    (Production.fragments_without rules).symm
  rw [kept]
  exact ⟨result_eq_fragments stand verbose writer, result_eq_fragments stand' verbose' writer',
    Production.filter_isFrame_fragments rules⟩

/-- A model of a rule that assigns a call and a cross reference with a call in it. What the latter
leads to is left open. -/
def crossing (terminal : Item) : Model := ⟨[
  .ofShape (.reference ⟨.value (.str "B"), .node ⟨9⟩⟩) .nothing,
  .ofShape (.reference ⟨.value (.str "ID"), terminal⟩) .nothing,
  { Node.ofShape (.ruleCall (.node ⟨0⟩)) .nothing with container := some (.node ⟨3⟩) },
  { Node.ofShape (.assignment (.value (.str "b")) (.value (.str "=")) (.node ⟨2⟩)) .nothing with
    container := some (.node ⟨7⟩) },
  { Node.ofShape (.ruleCall (.node ⟨1⟩)) .nothing with container := some (.node ⟨5⟩) },
  { Node.ofShape (.crossReference (.node ⟨0⟩) (.node ⟨4⟩)) .nothing with
    container := some (.node ⟨6⟩) },
  { Node.ofShape (.assignment (.value (.str "c")) (.value (.str "=")) (.node ⟨5⟩)) .nothing with
    container := some (.node ⟨7⟩) },
  { Node.ofShape (.group (.ofNodes [⟨3⟩, ⟨6⟩])) .nothing with container := some (.node ⟨8⟩) },
  .ofShape (.parserRule (.value (.str "A")) (.node ⟨7⟩) .nothing .no .no) .nothing,
  .ofShape (.parserRule (.value (.str "B")) .nothing .nothing .no .no) .nothing,
  .ofShape (.terminalRule (.value (.str "ID")) .nothing .no .no) .nothing]⟩

/-- The rules of that model, with numbers for their references. -/
def crossingRules : List (Production String ℕ) := [
  .parser "A" (some (.group [
    .assignment "b" "=" (some (.ruleCall 0 none)) none,
    .assignment "c" "=" (some (.crossReference 1 (some (.ruleCall 2 none)) none)) none] none))
    none false false,
  .parser "B" none none false false,
  .terminal "ID" none false false]

/-- What the references of these rules lead to, when all of them lead somewhere. -/
def crossingTarget (reference : ℕ) : Target :=
  if reference = 2 then .terminalRule "ID" else .parserRule "B"

/-- The rules stand in the model when the last reference leads to what it should. -/
theorem draws_crossing {terminal : Item} {target : ℕ → Target}
    (first : target 0 = .parserRule "B") (second : target 1 = .parserRule "B")
    (last : (target 2).IsAt (crossing terminal) terminal) :
    List.Forall₂ (crossing terminal).Draws (crossingRules.map (Production.resolve target))
      [⟨8⟩, ⟨9⟩, ⟨10⟩] := by
  have nested : (crossing terminal).isNested := rfl
  have rule : Target.LedTo (crossing terminal) (.node ⟨0⟩) (.parserRule "B") :=
    ⟨⟨0⟩, _, rfl, rfl, .parserRule rfl⟩
  have call : Phrase.StandsAt .texts (crossing terminal)
      (.ruleCall (target 0) none : Phrase String Target) ⟨2⟩ :=
    ⟨_, first ▸ rule, _, rfl, rfl, rfl⟩
  have inner : Phrase.StandsAt .texts (crossing terminal)
      (.ruleCall (target 2) none : Phrase String Target) ⟨4⟩ :=
    ⟨_, ⟨⟨1⟩, _, rfl, rfl, last⟩, _, rfl, rfl, rfl⟩
  have reference : Phrase.StandsAt .texts (crossing terminal)
      (.crossReference (target 1) (some (.ruleCall (target 2) none)) none) ⟨5⟩ :=
    ⟨_, _, second ▸ rule, ⟨_, rfl, inner⟩, _, rfl, rfl, rfl⟩
  have body : Phrase.StandsAt .texts (crossing terminal) (.group [
      .assignment "b" "=" (some (.ruleCall (target 0) none)) none,
      .assignment "c" "=" (some (.crossReference (target 1) (some (.ruleCall (target 2) none))
        none)) none] none) ⟨7⟩ :=
    ⟨[⟨3⟩, ⟨6⟩], ⟨_, _, rfl, ⟨_, ⟨_, rfl, call⟩, _, rfl, rfl, rfl⟩, _, _, rfl,
      ⟨_, ⟨_, rfl, reference⟩, _, rfl, rfl, rfl⟩, rfl⟩, _, rfl, rfl, rfl⟩
  exact .cons ⟨⟨_, ⟨_, rfl, body⟩, rfl⟩, nestedBelow_of_isNested nested _⟩
    (.cons ⟨⟨_, rfl, rfl⟩, nestedBelow_of_isNested nested _⟩
      (.cons ⟨rfl, nestedBelow_of_isNested nested _⟩ .nil))

/-- Without the rule that its terminal calls, the cross reference has no line. -/
theorem result_without_crossing :
    List.Forall₂ (crossing (.node ⟨10⟩)).Draws
        (crossingRules.map (Production.resolve crossingTarget)) [⟨8⟩, ⟨9⟩, ⟨10⟩] ∧
      List.Forall₂ (crossing .nothing).Draws
        (crossingRules.map (Production.resolve (Target.without (· == 2) crossingTarget)))
        [⟨8⟩, ⟨9⟩, ⟨10⟩] ∧
      ((crossing (.node ⟨10⟩)).compileRules false ([⟨8⟩, ⟨9⟩, ⟨10⟩].map .node) .idle).result =
        .ok ("@startuml\nclass A \x7b\n\x7d\n" ++
          "A \"1..1\" o-- \"b\" B\nB \"1..1\" o-- \"c\" A\n@enduml\n") ∧
      ((crossing .nothing).compileRules false ([⟨8⟩, ⟨9⟩, ⟨10⟩].map .node) .idle).result =
        .ok "@startuml\nclass A \x7b\n\x7d\nA \"1..1\" o-- \"b\" B\n@enduml\n" := by
  have named : (Target.terminalRule "ID").IsAt (crossing (.node ⟨10⟩)) (.node ⟨10⟩) :=
    .terminalRule rfl
  have stand : List.Forall₂ (crossing (.node ⟨10⟩)).Draws
      (crossingRules.map (Production.resolve crossingTarget)) [⟨8⟩, ⟨9⟩, ⟨10⟩] :=
    draws_crossing rfl rfl named
  have stand' : List.Forall₂ (crossing .nothing).Draws
      (crossingRules.map (Production.resolve (Target.without (· == 2) crossingTarget)))
      [⟨8⟩, ⟨9⟩, ⟨10⟩] :=
    draws_crossing rfl rfl .nowhere
  obtain ⟨whole, less, -⟩ := result_without stand stand' false false .idle .idle
  exact ⟨stand, stand', (whole _).mpr ⟨by decide, rfl⟩, (less _).mpr ⟨by decide, rfl⟩⟩

end Model
end GrammarChart
