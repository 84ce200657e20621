import GrammarChart.Proofs.Diagram.Fragments
import GrammarChart.Proofs.Diagram.Pruning

/-!
# Assigned calls

Where the line of an assigned call is in a document. Calls are told apart by names of their own
(`Production.calls`). A fragment is drawn for a call only where the call stands
(`Production.filter_isOf_blockFragments`, `Production.filter_isOf_lineFragments_eq_nil`), so the
fragments for one call are those of the assignment that assigns it. A call of a parser rule has
exactly one, among the relationships. A call of a terminal rule has exactly one when it is all that
is assigned, among the attributes of the owner, and none when it is one of several things within a
group or alternatives (`Model.fragments_of_call`).
-/

set_option autoImplicit false

namespace GrammarChart

variable {ρ : Type}

/-- Where each item has labels of its own, and an item yields nothing unless it has a given label,
all that the items yield is what the item with the label yields. -/
theorem flatMap_eq_of_label {α β : Type} (labels : α → List ρ) {yields : α → List β} {x : α} {r : ρ}
    (own : r ∈ labels x) (silent : ∀ y, r ∉ labels y → yields y = []) :
    ∀ {xs : List α}, (xs.flatMap labels).Nodup → x ∈ xs → xs.flatMap yields = yields x := by
  intro xs
  induction xs with
  | nil => exact fun _ mem => absurd mem List.not_mem_nil
  | cons y rest ih =>
    intro distinct mem
    rw [List.flatMap_cons, List.nodup_append'] at distinct
    obtain ⟨-, others, apart⟩ := distinct
    rw [List.flatMap_cons]
    rcases List.mem_cons.mp mem with rfl | later
    · have nothing : rest.flatMap yields = [] := by
        rw [List.flatMap_eq_nil_iff]
        exact fun z inside => silent z fun again =>
          apart own (List.mem_flatMap.mpr ⟨z, inside, again⟩)
      rw [nothing, List.append_nil]
    · have elsewhere : r ∉ labels y := fun here =>
        apart here (List.mem_flatMap.mpr ⟨x, later, own⟩)
      rw [silent y elsewhere, List.nil_append, ih others later]

namespace Phrase

/-- The calls that a fragment of an element may be drawn for: those that an assignment assigns, and
otherwise the element itself. -/
def calls (b : Phrase String ρ) : List ρ :=
  match b with
  | .assignment _ _ terminal _ =>
    terminal.toList.flatMap fun t => (t.reached []).flatMap fun met => (called? (some met.2)).toList
  | _ => (called? (some b)).toList

end Phrase

/-- The calls of an assignment are those that a visit of its terminal meets. -/
theorem Phrase.calls_assignment (feature operator : String) (terminal : Phrase String ρ)
    (mark : Option String) : (assignment feature operator (some terminal) mark).calls =
      (terminal.reached []).flatMap fun met => (called? (some met.2)).toList := by
  rw [calls, Option.toList_some, List.flatMap_singleton]

/-- The calls that a fragment of a rule may be drawn for. -/
def Production.calls (rule : Production String ρ) : List ρ :=
  rule.body?.toList.flatMap fun body => (body.reached []).flatMap (·.2.calls)

/-- The calls of a rule are those of all that is met in its body. -/
theorem Production.calls_eq {rule : Production String ρ} {body : Phrase String ρ}
    (hasBody : rule.body? = some body) : rule.calls = (body.reached []).flatMap (·.2.calls) := by
  rw [calls, hasBody, Option.toList_some, List.flatMap_singleton]

section Silence

variable [DecidableEq ρ] {target : ρ → Target} {call : ρ}

/-- The fragment is drawn for the given call. -/
def Fragment.isOf (call : ρ) : Fragment ρ → Bool
  | .drawn source _ => Phrase.called? (some source) = some call
  | .frame _ => false

/-- What is drawn for something else is not drawn for a call. -/
theorem Fragment.filter_isOf_drawn {source : Phrase String ρ}
    (other : call ∉ (Phrase.called? (some source)).toList) (texts : List String) :
    (texts.map (drawn source)).filter (isOf call) = [] := by
  rw [List.filter_eq_nil_iff, List.forall_mem_map]
  intro text _
  simpa [isOf] using other

/-- What is drawn for a call is drawn for it. -/
theorem Fragment.filter_isOf_call (mark : Option String) (texts : List String) :
    (texts.map (drawn (.ruleCall call mark))).filter (isOf call) =
      texts.map (drawn (.ruleCall call mark)) := by
  rw [List.filter_eq_self, List.forall_mem_map]
  intro text _
  simp [isOf, Phrase.called?]

namespace Phrase

/-- No attribute is drawn for a call that the element does not have. -/
theorem filter_isOf_attributeFragments {b : Phrase String ρ} (other : call ∉ b.calls) :
    (b.attributeFragments target).filter (Fragment.isOf call) = [] := by
  unfold attributeFragments
  split
  · next feature operator terminal mark =>
    refine Fragment.filter_isOf_drawn (fun isCall => other ?_) _
    rw [calls_assignment, reached_eq]
    exact List.mem_flatMap.mpr ⟨_, List.mem_cons_self, isCall⟩
  · rfl

/-- Nothing is drawn for a call on account of anything else that is assigned. -/
theorem filter_isOf_assignedFragments {owner : String} {bounds : Multiplicity} {arrow : Arrow}
    {feature : String} {b : Phrase String ρ} (other : call ∉ (called? (some b)).toList) :
    (b.assignedFragments target owner bounds arrow feature).filter (Fragment.isOf call) = [] :=
  Fragment.filter_isOf_drawn other _

/-- No relationship is drawn for a call that the element does not have. -/
theorem filter_isOf_drawnFragments {owner : String} {inherited : Inherited} {b : Phrase String ρ}
    (other : call ∉ b.calls) :
    (b.drawnFragments target owner inherited).filter (Fragment.isOf call) = [] := by
  cases b with
  | assignment feature operator terminal mark =>
    simp only [drawnFragments, List.filter_flatMap, List.flatMap_eq_nil_iff]
    intro t isTerminal met reached
    refine filter_isOf_assignedFragments fun isCall => other ?_
    exact List.mem_flatMap.mpr ⟨t, isTerminal, List.mem_flatMap.mpr ⟨met, reached, isCall⟩⟩
  | _ => exact Fragment.filter_isOf_drawn other _

end Phrase

namespace Production

/-- The fragments of a class block for a call are those of the attributes. -/
theorem filter_isOf_blockFragments (rule : Production String ρ) :
    (rule.blockFragments target).filter (Fragment.isOf call) =
      rule.body?.toList.flatMap fun body => (body.reached []).flatMap fun met =>
        (met.2.attributeFragments target).filter (Fragment.isOf call) := by
  have attributes : (rule.attributeFragments target).filter (Fragment.isOf call) =
      rule.body?.toList.flatMap fun body => (body.reached []).flatMap fun met =>
        (met.2.attributeFragments target).filter (Fragment.isOf call) := by
    simp only [attributeFragments, List.filter_flatMap]
  rw [← attributes, blockFragments, blockAround, attributeFragments]
  cases rule.body? with
  | none => rfl
  | some body =>
    have frame : ∀ text, ¬Fragment.isOf call (.frame text) := fun _ => Bool.false_ne_true
    simp only [List.cons_append, List.filter_cons_of_neg (frame _), List.filter_append,
      List.filter_nil, List.append_nil]

/-- No fragment of a class block is drawn for a call that the rule does not have. -/
theorem filter_isOf_blockFragments_eq_nil {rule : Production String ρ}
    (other : call ∉ rule.calls) :
    (rule.blockFragments target).filter (Fragment.isOf call) = [] := by
  rw [filter_isOf_blockFragments, List.flatMap_eq_nil_iff]
  intro body hasBody
  rw [List.flatMap_eq_nil_iff]
  refine fun met reached => Phrase.filter_isOf_attributeFragments fun isCall => other ?_
  exact List.mem_flatMap.mpr ⟨body, hasBody, List.mem_flatMap.mpr ⟨met, reached, isCall⟩⟩

/-- No relationship is drawn for a call that the rule does not have. -/
theorem filter_isOf_lineFragments_eq_nil {rule : Production String ρ} (other : call ∉ rule.calls) :
    (rule.lineFragments target).filter (Fragment.isOf call) = [] := by
  unfold lineFragments
  split
  · next body mark hasBody =>
    refine Fragment.filter_isOf_drawn (fun isCall => other ?_) _
    rw [calls_eq hasBody, Phrase.reached_eq]
    exact List.mem_flatMap.mpr ⟨_, List.mem_cons_self, isCall⟩
  · next body _ hasBody =>
    rw [List.filter_flatMap, List.flatMap_eq_nil_iff]
    refine fun met reached => Phrase.filter_isOf_drawnFragments fun isCall => other ?_
    rw [calls_eq hasBody]
    exact List.mem_flatMap.mpr ⟨met, reached, isCall⟩
  · rfl

end Production
end Silence

/-- A call that an assignment of a rule assigns, however deep in groups and alternatives. -/
structure AssignedCall (rule : Production String ρ) where
  body : Phrase String ρ
  hasBody : rule.body? = some body
  outer : List (Phrase String ρ)
  feature : String
  operator : String
  terminal : Phrase String ρ
  mark : Option String
  assigns : (outer, .assignment feature operator (some terminal) mark) ∈ body.reached []
  within : List (Phrase String ρ)
  call : ρ
  callMark : Option String
  reaches : (within, .ruleCall call callMark) ∈ terminal.reached []

namespace AssignedCall

variable {rule : Production String ρ} (a : AssignedCall rule)

/-- The assignment. -/
def assignment : Phrase String ρ := .assignment a.feature a.operator (some a.terminal) a.mark

/-- The call itself. -/
def element : Phrase String ρ := .ruleCall a.call a.callMark

/-- The attribute line for the call, when it leads to a terminal rule of the given name. -/
def attributeFragment (name : String) : Fragment ρ :=
  .drawn a.element (a.feature ++ a.operator ++ name ++ "\n")

/-- The relationship line for the call, when it leads to a parser rule of the given name. -/
def relationshipFragment (name : String) : Fragment ρ :=
  .drawn a.element (boundedLine rule.name ((Inherited.around a.outer).bounds a.assignment)
    (Phrase.assignmentArrow a.operator) a.feature name)

/-- The assignment has the call. -/
theorem call_mem_assignment : a.call ∈ a.assignment.calls := by
  rw [assignment, Phrase.calls_assignment]
  exact List.mem_flatMap.mpr ⟨_, a.reaches, List.mem_singleton_self a.call⟩

/-- The rule has the call. -/
theorem call_mem : a.call ∈ rule.calls := by
  rw [Production.calls_eq a.hasBody]
  exact List.mem_flatMap.mpr ⟨_, a.assigns, a.call_mem_assignment⟩

/-- What is assigned is the call when it is a call. -/
theorem terminal_eq {call : ρ} {mark : Option String} (h : a.terminal = .ruleCall call mark) :
    a.terminal = a.element := by
  have reached := a.reaches
  rw [h, Phrase.reached_eq] at reached
  obtain ⟨-, same⟩ := Prod.mk.inj (List.mem_singleton.mp reached)
  rw [h, element, same]

section Distinct

variable (distinct : rule.calls.Nodup)

include distinct

/-- Over all that is met in the body, what is read off for the call is what is read off the
assignment. -/
theorem flatMap_reached {α : Type} {yields : List (Phrase String ρ) × Phrase String ρ → List α}
    (silent : ∀ met : List (Phrase String ρ) × Phrase String ρ, a.call ∉ met.2.calls →
      yields met = []) :
    (a.body.reached []).flatMap yields = yields (a.outer, a.assignment) := by
  rw [Production.calls_eq a.hasBody] at distinct
  exact flatMap_eq_of_label (·.2.calls) a.call_mem_assignment silent distinct a.assigns

variable [DecidableEq ρ] {target : ρ → Target}

/-- The attributes for the call are those of the assignment. -/
theorem blockFragments_eq : (rule.blockFragments target).filter (Fragment.isOf a.call) =
    (a.assignment.attributeFragments target).filter (Fragment.isOf a.call) := by
  rw [Production.filter_isOf_blockFragments, a.hasBody, Option.toList_some, List.flatMap_singleton]
  exact a.flatMap_reached distinct fun _ => Phrase.filter_isOf_attributeFragments

/-- A call that is all that is assigned has an attribute when it leads to a terminal rule. -/
theorem blockFragments_of_direct (direct : a.terminal = a.element) :
    (rule.blockFragments target).filter (Fragment.isOf a.call) = (Phrase.calledTerminal?
      (some (a.element.resolve target))).toList.map a.attributeFragment := by
  have attributes : a.assignment.attributeFragments target =
      ((Phrase.calledTerminal? (some (a.element.resolve target))).toList.map fun name =>
        a.feature ++ a.operator ++ name ++ "\n").map (.drawn a.element) := by
    rw [assignment, direct]
    rfl
  rw [a.blockFragments_eq distinct, attributes, element, Fragment.filter_isOf_call, List.map_map]
  rfl

/-- A call that is one of several things that are assigned has no attribute. -/
theorem blockFragments_of_nested (nested : a.terminal ≠ a.element) :
    (rule.blockFragments target).filter (Fragment.isOf a.call) = [] := by
  have attributes : a.assignment.attributeFragments target = [] := by
    rw [assignment]
    cases h : a.terminal with
    | ruleCall call mark => exact absurd (a.terminal_eq h) nested
    | _ => rfl
  rw [a.blockFragments_eq distinct, attributes, List.filter_nil]

/-- Among all that the assignment draws, what is drawn for the call is the line of the call. -/
theorem drawnFragments_eq :
    (a.assignment.drawnFragments target rule.name (.around a.outer)).filter
        (Fragment.isOf a.call) =
      a.element.assignedFragments target rule.name ((Inherited.around a.outer).bounds a.assignment)
        (Phrase.assignmentArrow a.operator) a.feature := by
  have assigned : a.assignment.calls.Nodup := by
    rw [Production.calls_eq a.hasBody] at distinct
    exact (List.nodup_flatMap.mp distinct).1 _ a.assigns
  rw [assignment, Phrase.calls_assignment] at assigned
  rw [assignment, Phrase.drawnFragments, Option.toList_some, List.flatMap_singleton,
    List.filter_flatMap]
  refine (flatMap_eq_of_label (fun met => (Phrase.called? (some met.2)).toList)
    (List.mem_singleton_self a.call) (fun met other => ?_) assigned a.reaches).trans ?_
  · exact Phrase.filter_isOf_assignedFragments other
  · exact Fragment.filter_isOf_call a.callMark _

/-- The relationships for the call are its line on account of the assignment. -/
theorem lineFragments_eq : (rule.lineFragments target).filter (Fragment.isOf a.call) =
    a.element.assignedFragments target rule.name ((Inherited.around a.outer).bounds a.assignment)
      (Phrase.assignmentArrow a.operator) a.feature := by
  have drawn : rule.lineFragments target = (a.body.reached []).flatMap fun met =>
      met.2.drawnFragments target rule.name (.around met.1) := by
    rw [Production.lineFragments, a.hasBody]
    cases h : a.body with
    | ruleCall call mark =>
      -- a body that is a call is all that a visit of it meets
      have assigns := a.assigns
      rw [h, Phrase.reached_eq] at assigns
      cases (Prod.mk.inj (List.mem_singleton.mp assigns)).2
    | _ => rfl
  rw [drawn, List.filter_flatMap,
    a.flatMap_reached distinct fun _ => Phrase.filter_isOf_drawnFragments]
  exact a.drawnFragments_eq distinct

end Distinct

/-- Over all rules, the fragments for a call are those of its rule. -/
theorem fragments_eq [DecidableEq ρ] {target : ρ → Target} {rules : List (Production String ρ)}
    (distinct : (rules.flatMap Production.calls).Nodup) (mem : rule ∈ rules) :
    (Production.fragments target rules).filter (Fragment.isOf a.call) =
      (rule.blockFragments target).filter (Fragment.isOf a.call) ++
        (rule.lineFragments target).filter (Fragment.isOf a.call) := by
  rw [Production.fragments, List.filter_append, List.filter_flatMap, List.filter_flatMap,
    flatMap_eq_of_label Production.calls a.call_mem
      (fun _ => Production.filter_isOf_blockFragments_eq_nil) distinct mem,
    flatMap_eq_of_label Production.calls a.call_mem
      (fun _ => Production.filter_isOf_lineFragments_eq_nil) distinct mem]

end AssignedCall

namespace Model

variable [DecidableEq ρ] {m : Model} {target : ρ → Target} {rules : List (Production String ρ)}
  {ids : List NodeId}

/-- Where every call has a name of its own, an assigned call of a parser rule has one fragment in the
document, and it is a relationship of the owner. An assigned call of a terminal rule has one
fragment, an attribute of the owner, when it is all that is assigned; within a group or alternatives
it has none. -/
theorem fragments_of_call (stand : List.Forall₂ m.Draws (rules.map (Production.resolve target)) ids)
    (distinct : (rules.flatMap Production.calls).Nodup) {rule : Production String ρ}
    (mem : rule ∈ rules) (a : AssignedCall rule) (verbose : Bool) (writer : Writer) :
    (∀ text, (m.compileRules verbose (ids.map .node) writer).result = .ok text ↔
      (∀ rule ∈ rules, rule.isKnown) ∧
        text = Production.document (Production.fragments target rules)) ∧
    (∀ name, target a.call = .parserRule name →
      (Production.fragments target rules).filter (Fragment.isOf a.call) =
        [a.relationshipFragment name] ∧
      (rule.lineFragments target).filter (Fragment.isOf a.call) = [a.relationshipFragment name]) ∧
    (∀ name, target a.call = .terminalRule name →
      (a.terminal = a.element →
        (Production.fragments target rules).filter (Fragment.isOf a.call) =
          [a.attributeFragment name] ∧
        (rule.blockFragments target).filter (Fragment.isOf a.call) = [a.attributeFragment name]) ∧
      (a.terminal ≠ a.element →
        (Production.fragments target rules).filter (Fragment.isOf a.call) = [])) := by
  have own : rule.calls.Nodup := (List.nodup_flatMap.mp distinct).1 rule mem
  have whole : (Production.fragments target rules).filter (Fragment.isOf a.call) = _ :=
    a.fragments_eq distinct mem
  have lines : (rule.lineFragments target).filter (Fragment.isOf a.call) = _ :=
    a.lineFragments_eq own
  refine ⟨result_eq_fragments stand verbose writer, fun name leads => ?_, fun name leads => ?_⟩
  · have block : (rule.blockFragments target).filter (Fragment.isOf a.call) = [] := by
      by_cases direct : a.terminal = a.element
      · rw [a.blockFragments_of_direct own direct, AssignedCall.element, Phrase.resolve, leads]
        rfl
      · exact a.blockFragments_of_nested own direct
    rw [AssignedCall.element, Phrase.assignedFragments, Phrase.resolve, leads] at lines
    rw [whole, block, lines]
    exact ⟨rfl, rfl⟩
  · rw [AssignedCall.element, Phrase.assignedFragments, Phrase.resolve, leads] at lines
    refine ⟨fun direct => ?_, fun nested => ?_⟩
    · have block : (rule.blockFragments target).filter (Fragment.isOf a.call) = _ :=
        a.blockFragments_of_direct own direct
      rw [AssignedCall.element, Phrase.resolve, leads] at block
      rw [whole, lines, block]
      exact ⟨rfl, rfl⟩
    · rw [whole, lines, a.blockFragments_of_nested own nested]
      rfl

/-- A model of a rule that assigns one of two calls to a feature and a call to another one. -/
def offering : Model := ⟨[
  .ofShape (.reference ⟨.value (.str "B"), .node ⟨10⟩⟩) .nothing,
  .ofShape (.reference ⟨.value (.str "ID"), .node ⟨11⟩⟩) .nothing,
  { Node.ofShape (.ruleCall (.node ⟨0⟩)) .nothing with container := some (.node ⟨4⟩) },
  { Node.ofShape (.ruleCall (.node ⟨1⟩)) .nothing with container := some (.node ⟨4⟩) },
  { Node.ofShape (.alternatives (.ofNodes [⟨2⟩, ⟨3⟩])) .nothing with
    container := some (.node ⟨5⟩) },
  { Node.ofShape (.assignment (.value (.str "b")) (.value (.str "=")) (.node ⟨4⟩)) .nothing with
    container := some (.node ⟨8⟩) },
  { Node.ofShape (.ruleCall (.node ⟨1⟩)) .nothing with container := some (.node ⟨7⟩) },
  { Node.ofShape (.assignment (.value (.str "c")) (.value (.str "+=")) (.node ⟨6⟩)) .nothing with
    container := some (.node ⟨8⟩) },
  { Node.ofShape (.group (.ofNodes [⟨5⟩, ⟨7⟩])) .nothing with container := some (.node ⟨9⟩) },
  .ofShape (.parserRule (.value (.str "A")) (.node ⟨8⟩) .nothing .no .no) .nothing,
  .ofShape (.parserRule (.value (.str "B")) .nothing .nothing .no .no) .nothing,
  .ofShape (.terminalRule (.value (.str "ID")) .nothing .no .no) .nothing]⟩

/-- The alternatives that are assigned to the first feature. -/
def offer : Phrase String ℕ := .alternatives [.ruleCall 0 none, .ruleCall 1 none] none

/-- The body of the rule. -/
def offeringBody : Phrase String ℕ :=
  .group [.assignment "b" "=" (some offer) none,
    .assignment "c" "+=" (some (.ruleCall 2 none)) none] none

/-- The rule. -/
def offeringRule : Production String ℕ := .parser "A" (some offeringBody) none false false

/-- The rules of that model, with numbers for their calls. -/
def offeringRules : List (Production String ℕ) :=
  [offeringRule, .parser "B" none none false false, .terminal "ID" none false false]

/-- What the calls lead to. -/
def offeringTarget (call : ℕ) : Target :=
  if call = 0 then .parserRule "B" else .terminalRule "ID"

/-- The call of the parser rule among the alternatives. -/
def offeredRule : AssignedCall offeringRule :=
  ⟨offeringBody, rfl, [offeringBody], "b", "=", offer, none, .tail _ (.head _), [offer], 0, none,
    .tail _ (.head _)⟩

/-- The call of the terminal rule among the alternatives. -/
def offeredTerminal : AssignedCall offeringRule :=
  ⟨offeringBody, rfl, [offeringBody], "b", "=", offer, none, .tail _ (.head _), [offer], 1, none,
    .tail _ (.tail _ (.head _))⟩

/-- The call of the terminal rule that is assigned by itself. -/
def directTerminal : AssignedCall offeringRule :=
  ⟨offeringBody, rfl, [offeringBody], "c", "+=", .ruleCall 2 none, none,
    .tail _ (.tail _ (.head _)), [], 2, none, .head _⟩

/-- The rules stand in the model. -/
theorem draws_offering : List.Forall₂ offering.Draws
    (offeringRules.map (Production.resolve offeringTarget)) [⟨9⟩, ⟨10⟩, ⟨11⟩] := by
  have nested : offering.isNested := rfl
  have rule : Target.LedTo offering (.node ⟨0⟩) (.parserRule "B") :=
    ⟨⟨0⟩, _, rfl, rfl, .parserRule rfl⟩
  have terminal : Target.LedTo offering (.node ⟨1⟩) (.terminalRule "ID") :=
    ⟨⟨1⟩, _, rfl, rfl, .terminalRule rfl⟩
  have alternatives : Phrase.StandsAt .texts offering (offer.resolve offeringTarget) ⟨4⟩ :=
    ⟨[⟨2⟩, ⟨3⟩], ⟨_, _, rfl, ⟨_, rule, _, rfl, rfl, rfl⟩, _, _, rfl,
      ⟨_, terminal, _, rfl, rfl, rfl⟩, rfl⟩, _, rfl, rfl, rfl⟩
  have direct : Phrase.StandsAt .texts offering
      (.ruleCall (.terminalRule "ID") none : Phrase String Target) ⟨6⟩ :=
    ⟨_, terminal, _, rfl, rfl, rfl⟩
  have body : Phrase.StandsAt .texts offering (offeringBody.resolve offeringTarget) ⟨8⟩ :=
    ⟨[⟨5⟩, ⟨7⟩], ⟨_, _, rfl, ⟨_, ⟨_, rfl, alternatives⟩, _, rfl, rfl, rfl⟩, _, _, rfl,
      ⟨_, ⟨_, rfl, direct⟩, _, rfl, rfl, rfl⟩, rfl⟩, _, rfl, rfl, rfl⟩
  exact .cons ⟨⟨_, ⟨_, rfl, body⟩, rfl⟩, nestedBelow_of_isNested nested _⟩
    (.cons ⟨⟨_, rfl, rfl⟩, nestedBelow_of_isNested nested _⟩
      (.cons ⟨rfl, nestedBelow_of_isNested nested _⟩ .nil))

/-- Of the two calls that are offered, only that of the parser rule is in the document. -/
theorem fragments_of_call_offering :
    List.Forall₂ offering.Draws (offeringRules.map (Production.resolve offeringTarget))
        [⟨9⟩, ⟨10⟩, ⟨11⟩] ∧
      (offeringRules.flatMap Production.calls).Nodup ∧
      (offering.compileRules false ([⟨9⟩, ⟨10⟩, ⟨11⟩].map .node) .idle).result =
        .ok "@startuml\nclass A \x7b\nc+=ID\n\x7d\nA \"1..1\" o-- \"b\" B\n@enduml\n" ∧
      (Production.fragments offeringTarget offeringRules).filter (Fragment.isOf 0) =
        [.drawn (.ruleCall 0 none) "A \"1..1\" o-- \"b\" B\n"] ∧
      (Production.fragments offeringTarget offeringRules).filter (Fragment.isOf 1) = [] ∧
      (Production.fragments offeringTarget offeringRules).filter (Fragment.isOf 2) =
        [.drawn (.ruleCall 2 none) "c+=ID\n"] := by
  have distinct : (offeringRules.flatMap Production.calls).Nodup := by decide
  have mem : offeringRule ∈ offeringRules := List.mem_cons_self
  obtain ⟨text, rule, -⟩ :=
    fragments_of_call draws_offering distinct mem offeredRule false .idle
  obtain ⟨-, -, nested⟩ := fragments_of_call draws_offering distinct mem offeredTerminal false .idle
  obtain ⟨-, -, direct⟩ := fragments_of_call draws_offering distinct mem directTerminal false .idle
  exact ⟨draws_offering, distinct, (text _).mpr ⟨by decide, rfl⟩, (rule _ rfl).1,
    (nested "ID" rfl).2 nofun, ((direct "ID" rfl).1 rfl).1⟩

end Model
end GrammarChart
