import GrammarChart.Model.Building
import GrammarChart.Proofs.Model.Containment

/-!
# Added signals

What a mark that is given to an element, or an operator that adds instead of setting, does to the
multiplicities of a model. An edit that leaves containers and kinds alone leaves every way up alone
(`nearest_update`), so an element has the signals that it had, except that a signal that says nothing
may have given way to the new one (`signals_of_yields`). Signals only accumulate; so bounds only
widen, and only where the edited node is asked for its signal (`Model.signals_accumulate`).
-/

set_option autoImplicit false

namespace GrammarChart

namespace Multiplicity

/-- The least number of occurrences. -/
def least (bounds : Multiplicity) : ℕ := if bounds.optional then 0 else 1

/-- The greatest number of occurrences. -/
def most (bounds : Multiplicity) : ℕ∞ := if bounds.many then ⊤ else 1

/-- The lower bound is written as the least number. -/
theorem lower_eq (bounds : Multiplicity) : bounds.lower = toString bounds.least := by
  unfold lower least
  split <;> rfl

/-- The upper bound is written as a star when there is no greatest number. -/
theorem upper_eq (bounds : Multiplicity) :
    bounds.upper = if bounds.most = ⊤ then "*" else "1" := by
  unfold upper most
  split <;> simp

/-- The signal is none of those that change bounds. -/
def IsSilent (signal : Item) : Prop :=
  isOptionalSignal signal = false ∧ isManySignal signal = false

/-- A signal stays, or gives way to the given one if it says nothing. -/
inductive Yields (given : Item) : Item → Item → Prop where
  | same (signal : Item) : Yields given signal signal
  | silent {signal : Item} (h : IsSilent signal) : Yields given signal given

/-- What is not present is no signal. -/
theorem isSilent_of_not_present {item : Item} (h : item.isPresent = false) : IsSilent item := by
  have other : ∀ text : String, text ≠ "" → item.isText text = false := by
    intro text full
    refine Bool.eq_false_iff.mpr fun isText => ?_
    cases item with
    | value v =>
      cases v with
      | str word =>
        obtain rfl : word = text := by simpa [Item.isText, Json.isText] using isText
        simp [Item.isPresent, Json.isPresent, full] at h
      | _ => cases isText
    | _ => cases isText
  simp [IsSilent, isOptionalSignal, isManySignal, other]

section Yields

variable {given : Item} {before after : List Item} {asks : Item → Bool}

/-- A signal that was there is still there. -/
theorem any_of_yields (h : List.Forall₂ (Yields given) before after)
    (quiet : ∀ signal, IsSilent signal → asks signal = false) (there : before.any asks = true) :
    after.any asks = true := by
  induction h with
  | nil => exact there
  | cons head _ ih =>
    rw [List.any_cons, Bool.or_eq_true] at there ⊢
    rcases there with here | later
    · cases head with
      | same => exact .inl here
      | silent isSilent => simp [quiet _ isSilent] at here
    · exact .inr (ih later)

/-- A signal other than the given one is there when it was. -/
theorem any_eq_of_yields (h : List.Forall₂ (Yields given) before after)
    (quiet : ∀ signal, IsSilent signal → asks signal = false) (other : asks given = false) :
    after.any asks = before.any asks := by
  induction h with
  | nil => rfl
  | cons head _ ih =>
    rw [List.any_cons, List.any_cons, ih]
    cases head with
    | same => rfl
    | silent isSilent => rw [other, quiet _ isSilent]

/-- Where signals give way to a given one, the least number does not rise, and it stays when the
given one is no question mark. -/
theorem least_of_yields (h : List.Forall₂ (Yields given) before after) :
    (ofSignals after).least ≤ (ofSignals before).least ∧
      (isOptionalSignal given = false → (ofSignals after).least = (ofSignals before).least) := by
  have kept : (ofSignals before).optional = true → (ofSignals after).optional = true :=
    any_of_yields h fun _ silent => silent.1
  refine ⟨?_, fun other => ?_⟩
  · unfold least
    cases there : (ofSignals before).optional with
    | true =>
      rw [if_pos (kept there)]
      exact Nat.zero_le _
    | false =>
      split
      · exact Nat.zero_le _
      · exact le_rfl
  · have same : (ofSignals after).optional = (ofSignals before).optional :=
      any_eq_of_yields h (fun _ silent => silent.1) other
    rw [least, least, same]

/-- Where signals give way to a given one, the greatest number does not fall, and it stays when the
given one is a question mark. -/
theorem most_of_yields (h : List.Forall₂ (Yields given) before after) :
    (ofSignals before).most ≤ (ofSignals after).most ∧
      (isManySignal given = false → (ofSignals after).most = (ofSignals before).most) := by
  have kept : (ofSignals before).many = true → (ofSignals after).many = true :=
    any_of_yields h fun _ silent => silent.2
  refine ⟨?_, fun other => ?_⟩
  · unfold most
    cases there : (ofSignals before).many with
    | true =>
      rw [if_pos (kept there)]
      exact le_top
    | false =>
      rw [if_neg Bool.false_ne_true]
      split
      · exact le_top
      · exact le_rfl
  · have same : (ofSignals after).many = (ofSignals before).many :=
      any_eq_of_yields h (fun _ silent => silent.2) other
    rw [most, most, same]

end Yields
end Multiplicity

open Multiplicity (Yields IsSilent)

namespace Model

variable {m : Model} {edited : NodeId} {node : Node} {change : Node → Node}

/-- Gives a node a mark, in place of the one before. -/
def withMark (m : Model) (id : NodeId) (mark : String) : Model :=
  m.update id (·.put "cardinality" (.value (.str mark)))

/-- Gives a node an operator, in place of the one before. -/
def withOperator (m : Model) (id : NodeId) (operator : String) : Model :=
  m.update id (·.put "operator" (.value (.str operator)))

section Update

variable (found : m.node? edited = some node)

include found

/-- An edit that leaves the answer of a node to a question leaves all answers. -/
theorem nodeIs_update {property : Node → Bool} (same : property (change node) = property node)
    (id : NodeId) : (m.update edited change).nodeIs property id = m.nodeIs property id := by
  rw [nodeIs, nodeIs, node?_update]
  split
  · next here =>
    subst here
    simp [found, same]
  · rfl

/-- An edit that leaves the container of a node leaves the way up from every place. -/
theorem climb_update (same : (change node).container = node.container) (steps : Nat) :
    ∀ place : Item, (m.update edited change).climb steps place = m.climb steps place := by
  induction steps with
  | zero => exact fun _ => rfl
  | succ steps ih =>
    intro place
    cases place with
    | value _ | list _ => rfl
    | node id =>
      rw [climb, climb, node?_update]
      by_cases here : edited = id
      · subst here
        simp only [found, if_true, Option.map_some, same, ih]
      · simp only [if_neg here, ih]

/-- An edit that leaves the container of a node leaves what every node stands in. -/
theorem ancestors_update (same : (change node).container = node.container) (id : NodeId) :
    (m.update edited change).ancestors id = m.ancestors id := by
  have count : (m.update edited change).nodes.length = m.nodes.length := List.length_modify ..
  rw [ancestors, ancestors, node?_update, count]
  by_cases here : edited = id
  · subst here
    simp only [found, if_true, Option.map_some, same, climb_update found same]
  · simp only [if_neg here, climb_update found same]

/-- An edit that leaves the container and the kind of a node leaves the nearest node of each kind. -/
theorem nearest_update (stands : (change node).container = node.container)
    (kind : (change node).isRule = node.isRule) {property : Node → Bool}
    (same : property (change node) = property node) (id : NodeId) :
    (m.update edited change).nearest property id = m.nearest property id := by
  simp only [nearest, enclosing, ancestors_update found stands, nodeIs_update found kind]
  exact congrArg (List.find? · _) (funext (nodeIs_update found same))

/-- The mark of a node after an edit. -/
theorem markOf_update (id : NodeId) : (m.update edited change).markOf id =
    if edited = id then (change node).cardinality else m.markOf id := by
  rw [markOf, node?_update]
  split
  · next here =>
    subst here
    simp [found]
  · rfl

/-- The operator of a node after an edit. -/
theorem operatorOf_update (id : NodeId) : (m.update edited change).operatorOf id =
    if edited = id then (change node).operator? else m.operatorOf id := by
  rw [operatorOf, node?_update]
  split
  · next here =>
    subst here
    simp [found]
  · rfl

end Update

section Signals

variable {m' : Model} {given : Item}

/-- Where marks and operators give way to a given signal and the nearest nodes stay, so do the signals
of every element. -/
theorem signals_of_yields (marks : ∀ id, Yields given (m.markOf id) (m'.markOf id))
    (operators : ∀ id, Option.Rel (Yields given) (m.operatorOf id) (m'.operatorOf id))
    {id : NodeId} (assignment : m'.nearest Node.isAssignment id = m.nearest Node.isAssignment id)
    (group : m'.enclosingGroup id = m.enclosingGroup id) :
    List.Forall₂ (Yields given) (m.signals id) (m'.signals id) := by
  have listed : ∀ {a b : Option Item}, Option.Rel (Yields given) a b →
      List.Forall₂ (Yields given) a.toList b.toList := by
    intro a b related
    cases related with
    | none => exact .nil
    | some here => exact .cons here .nil
  have operator : Option.Rel (Yields given) (m.governingOperator id) (m'.governingOperator id) := by
    rw [governingOperator, governingOperator, assignment]
    have own := operators id
    cases ha : m.operatorOf id <;> cases hb : m'.operatorOf id <;> rw [ha, hb] at own <;>
      cases own
    · cases m.nearest Node.isAssignment id with
      | none => exact .none
      | some around => exact operators around
    · next here => exact .some here
  have grouped : Option.Rel (Yields given) ((m.enclosingGroup id).map m.markOf)
      ((m'.enclosingGroup id).map m'.markOf) := by
    rw [group]
    cases m.enclosingGroup id with
    | none => exact .none
    | some around => exact .some (marks around)
  exact List.rel_append (.cons (marks id) (listed operator)) (listed grouped)

end Signals

section Edits

variable {n : NodeId}

/-- A mark that is given to a node is the mark of that node, and nothing else changes. -/
theorem withMark_spec (found : m.node? n = some node) (mark : String)
    (kind : ∀ elements, node.shape ≠ .alternatives elements) :
    (∀ id, (m.withMark n mark).markOf id =
        if n = id then .value (.str mark) else m.markOf id) ∧
      (m.withMark n mark).operatorOf = m.operatorOf ∧
      (m.withMark n mark).nearest Node.isAssignment = m.nearest Node.isAssignment ∧
      (m.withMark n mark).enclosingGroup = m.enclosingGroup := by
  have group : Node.isMarkedGroup (node.put "cardinality" (.value (.str mark))) =
      node.isMarkedGroup := by
    cases hs : node.shape with
    | alternatives elements => exact absurd hs (kind elements)
    | _ => simp [Node.put, Node.isMarkedGroup, hs]
  refine ⟨markOf_update found, funext fun id => ?_, funext (nearest_update found rfl rfl rfl),
    funext (nearest_update found rfl rfl group)⟩
  rw [withMark, operatorOf_update found]
  split
  · next here =>
    subst here
    simp [operatorOf, found, Node.put, Node.operator?]
  · rfl

/-- An operator that is given to an assignment or to an action is the operator of that node, and
nothing else changes. -/
theorem withOperator_spec (found : m.node? n = some node) {before : Item}
    (kind : node.operator? = some before) (operator : String) :
    (m.withOperator n operator).markOf = m.markOf ∧
      (∀ id, (m.withOperator n operator).operatorOf id =
        if n = id then some (.value (.str operator)) else m.operatorOf id) ∧
      (m.withOperator n operator).nearest Node.isAssignment = m.nearest Node.isAssignment ∧
      (m.withOperator n operator).enclosingGroup = m.enclosingGroup := by
  obtain ⟨stands, rule, assigns, groups, mark, own⟩ :
      (node.put "operator" (.value (.str operator))).container = node.container ∧
        (node.put "operator" (.value (.str operator))).isRule = node.isRule ∧
        (node.put "operator" (.value (.str operator))).isAssignment = node.isAssignment ∧
        (node.put "operator" (.value (.str operator))).isMarkedGroup = node.isMarkedGroup ∧
        (node.put "operator" (.value (.str operator))).cardinality = node.cardinality ∧
        (node.put "operator" (.value (.str operator))).operator? =
          some (.value (.str operator)) := by
    cases hs : node.shape <;> simp [Node.operator?, hs] at kind <;>
      simp [Node.put, Shape.withPart, Node.isRule, Node.isAssignment, Node.isMarkedGroup,
        Node.operator?, hs]
  refine ⟨funext fun id => ?_, fun id => ?_, funext (nearest_update found stands rule assigns),
    funext (nearest_update found stands rule groups)⟩
  · rw [withOperator, markOf_update found, mark]
    split
    · next here =>
      subst here
      simp [markOf, found]
    · rfl
  · rw [withOperator, operatorOf_update found, own]

/-- A mark that is given to a node widens bounds, and only where the node is the element or its
nearest group. -/
theorem multiplicity_withMark (found : m.node? n = some node) (mark : String)
    (kind : ∀ elements, node.shape ≠ .alternatives elements)
    (unmarked : node.cardinality.isPresent = false) (e : NodeId) :
    List.Forall₂ (Yields (.value (.str mark))) (m.signals e) ((m.withMark n mark).signals e) ∧
      (e ≠ n → m.enclosingGroup e ≠ some n →
        (m.withMark n mark).multiplicity e = m.multiplicity e) := by
  obtain ⟨marks, operators, assignment, group⟩ := withMark_spec found mark kind
  constructor
  · refine signals_of_yields (fun id => ?_) (fun id => ?_) (congrFun assignment e)
      (congrFun group e)
    · rw [marks]
      split
      · next here =>
        subst here
        have own : m.markOf n = node.cardinality := by simp [markOf, found]
        exact .silent (own ▸ Multiplicity.isSilent_of_not_present unmarked)
      · exact .same _
    · rw [operators]
      cases m.operatorOf id with
      | none => exact .none
      | some operator => exact .some (.same operator)
  · intro elsewhere outside
    have grouped : (m.enclosingGroup e).map (m.withMark n mark).markOf =
        (m.enclosingGroup e).map m.markOf := by
      refine Option.map_congr fun g isGroup => ?_
      rw [marks, if_neg]
      rintro rfl
      exact outside isGroup
    simp only [multiplicity, signals, governingOperator, operators, assignment, group, grouped,
      marks, if_neg elsewhere.symm]

/-- An operator that adds, in place of one that sets, widens bounds, and only where the node is the
element or its nearest assignment. -/
theorem multiplicity_withOperator (found : m.node? n = some node)
    (sets : node.operator? = some (.value (.str "="))) (e : NodeId) :
    List.Forall₂ (Yields (.value (.str "+="))) (m.signals e)
        ((m.withOperator n "+=").signals e) ∧
      (e ≠ n → m.nearest Node.isAssignment e ≠ some n →
        (m.withOperator n "+=").multiplicity e = m.multiplicity e) := by
  obtain ⟨marks, operators, assignment, group⟩ := withOperator_spec found sets "+="
  constructor
  · refine signals_of_yields (fun id => ?_) (fun id => ?_) (congrFun assignment e)
      (congrFun group e)
    · rw [marks]
      exact .same _
    · rw [operators]
      split
      · next here =>
        subst here
        have own : m.operatorOf n = some (.value (.str "=")) := by simp [operatorOf, found, sets]
        rw [own]
        exact .some (.silent ⟨rfl, rfl⟩)
      · cases m.operatorOf id with
        | none => exact .none
        | some operator => exact .some (.same operator)
  · intro elsewhere outside
    have assigned : (m.nearest Node.isAssignment e).bind (m.withOperator n "+=").operatorOf =
        (m.nearest Node.isAssignment e).bind m.operatorOf := by
      cases around : m.nearest Node.isAssignment e with
      | none => rfl
      | some a =>
        rw [Option.bind_some, Option.bind_some, operators, if_neg]
        rintro rfl
        exact outside around
    have own : (m.withOperator n "+=").operatorOf e = m.operatorOf e := by
      rw [operators, if_neg elsewhere.symm]
    simp only [multiplicity, signals, governingOperator, marks, assignment, group, assigned, own]

end Edits

/-- Signals accumulate and act where they are given. A mark that is given to a node that has none,
and that is no alternatives, raises no least number and lowers no greatest number: a question mark
leaves every greatest number, and a star or a plus leaves every least number. Nothing changes for an
element, other than the node, whose nearest group is not the node. The same holds of an assignment
or an action whose operator adds instead of setting: it leaves every least number, and nothing
changes for an element, other than the node, whose nearest assignment is not the node. -/
theorem signals_accumulate {n : NodeId} (found : m.node? n = some node) :
    (∀ mark ∈ ["?", "*", "+"], (∀ elements, node.shape ≠ .alternatives elements) →
      node.cardinality.isPresent = false → ∀ e,
        ((m.withMark n mark).multiplicity e).least ≤ (m.multiplicity e).least ∧
          (m.multiplicity e).most ≤ ((m.withMark n mark).multiplicity e).most ∧
          (mark = "?" → ((m.withMark n mark).multiplicity e).most = (m.multiplicity e).most) ∧
          (mark ≠ "?" → ((m.withMark n mark).multiplicity e).least = (m.multiplicity e).least) ∧
          (e ≠ n → m.enclosingGroup e ≠ some n →
            (m.withMark n mark).multiplicity e = m.multiplicity e)) ∧
    (node.operator? = some (.value (.str "=")) → ∀ e,
        ((m.withOperator n "+=").multiplicity e).least = (m.multiplicity e).least ∧
          (m.multiplicity e).most ≤ ((m.withOperator n "+=").multiplicity e).most ∧
          (e ≠ n → m.nearest Node.isAssignment e ≠ some n →
            (m.withOperator n "+=").multiplicity e = m.multiplicity e)) := by
  constructor
  · intro mark isMark kind unmarked e
    obtain ⟨yields, elsewhere⟩ := multiplicity_withMark found mark kind unmarked e
    obtain ⟨falls, least⟩ := Multiplicity.least_of_yields yields
    obtain ⟨rises, most⟩ := Multiplicity.most_of_yields yields
    refine ⟨falls, rises, ?_, fun other => least ?_, elsewhere⟩
    · rintro rfl
      exact most rfl
    · simp only [List.mem_cons, List.not_mem_nil, or_false] at isMark
      rcases isMark with rfl | rfl | rfl
      · exact absurd rfl other
      · rfl
      · rfl
  · intro sets e
    obtain ⟨yields, elsewhere⟩ := multiplicity_withOperator found sets e
    exact ⟨(Multiplicity.least_of_yields yields).2 rfl, (Multiplicity.most_of_yields yields).1,
      elsewhere⟩

/-- A model of a rule with a group in a group: the inner one assigns a reference to a feature, and a
call stands beside it. -/
def grouping : Model := ⟨[
  .ofShape (.reference ⟨.value (.str "B"), .nothing⟩) .nothing,
  { Node.ofShape (.crossReference (.node ⟨0⟩) .nothing) .nothing with
    container := some (.node ⟨2⟩) },
  { Node.ofShape (.assignment (.value (.str "b")) (.value (.str "=")) (.node ⟨1⟩)) .nothing with
    container := some (.node ⟨3⟩) },
  { Node.ofShape (.group (.ofNodes [⟨2⟩])) .nothing with container := some (.node ⟨5⟩) },
  { Node.ofShape (.ruleCall (.node ⟨0⟩)) .nothing with container := some (.node ⟨5⟩) },
  { Node.ofShape (.group (.ofNodes [⟨3⟩, ⟨4⟩])) .nothing with container := some (.node ⟨6⟩) },
  .ofShape (.parserRule (.value (.str "A")) (.node ⟨5⟩) .nothing .no .no) .nothing]⟩

/-- A question mark at the inner group makes what it assigns optional, and an adding operator lifts
the bound of the reference; the call beside the group keeps its bounds. -/
theorem signals_accumulate_grouping :
    (grouping.withMark ⟨3⟩ "?").multiplicity ⟨1⟩ = ⟨true, false⟩ ∧
      ((grouping.withMark ⟨3⟩ "?").multiplicity ⟨1⟩).most = (grouping.multiplicity ⟨1⟩).most ∧
      (grouping.withMark ⟨3⟩ "?").multiplicity ⟨4⟩ = grouping.multiplicity ⟨4⟩ ∧
      (grouping.withOperator ⟨2⟩ "+=").multiplicity ⟨1⟩ = ⟨false, true⟩ ∧
      ((grouping.withOperator ⟨2⟩ "+=").multiplicity ⟨1⟩).least =
        (grouping.multiplicity ⟨1⟩).least ∧
      (grouping.withOperator ⟨2⟩ "+=").multiplicity ⟨4⟩ = grouping.multiplicity ⟨4⟩ := by
  have group : grouping.node? ⟨3⟩ = some _ := rfl
  have assignment : grouping.node? ⟨2⟩ = some _ := rfl
  have marked := (signals_accumulate group).1 "?" (by simp) (fun _ => nofun) rfl
  have adds := (signals_accumulate assignment).2 rfl
  obtain ⟨-, -, most, -, -⟩ := marked ⟨1⟩
  obtain ⟨-, -, -, -, beside⟩ := marked ⟨4⟩
  refine ⟨by decide, most rfl, beside (by decide) (by decide), by decide, (adds ⟨1⟩).1,
    (adds ⟨4⟩).2.2 (by decide) (by decide)⟩

end Model
end GrammarChart
