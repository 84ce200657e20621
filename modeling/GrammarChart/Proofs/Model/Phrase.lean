import Mathlib
import GrammarChart.Model.Visit

/-!
# Phrases

`Phrase` is the body of a rule apart from any model: a finite tree of elements with the words and
the references that they carry. A visit goes through groups and alternatives and no further, parents
before children; `Phrase.reached` lists what it meets, each element with those that it stands in.
`reached_eq` is the recursion of the visit over the members of an element, and `Phrase.induct` the
induction over what is below one.
-/

set_option autoImplicit false

namespace GrammarChart

/-- An element of a rule body with all that is below it: `φ` is the type of its words, such as
names, operators and marks, and `ρ` that of its references. -/
inductive Phrase (φ ρ : Type) where
  | keyword (value : φ) (mark : Option φ)
  | ruleCall (rule : ρ) (mark : Option φ)
  | crossReference (type : ρ) (terminal : Option (Phrase φ ρ)) (mark : Option φ)
  | assignment (feature operator : φ) (terminal : Option (Phrase φ ρ)) (mark : Option φ)
  | alternatives (elements : List (Phrase φ ρ)) (mark : Option φ)
  | group (elements : List (Phrase φ ρ)) (mark : Option φ)
  | action (type : Option ρ) (inferredType feature operator mark : Option φ)
  /-- An element of a kind that no pass knows. -/
  | unknown (kind : String) (mark : Option φ)
  deriving Repr

/-- A rule with its body, if it is a parser rule that has one. -/
inductive Production (φ ρ : Type) where
  | parser (name : φ) (definition : Option (Phrase φ ρ)) (inferredType : Option φ)
      (entry fragment : Bool)
  | terminal (name : φ) (regex : Option φ) (hidden fragment : Bool)
  deriving Repr

namespace Phrase

variable {φ ρ : Type}

/-- The members of a group or of alternatives. -/
def members : Phrase φ ρ → List (Phrase φ ρ)
  | .alternatives elements _ => elements
  | .group elements _ => elements
  | _ => []

/-- The mark of an element. -/
def mark : Phrase φ ρ → Option φ
  | .keyword _ mark => mark
  | .ruleCall _ mark => mark
  | .crossReference _ _ mark => mark
  | .assignment _ _ _ mark => mark
  | .alternatives _ mark => mark
  | .group _ mark => mark
  | .action _ _ _ _ mark => mark
  | .unknown _ mark => mark

/-- The handler for an element, unless it is of a kind that no pass knows. -/
def handler? : Phrase φ ρ → Option Handler
  | .keyword .. => some .keyword
  | .ruleCall .. => some .ruleCall
  | .crossReference .. => some .crossReference
  | .assignment .. => some .assignment
  | .alternatives .. => some .alternatives
  | .group .. => some .group
  | .action .. => some .action
  | .unknown .. => none

mutual

/-- What a visit of an element meets, in order: each element with those that it stands in, the
nearest one first. The element itself stands in the given ones. -/
def reached (outer : List (Phrase φ ρ)) : Phrase φ ρ → List (List (Phrase φ ρ) × Phrase φ ρ)
  | .alternatives elements mark =>
    (outer, .alternatives elements mark) ::
      reachedAll (.alternatives elements mark :: outer) elements
  | .group elements mark =>
    (outer, .group elements mark) :: reachedAll (.group elements mark :: outer) elements
  | b => [(outer, b)]

/-- What visits of elements meet, one after the other. -/
def reachedAll (outer : List (Phrase φ ρ)) :
    List (Phrase φ ρ) → List (List (Phrase φ ρ) × Phrase φ ρ)
  | [] => []
  | b :: rest => b.reached outer ++ reachedAll outer rest

end

/-- No visit of the element meets an element of unknown kind. -/
def isKnown (b : Phrase φ ρ) : Bool :=
  (b.reached []).all fun met => met.2.handler?.isSome

/-- Visits one after the other meet what each of them meets. -/
theorem reachedAll_eq (outer phrases : List (Phrase φ ρ)) :
    reachedAll outer phrases = phrases.flatMap (reached outer) := by
  induction phrases with
  | nil => simp [reachedAll]
  | cons b rest ih => simp [reachedAll, ih]

/-- A visit meets the element and then what the visits of its members meet. -/
theorem reached_eq (outer : List (Phrase φ ρ)) (b : Phrase φ ρ) :
    b.reached outer = (outer, b) :: b.members.flatMap (reached (b :: outer)) := by
  cases b <;> simp [reached, members, reachedAll_eq]

/-- What is directly below an element: its members, or its terminal. -/
def children : Phrase φ ρ → List (Phrase φ ρ)
  | .crossReference _ terminal _ => terminal.toList
  | .assignment _ _ terminal _ => terminal.toList
  | b => b.members

/-- What is below an element is smaller. -/
theorem sizeOf_child_lt {b c : Phrase φ ρ} (h : c ∈ b.children) : sizeOf c < sizeOf b := by
  cases b with
  | alternatives elements mark =>
    have := List.sizeOf_lt_of_mem h
    simp only [children, members, alternatives.sizeOf_spec] at this ⊢
    omega
  | group elements mark =>
    have := List.sizeOf_lt_of_mem h
    simp only [children, members, group.sizeOf_spec] at this ⊢
    omega
  | crossReference type terminal mark =>
    simp only [children, Option.mem_toList] at h
    subst h
    simp only [crossReference.sizeOf_spec, Option.some.sizeOf_spec]
    omega
  | assignment feature operator terminal mark =>
    simp only [children, Option.mem_toList] at h
    subst h
    simp only [assignment.sizeOf_spec, Option.some.sizeOf_spec]
    omega
  | _ => simp [children, members] at h

/-- Induction over everything below an element, terminals included. -/
@[elab_as_elim]
theorem induct {motive : Phrase φ ρ → Prop}
    (step : ∀ b : Phrase φ ρ, (∀ c ∈ b.children, motive c) → motive b) (b : Phrase φ ρ) :
    motive b :=
  step b fun c _ => induct step c
termination_by sizeOf b
decreasing_by exact sizeOf_child_lt (by assumption)

/-- The members of an element are below it. -/
theorem mem_children_of_mem_members {b c : Phrase φ ρ} (h : c ∈ b.members) : c ∈ b.children := by
  cases b <;> first | exact h | simp [members] at h

/-- What a visit meets does not depend on what the element stands in. -/
theorem flatMap_reached {α : Type} (lists : Phrase φ ρ → List α) (b : Phrase φ ρ) :
    ∀ outer other : List (Phrase φ ρ), ((b.reached outer).flatMap fun met => lists met.2) =
      (b.reached other).flatMap fun met => lists met.2 := by
  induction b using induct with
  | step b ih =>
    intro outer other
    rw [reached_eq, reached_eq, List.flatMap_cons, List.flatMap_cons, List.flatMap_assoc,
      List.flatMap_assoc]
    refine congrArg (lists b ++ ·) (List.flatMap_congr fun c hc => ?_)
    exact ih c (mem_children_of_mem_members hc) (b :: outer) (b :: other)

/-- What a visit meets, apart from what it stands in, does not depend on what the element stands
in. -/
theorem map_reached (b : Phrase φ ρ) (outer other : List (Phrase φ ρ)) :
    (b.reached outer).map Prod.snd = (b.reached other).map Prod.snd := by
  have same := flatMap_reached (fun b => [b]) b outer other
  rwa [← List.map_eq_flatMap, ← List.map_eq_flatMap] at same

/-- Where a change of elements changes their members one by one, a visit of a changed element meets
what one of the element meets, all of it changed. -/
theorem reached_map {ψ σ : Type} {change : Phrase φ ρ → Phrase ψ σ}
    (each : ∀ b, (change b).members = b.members.map change) (b : Phrase φ ρ) :
    ∀ outer : List (Phrase φ ρ), (change b).reached (outer.map change) =
      (b.reached outer).map (Prod.map (List.map change) change) := by
  induction b using induct with
  | step b ih =>
    intro outer
    rw [reached_eq, reached_eq, each, List.map_cons, List.flatMap_map, List.map_flatMap]
    exact congrArg _ (List.flatMap_congr fun c hc =>
      ih c (mem_children_of_mem_members hc) (b :: outer))

end Phrase

namespace Production

variable {φ ρ : Type}

/-- The name of a rule. -/
def name : Production φ ρ → φ
  | .parser name .. => name
  | .terminal name .. => name

/-- The body of a rule. Terminal rules have none. -/
def body? : Production φ ρ → Option (Phrase φ ρ)
  | .parser _ definition .. => definition
  | .terminal .. => none

/-- No visit of the body of the rule meets an element of unknown kind. -/
def isKnown (rule : Production φ ρ) : Bool :=
  rule.body?.all Phrase.isKnown

section MapBody

variable {σ : Type}

/-- The rule with its body changed. -/
def mapBody (change : Phrase φ ρ → Phrase φ σ) : Production φ ρ → Production φ σ
  | .parser name definition inferredType entry fragment =>
    .parser name (definition.map change) inferredType entry fragment
  | .terminal name regex hidden fragment => .terminal name regex hidden fragment

variable {change : Phrase φ ρ → Phrase φ σ}

/-- Changing the body of a rule leaves its name. -/
@[simp] theorem name_mapBody (rule : Production φ ρ) : (rule.mapBody change).name = rule.name := by
  cases rule <;> rfl

/-- The body of the changed rule is the changed body. -/
@[simp] theorem body?_mapBody (rule : Production φ ρ) :
    (rule.mapBody change).body? = rule.body?.map change := by
  cases rule <;> rfl

/-- A change that leaves it open which elements are known leaves it open which rules are. -/
theorem isKnown_mapBody (known : ∀ b, (change b).isKnown = b.isKnown) (rule : Production φ ρ) :
    (rule.mapBody change).isKnown = rule.isKnown := by
  rw [isKnown, isKnown, body?_mapBody]
  cases rule.body? with
  | none => rfl
  | some b => exact known b

end MapBody

end Production
end GrammarChart
