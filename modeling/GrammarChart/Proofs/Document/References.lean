import Mathlib
import GrammarChart.Document.Planting

/-!
# References of documents

The references of a document in order (`Rule.references`). Planting the document notes exactly the
addresses of these for binding, in this order (`Document.addresses_plant`).
-/

set_option autoImplicit false

namespace GrammarChart

mutual

/-- The references of an element in order. -/
def Element.references : Element → List Reference
  | .keyword _ _ => []
  | .ruleCall rule _ => [rule]
  | .crossReference type none _ => [type]
  | .crossReference type (some terminal) _ => type :: terminal.references
  | .assignment _ _ terminal _ => terminal.references
  | .alternatives elements _ => Element.allReferences elements
  | .group elements _ => Element.allReferences elements
  | .action type _ _ _ _ => type.toList

/-- The references of elements in order. -/
def Element.allReferences : List Element → List Reference
  | [] => []
  | element :: rest => element.references ++ Element.allReferences rest

end

/-- The references of a rule in order. -/
def Rule.references : Rule → List Reference
  | .parser _ (some definition) _ _ _ => definition.references
  | _ => []

/-- The addresses that a planting has noted for binding. -/
def Planting.addresses (p : Planting) : List Json :=
  p.pending.map Prod.snd

/-- A reference is noted with its address. -/
theorem Planting.addresses_link (p : Planting) (reference : Reference) :
    (p.link reference).1.addresses = p.addresses ++ reference.address.toList := by
  show (p.pending ++ _).map Prod.snd = _
  rw [List.map_append]
  cases reference.address <;> rfl

mutual

/-- The references of an element are noted in order. -/
theorem Element.addresses_plant (position : Position) (p : Planting) : ∀ e : Element,
    (e.plant position p).1.addresses = p.addresses ++ e.references.filterMap Reference.address
  | .keyword _ _ => (List.append_nil _).symm
  | .ruleCall rule _ => by
    rw [Element.references, List.filterMap_cons, List.filterMap_nil]
    refine (p.addresses_link rule).trans ?_
    cases rule.address <;> rfl
  | .crossReference type none _ => by
    rw [Element.references, List.filterMap_cons, List.filterMap_nil]
    refine (p.addresses_link type).trans ?_
    cases type.address <;> rfl
  | .crossReference type (some terminal) _ => by
    have below := Element.addresses_plant (position ++ [.field "terminal"]) (p.link type).1 terminal
    rw [Element.references, List.filterMap_cons]
    refine below.trans ?_
    rw [p.addresses_link type, List.append_assoc]
    cases type.address <;> rfl
  | .assignment _ _ terminal _ =>
    Element.addresses_plant (position ++ [.field "terminal"]) p terminal
  | .alternatives elements _ => Element.addresses_plantAll position 0 p elements
  | .group elements _ => Element.addresses_plantAll position 0 p elements
  | .action none _ _ _ _ => (List.append_nil _).symm
  | .action (some type) _ _ _ _ => by
    rw [Element.references, Option.toList_some, List.filterMap_cons, List.filterMap_nil]
    refine (p.addresses_link type).trans ?_
    cases type.address <;> rfl

/-- The references of elements are noted in order. -/
theorem Element.addresses_plantAll (position : Position) (index : Nat) (p : Planting) :
    ∀ elements : List Element, (Element.plantAll position index p elements).1.addresses =
      p.addresses ++ (Element.allReferences elements).filterMap Reference.address
  | [] => (List.append_nil _).symm
  | element :: rest => by
    have head := Element.addresses_plant (position ++ [.field "elements", .item index]) p element
    have tail := Element.addresses_plantAll position (index + 1)
      (element.plant (position ++ [.field "elements", .item index]) p).1 rest
    rw [Element.allReferences, List.filterMap_append, ← List.append_assoc, ← head]
    exact tail

end

/-- The references of a rule are noted in order. -/
theorem Rule.addresses_plant (position : Position) (p : Planting) (rule : Rule) :
    (rule.plant position p).1.addresses =
      p.addresses ++ rule.references.filterMap Reference.address := by
  cases rule with
  | terminal name regex hidden fragment => exact (List.append_nil _).symm
  | parser name definition inferredType entry fragment =>
    cases definition with
    | none => exact (List.append_nil _).symm
    | some definition => exact definition.addresses_plant (position ++ [.field "definition"]) p

/-- What the items of a list note is noted in order. -/
theorem Planting.addresses_each {α : Type} {plant : Position → Planting → α → Planting × NodeId}
    {references : α → List Reference}
    (noted : ∀ position (p : Planting) a, (plant position p a).1.addresses =
      p.addresses ++ (references a).filterMap Reference.address) (field : String) :
    ∀ (list : List α) (index : Nat) (p : Planting),
      (Planting.each plant field index p list).1.addresses =
        p.addresses ++ (list.flatMap references).filterMap Reference.address := by
  intro list
  induction list with
  | nil => exact fun index p => (List.append_nil _).symm
  | cons a rest ih =>
    intro index p
    have tail := ih (index + 1) (plant [.field field, .item index] p a).1
    rw [List.flatMap_cons, List.filterMap_append, ← List.append_assoc, ← noted _ p a]
    exact tail

/-- The references of a document are noted in the order of its rules. -/
theorem Document.addresses_plant (document : Document) (model : Model) (imports : List NodeId) :
    (document.plant model imports).1.addresses =
      (document.rules.flatMap Rule.references).filterMap Reference.address := by
  have rules := Planting.addresses_each Rule.addresses_plant "rules" document.rules 0
    ⟨model, [], []⟩
  have none : ∀ position (p : Planting) (d : Declaration), (d.plant position p).1.addresses =
      p.addresses ++ ([] : List Reference).filterMap Reference.address :=
    fun _ _ _ => (List.append_nil _).symm
  have interfaces := Planting.addresses_each none "interfaces" document.interfaces 0
    (Planting.each Rule.plant "rules" 0 ⟨model, [], []⟩ document.rules).1
  have types := Planting.addresses_each none "types" document.types 0
    (Planting.each Declaration.plant "interfaces" 0
      (Planting.each Rule.plant "rules" 0 ⟨model, [], []⟩ document.rules).1 document.interfaces).1
  refine types.trans ?_
  rw [interfaces, rules]
  simp [Planting.addresses]

end GrammarChart
