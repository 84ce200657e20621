import GrammarChart.Proofs.Diagram.Compilation
import GrammarChart.Proofs.Diagram.Sketches

/-!
# Compiled rules are known

A document is given only for rules without elements of an unknown kind (`isKnown_of_result`): the
visit that writes a class block stops at such an element (`isKnown_of_classBlock`). Where words are
texts, a document is given for all other rules, and it is their diagram
(`result_compileRules_eq_ok`).
-/

set_option autoImplicit false

namespace GrammarChart.Model

variable {m : Model} {φ ρ : Type} {I : Interpretation φ ρ} {rule : NodeId}

/-- What is passed without a fault holds no element of an unknown kind. -/
theorem isKnown_of_passed {b : Phrase φ ρ} (whole : (b.passed []).fault = none) : b.isKnown := by
  rw [Phrase.passed, Emission.ofEach_fault_eq_none] at whole
  refine List.all_eq_true.mpr fun met mem => ?_
  have admitted := whole met mem
  obtain ⟨outer, b⟩ := met
  cases b <;> first | rfl | cases admitted

/-- The class block of a rule is written without a fault only when no element of the rule is of an
unknown kind. -/
theorem isKnown_of_classBlock {production : Production φ ρ} {id : NodeId}
    (h : production.StandsAt I m id) (nested : m.NestedBelow id)
    (whole : (m.classBlock (.node id)).fault = none) : production.isKnown := by
  unfold Production.isKnown
  cases hb : production.body? with
  | none => rfl
  | some b =>
    obtain ⟨body, drawn, meets⟩ := exists_meets_of_standsAt h nested hb
    rw [classBlock, drawn] at whole
    obtain ⟨start, -⟩ := Emission.append_fault_eq_none.mp whole
    obtain ⟨-, lines⟩ := Emission.append_fault_eq_none.mp start
    obtain ⟨-, visits⟩ := Emission.flatMap_fault_eq_none.mp lines
    exact isKnown_of_passed ((visits_of_meets meets).fault.symm.trans visits)

/-- When a document is given, all class blocks were written without a fault. -/
theorem classBlock_of_result {verbose : Bool} {rules : List Item} {writer : Writer} {text : String}
    (h : (m.compileRules verbose rules writer).result = .ok text) :
    ∀ item ∈ rules, (m.classBlock item).fault = none := by
  obtain ⟨whole, -⟩ := result_compileRules_eq_document.mp h
  rw [fragments_of_result h, fragments_quiet, Emission.append_fault_eq_none,
    Emission.ofEach_fault_eq_none] at whole
  exact whole.1

/-- When a document is given, no rule has an element of an unknown kind. -/
theorem isKnown_of_result {productions : List (Production φ ρ)} {ids : List NodeId}
    (stand : List.Forall₂ (fun production id => production.StandsAt I m id ∧ m.NestedBelow id)
      productions ids) {verbose : Bool} {writer : Writer} {text : String}
    (h : (m.compileRules verbose (ids.map .node) writer).result = .ok text) :
    ∀ production ∈ productions, production.isKnown := by
  intro production mem
  obtain ⟨i, bound, rfl⟩ := List.mem_iff_getElem.mp mem
  have bound' : i < ids.length := by rwa [← stand.length_eq]
  obtain ⟨stands, nested⟩ := stand.get bound bound'
  exact isKnown_of_classBlock stands nested
    (classBlock_of_result h _ (List.mem_map_of_mem (List.getElem_mem bound')))

/-- The result of a compilation is a document exactly when no element is of an unknown kind, and
then it is the diagram of the rules. -/
theorem result_compileRules_eq_ok {rules : List (Production String Target)} {ids : List NodeId}
    (stand : List.Forall₂ m.Draws rules ids) (verbose : Bool) (writer : Writer) (text : String) :
    (m.compileRules verbose (ids.map .node) writer).result = .ok text ↔
      (∀ rule ∈ rules, rule.isKnown) ∧ text = Production.diagram rules := by
  have drawn : (∀ rule ∈ rules, rule.isKnown) →
      (m.compileRules verbose (ids.map .node) writer).result = .ok (Production.diagram rules) := by
    intro known
    obtain ⟨whole, written⟩ := writes_compilationOutputs stand known verbose
    refine result_compileRules_eq_document.mpr ⟨whole, ?_⟩
    rw [Emission.fragments, written, Production.diagram, String.join_append, ← String.append_assoc]
    rfl
  constructor
  · intro given
    have known := isKnown_of_result stand given
    rw [drawn known] at given
    exact ⟨known, (Except.ok.inj given).symm⟩
  · rintro ⟨known, rfl⟩
    exact drawn known

end GrammarChart.Model
