import GrammarChart.Diagram.Compilation
import GrammarChart.Proofs.Emissions

/-!
# Results of a compilation

A compilation puts out notes and fragments, and only the fragments are written. They are the class
blocks of the rules and then their relationship lines, up to the first fault
(`Model.fragments_compilationOutputs_eq`), which may be that a name cannot be noted. Result and
writer depend on the fragments alone (`Model.result_compileRules_eq_joined`,
`Model.text_compileRules_eq_fragments`), so what is compiled with notes is compiled without them
(`Model.result_compileRules_quiet`).
-/

set_option autoImplicit false

namespace GrammarChart

namespace Emission

/-- The texts of an emission in a row, or the fault that stopped it. -/
def joined (e : Emission String) : Except Fault String :=
  e.fault.elim (.ok (String.join e.items)) .error

/-- The texts of two emissions are the texts of the one and then of the other. -/
theorem joined_append (first second : Emission String) :
    (first.append second).joined = do
      let text ← first.joined
      let more ← second.joined
      return text ++ more := by
  obtain ⟨items, fault⟩ := first
  obtain ⟨items', fault'⟩ := second
  cases fault with
  | some fault => rfl
  | none =>
    cases fault' with
    | some fault' => rfl
    | none => exact congrArg Except.ok String.join_append

/-- The texts of an emission are put in a row when it has no fault. -/
theorem joined_eq_ok {e : Emission String} {text : String} :
    e.joined = .ok text ↔ e.fault = none ∧ String.join e.items = text := by
  unfold joined
  cases e.fault <;> simp

/-- The fragments of outputs, up to the fault that stopped them. -/
def fragments (e : Emission Output) : Emission String :=
  ⟨e.items.filterMap Output.fragment?, e.fault⟩

/-- The fragments of outputs in a row are those of the one and then of the other. -/
theorem fragments_append (first second : Emission Output) :
    (first.append second).fragments = first.fragments.append second.fragments := by
  obtain ⟨items, fault⟩ := first
  cases fault with
  | some fault => rfl
  | none => exact congrArg (Emission.mk · second.fault) List.filterMap_append

/-- The fragments of a pass over a list are those of the items in a row. -/
theorem fragments_ofEach {α : Type} (produce : α → Emission Output) (xs : List α) :
    (ofEach produce xs).fragments = ofEach (fun x => (produce x).fragments) xs := by
  induction xs with
  | nil => rfl
  | cons x rest ih => rw [ofEach, fragments_append, ih, ofEach]

/-- What is written as fragments are its fragments. -/
theorem fragments_asFragments (e : Emission String) : (Model.asFragments e).fragments = e := by
  obtain ⟨items, fault⟩ := e
  have same : (items.map Output.fragment).filterMap Output.fragment? = items := by
    rw [List.filterMap_map]
    exact List.filterMap_some
  exact congrArg (Emission.mk · fault) same

end Emission

namespace Model

variable {m : Model} {rules : List Item}

/-- The rule has a text as its name. -/
def HasName (m : Model) (rule : Item) : Prop :=
  ∃ name : String, m.nameOf rule = .ok (.value (.str name))

/-- Nodes that go together with what gives them texts as names have them. -/
theorem hasName_of_forall₂ {α : Type} {R : α → NodeId → Prop} {xs : List α} {ids : List NodeId}
    (named : ∀ x ∈ xs, ∀ id, R x id → m.HasName (.node id)) (together : List.Forall₂ R xs ids) :
    ∀ item ∈ ids.map Item.node, m.HasName item := by
  induction together with
  | nil => simp
  | cons head _ ih =>
    rw [List.forall_mem_cons] at named
    rw [List.map_cons, List.forall_mem_cons]
    exact ⟨named.1 _ head, ih named.2⟩

/-- The note on the rules is no fragment. -/
theorem items_rulesNote (m : Model) (rules : List Item) :
    (m.rulesNote rules).fragments.items = [] := by
  unfold rulesNote
  cases rules.mapM m.nameOf with
  | error fault => rfl
  | ok names => cases written : names.mapM Item.text? <;> simp [written] <;> rfl

/-- Naming rules that have texts as names is a note and no fault. -/
theorem fragments_rulesNote (named : ∀ rule ∈ rules, m.HasName rule) :
    (m.rulesNote rules).fragments = .nothing := by
  have listed : ∃ texts : List String,
      rules.mapM m.nameOf = .ok (texts.map fun text => .value (.str text)) := by
    induction rules with
    | nil => exact ⟨[], rfl⟩
    | cons rule rest ih =>
      obtain ⟨⟨name, here⟩, others⟩ := List.forall_mem_cons.mp named
      obtain ⟨texts, later⟩ := ih others
      exact ⟨name :: texts, by rw [List.mapM_cons, here, later]; rfl⟩
  obtain ⟨texts, listed⟩ := listed
  have written : (texts.map fun text => Item.value (.str text)).mapM Item.text? = some texts := by
    clear listed
    induction texts with
    | nil => rfl
    | cons text rest ih => simp [ih, Item.text?, Item.value?, Json.text?]
  rw [rulesNote, listed, ok_bind, written]
  rfl

/-- The note on a class is no fragment and no fault. -/
theorem fragments_classNote (m : Model) (rule : Item) :
    (m.classNote rule).fragments = .nothing := by
  unfold classNote
  split <;> rfl

/-- A compilation writes the class blocks and the relationship lines of its rules, unless notes are
taken and naming the rules stops it. -/
theorem fragments_compilationOutputs_eq (m : Model) (verbose : Bool) (rules : List Item) :
    (m.compilationOutputs verbose rules).fragments =
      (if verbose then m.rulesNote rules else .nothing).fragments.append
        ((Emission.ofEach m.classBlock rules).append
          (Emission.ofEach m.relationshipLines rules)) := by
  have block : ∀ rule, ((asFragments (m.classBlock rule)).append
      (if verbose then m.classNote rule else .nothing)).fragments = m.classBlock rule := by
    intro rule
    have told : (if verbose then m.classNote rule else .nothing).fragments = .nothing := by
      cases verbose with
      | true => exact m.fragments_classNote rule
      | false => rfl
    rw [Emission.fragments_append, told, Emission.fragments_asFragments, Emission.append_nothing]
  rw [compilationOutputs, Emission.fragments_append, Emission.fragments_append,
    Emission.fragments_ofEach, Emission.fragments_ofEach]
  simp only [block, Emission.fragments_asFragments]

/-- Without notes, a compilation writes the class blocks and the relationship lines of its rules. -/
theorem fragments_quiet (m : Model) (rules : List Item) :
    (m.compilationOutputs false rules).fragments =
      (Emission.ofEach m.classBlock rules).append (Emission.ofEach m.relationshipLines rules) :=
  (m.fragments_compilationOutputs_eq false rules).trans (Emission.nothing_append _)

/-- A compilation writes the class blocks and the relationship lines of rules that have texts as
names, with notes or without. -/
theorem fragments_compilationOutputs (named : ∀ rule ∈ rules, m.HasName rule) (verbose : Bool) :
    (m.compilationOutputs verbose rules).fragments =
      (Emission.ofEach m.classBlock rules).append (Emission.ofEach m.relationshipLines rules) := by
  have told : (if verbose then m.rulesNote rules else .nothing).fragments = .nothing := by
    cases verbose with
    | true => exact fragments_rulesNote named
    | false => rfl
  rw [fragments_compilationOutputs_eq, told, Emission.nothing_append]

/-- Rules are compiled to the fragments that are written for them. -/
theorem result_compileRules_eq_joined (m : Model) (verbose : Bool) (rules : List Item)
    (writer : Writer) : (m.compileRules verbose rules writer).result = do
      let text ← (m.compilationOutputs verbose rules).fragments.joined
      return Writer.opening ++ text ++ Writer.closing := by
  simp only [compileRules, Writer.reset, Writer.appendAll_writing, Option.none_or,
    Emission.joined, Emission.fragments]
  cases (m.compilationOutputs verbose rules).fault with
  | some fault => rfl
  | none =>
    simp only [Writer.finish, Writer.text, List.nil_append, Writer.joined_texts]
    rfl

/-- The writer holds the fragments of a compilation, and it is closed unless there is a fault. -/
theorem text_compileRules_eq_fragments (verbose : Bool) (given : List Item) (writer : Writer) :
    (m.compileRules verbose given writer).writer.text = .ok (Writer.opening ++
      String.join (m.compilationOutputs verbose given).fragments.items ++
      (m.compilationOutputs verbose given).fragments.fault.elim Writer.closing fun _ => "") := by
  simp only [compileRules, Writer.reset, Writer.appendAll_writing, Option.none_or,
    Emission.fragments]
  cases (m.compilationOutputs verbose given).fault with
  | some fault =>
    simp only [Writer.text, List.nil_append, Writer.joined_texts, Option.elim_some,
      String.append_empty]
    rfl
  | none =>
    simp only [Writer.finish, Writer.text, List.nil_append, Writer.joined_texts]
    rfl

section Document

variable {verbose : Bool} {writer : Writer} {text : String}

/-- A compilation has a document when it has no fault, and the document is its fragments between the
opening and the closing line. -/
theorem result_compileRules_eq_document :
    (m.compileRules verbose rules writer).result = .ok text ↔
      (m.compilationOutputs verbose rules).fragments.fault = none ∧
        Writer.opening ++ String.join (m.compilationOutputs verbose rules).fragments.items ++
          Writer.closing = text := by
  rw [result_compileRules_eq_joined, bind_eq_ok]
  simp only [Emission.joined_eq_ok]
  constructor
  · rintro ⟨_, ⟨whole, rfl⟩, ⟨⟩⟩
    exact ⟨whole, rfl⟩
  · rintro ⟨whole, rfl⟩
    exact ⟨_, ⟨whole, rfl⟩, rfl⟩

/-- The writer holds the document that a compilation gives. -/
theorem text_of_result_compileRules (h : (m.compileRules verbose rules writer).result = .ok text) :
    (m.compileRules verbose rules writer).writer.text = .ok text := by
  obtain ⟨whole, rfl⟩ := result_compileRules_eq_document.mp h
  rw [text_compileRules_eq_fragments, whole]
  rfl

/-- What a compilation with a document writes is what it writes without notes. -/
theorem fragments_of_result (h : (m.compileRules verbose rules writer).result = .ok text) :
    (m.compilationOutputs verbose rules).fragments =
      (m.compilationOutputs false rules).fragments := by
  obtain ⟨whole, -⟩ := result_compileRules_eq_document.mp h
  cases verbose with
  | false => rfl
  | true =>
    rw [fragments_compilationOutputs_eq, Emission.append_fault_eq_none] at whole
    have noted : (m.rulesNote rules).fragments.fault = none := whole.1
    have note : (m.rulesNote rules).fragments = .nothing := by
      rw [Emission.eq_ofList noted, items_rulesNote]
      rfl
    rw [fragments_quiet, fragments_compilationOutputs_eq, if_pos rfl, note, Emission.nothing_append]

/-- A document that is written with notes is written without them. -/
theorem result_compileRules_quiet (h : (m.compileRules verbose rules writer).result = .ok text) :
    (m.compileRules false rules writer).result = .ok text := by
  rw [result_compileRules_eq_document, ← fragments_of_result h]
  exact result_compileRules_eq_document.mp h

end Document

end Model
end GrammarChart
