import GrammarChart.Proofs.Diagram.Omissions
import GrammarChart.Proofs.Document.Terms

/-!
# Dead references

What becomes of a document every part of which has the fields that are read, whatever the addresses
of its references are. It is loaded, unless an address has an index with too many digits, and it is
compiled to the diagram of its pruned rules: a reference that leads nowhere, or to an element of a
rule, is without effect but that the lines that need it are left out. There is one exception. When a
line needs the name of a type and the address of the type leads to an element, the compilation ends
in a fault (`dead_references_omit_lines`).
-/

set_option autoImplicit false

namespace GrammarChart

open Loader

/-- Attached documents of a form are resolved within its terms. -/
theorem Form.resolves_attachedImport {form : Form} {also : Fault → Prop} {attached : Fields}
    (documents : ∀ path value, attached.get? path = some value → value.IsDocument form)
    (depth : Nat) (path : String) :
    Resolves (form.terms also) (attachedImport attached (loadAttachedTo attached depth))
      (.str path) :=
  Loader.resolves_attachedImport (fun other value given =>
    keepsTo_loadAttachedTo
      (fun path value given => reads_of_isDocument also (documents path value given))
      depth (reads_of_isDocument also (documents other value given))) (.inl ⟨path, rfl⟩)

/-- A document of a form is loaded within the terms of the form when its imports are resolved so. -/
theorem Form.keepsTo_load {refers : String → Prop} {resolve : Resolver} {value : Json}
    (document : value.IsDocument ⟨False, refers⟩)
    (resolves : ∀ path : String,
      Resolves (Form.terms ⟨False, refers⟩ fun _ => False) resolve (.str path)) :
    KeepsTo (Form.terms ⟨False, refers⟩ fun _ => False) (load resolve value) := by
  refine Loader.keepsTo_load (reads_of_isDocument _ document) fun _ _ _ _ path _ _ admits => ?_
  rcases admits with ⟨text, rfl⟩ | ⟨⟨⟩, -⟩ | ⟨_, _, -, -, -, ⟨⟩⟩ | ⟨⟨⟩⟩
  exact resolves text

/-- References never keep a document from being drawn, but for two things. Every part of the
document has the fields that are read, with values of the right kinds, and so have all documents that
its imports are resolved to; the addresses of the references are any texts. Then the document is
loaded, unless one of the addresses has an index with too many digits, and its grammar is compiled:
to nothing when it has errors, and otherwise to the diagram of the pruned rules, from which the lines
that need a dead reference are left out and nothing else; unless some line needs the name of a type
and the type leads to an element, which is a fault. -/
theorem dead_references_omit_lines {refers : String → Prop} {resolve : Resolver} {value : Json}
    (document : value.IsDocument ⟨False, refers⟩)
    (resolves : ∀ path : String,
      Resolves (Form.terms ⟨False, refers⟩ fun _ => False) resolve (.str path)) :
    (∃ fault, run (load resolve value) = .error fault ∧ fault.IsOverlong refers) ∨
    ∃ m id, run (load resolve value) = .ok (m, id) ∧ ∀ withImports : Bool,
      ∃ errors rules sketches text, m.hasErrors (.node id) = .ok errors ∧
        m.collectRules id withImports = .ok rules ∧ Sketch.AllStandAt sketches m rules ∧
        Sketch.diagram (sketches.map Sketch.pruned) = .ok text ∧
        ∀ (verbose : Bool) (writer : Writer), (m.compileGrammar verbose withImports id writer).result =
          if errors then .ok none
          else if sketches.any Sketch.asks then .error .noField else .ok (some text) := by
  have ends := (Form.keepsTo_load document resolves).ends_run
  cases loaded : run (load resolve value) with
  | error fault =>
    obtain ⟨⟨⟩, -⟩ | overlong | ⟨⟨⟩⟩ := ends.of_eq_error loaded
    exact .inl ⟨fault, rfl, overlong⟩
  | ok made =>
    obtain ⟨m, id⟩ := made
    obtain ⟨grammars, views, displays, typed, own⟩ := ends.of_eq_ok loaded
    exact .inr ⟨m, id, rfl, fun withImports => displays.exists_diagram typed own withImports⟩

/-- A document with one rule. -/
def boxLibrary : Json := .obj [("rules", .arr [.obj [("$type", .str "ParserRule"),
  ("name", .str "Item"), ("definition", .obj [("$type", .str "Keyword")])]])]

/-- An element that refers to an address by the given field. -/
def boxReference (kind key address : String) : Json :=
  .obj [("$type", .str kind), (key, .obj [("$ref", .str address)])]

/-- A document that imports the other one. It assigns a rule of that, and refers to a rule that is
missing, to a type that is missing, and by an address that is no address. -/
def boxDocument : Json := .obj [("imports", .arr [.obj [("path", .str "./lib.langium")]]),
  ("rules", .arr [.obj [("$type", .str "ParserRule"), ("name", .str "Box"),
    ("definition", .obj [("$type", .str "Group"), ("elements", .arr [
      .obj [("$type", .str "Assignment"), ("feature", .str "items"), ("operator", .str "+="),
        ("terminal", boxReference "RuleCall" "rule" "lib.langium#/rules@0")],
      boxReference "RuleCall" "rule" "#/rules@7",
      boxReference "CrossReference" "type" "far.langium#/types@0",
      boxReference "Action" "type" "?"])])]])]

/-- The document that is attached to that one. -/
def boxAttached : Fields := [("./lib.langium", boxLibrary)]

/-- Both documents have the fields that are read. -/
theorem isDocument_box {form : Form} (all : ∀ address, form.refers address) :
    boxLibrary.IsDocument form ∧ boxDocument.IsDocument form := by
  have missing : ∀ {fields : Fields} {key : String} {good : Json → Prop},
      fields.getD key (.arr []) = .arr [] → fields.Lists key good :=
    fun given => ⟨[], given, fun _ mem => absurd mem List.not_mem_nil⟩
  have reference : ∀ address, (Json.obj [("$ref", .str address)]).IsReference form :=
    fun address => .inr ⟨_, rfl, address, rfl, all address⟩
  have keyword : (Json.obj [("$type", .str "Keyword")]).IsElement form := .keyword rfl
  have call : ∀ address, (boxReference "RuleCall" "rule" address).IsElement form :=
    fun address => .ruleCall rfl (reference address)
  have crossReference : (boxReference "CrossReference" "type" "far.langium#/types@0").IsElement
      form := .crossReference rfl (reference _) fun _ given => by cases given
  have action : (boxReference "Action" "type" "?").IsElement form :=
    .action rfl (reference _) fun present => by cases present
  constructor
  · refine ⟨_, rfl, .inr rfl, missing rfl, ⟨_, rfl, ?_⟩, missing rfl, missing rfl, missing rfl⟩
    exact List.forall_mem_singleton.mpr (.parser rfl rfl fun _ => keyword)
  · refine ⟨_, rfl, .inr rfl, ⟨_, rfl, ?_⟩, ⟨_, rfl, ?_⟩, missing rfl, missing rfl, missing rfl⟩
    · refine List.forall_mem_singleton.mpr fun fields same present => ?_
      cases same
      exact ⟨_, rfl⟩
    · refine List.forall_mem_singleton.mpr (.parser rfl rfl fun _ => ?_)
      have isGroup : "Group" ∈ Json.compoundKinds := by decide
      refine .compound isGroup rfl rfl ?_
      simp only [List.forall_mem_cons]
      exact ⟨.assignment rfl rfl rfl (call _), call _, crossReference, action, fun _ mem =>
        absurd mem List.not_mem_nil⟩

/-- The diagram of that document. -/
def boxDiagram : String :=
  "@startuml\nclass Box \x7b\n\x7d\nBox \"1..*\" *-- \"items\" Item\n@enduml\n"

/-- The one line that needs nothing dead is drawn. -/
theorem dead_references_omit_lines_box :
    boxDocument.IsDocument ⟨False, fun _ => True⟩ ∧
      ∃ m id rules sketches, run (load (attachedImport boxAttached (loadAttachedTo boxAttached 1))
          boxDocument) = .ok (m, id) ∧
        m.collectRules id false = .ok rules ∧ Sketch.AllStandAt sketches m rules ∧
        Sketch.diagram (sketches.map Sketch.pruned) = .ok boxDiagram ∧
        (m.compileGrammar true false id .idle).result = .ok (some boxDiagram) := by
  have documents := @isDocument_box ⟨False, fun _ => True⟩ fun _ => trivial
  have attached : ∀ path value, Fields.get? boxAttached path = some value →
      value.IsDocument ⟨False, fun _ => True⟩ := by
    intro path value given
    simp only [boxAttached, Fields.get?] at given
    split at given
    · cases given
      exact documents.1
    · cases given
  have outcome : (run (load (attachedImport boxAttached (loadAttachedTo boxAttached 1))
      boxDocument)).toOption.map (fun made =>
        (made.1.compileGrammar true false made.2 .idle).result.toOption) =
          some (some (some boxDiagram)) := by
    decide +kernel
  refine ⟨documents.2, ?_⟩
  obtain ⟨fault, stopped, -⟩ | ⟨m, id, loaded, compiled⟩ := dead_references_omit_lines documents.2
    fun path => Form.resolves_attachedImport attached 1 path
  · rw [stopped] at outcome
    cases outcome
  · rw [loaded] at outcome
    have drawn : (m.compileGrammar true false id .idle).result = .ok (some boxDiagram) := by
      cases result : (m.compileGrammar true false id .idle).result with
      | error fault => simp [Except.toOption, result] at outcome
      | ok made => simpa [Except.toOption, result] using outcome
    obtain ⟨errors, rules, sketches, text, -, collected, stand, pruned, ends⟩ := compiled false
    refine ⟨m, id, rules, sketches, loaded, collected, stand, ?_, drawn⟩
    have same := (ends true .idle).symm.trans drawn
    split at same
    · cases same
    · split at same
      · cases same
      · cases same
        exact pruned

end GrammarChart
