import GrammarChart.Proofs.Document.Once

/-!
# References between files

Files are completed one after the other, and the references of a file are bound when it is completed
(`IsBoundAfter`). A reference to a rule of a file that was completed before is bound to that rule. A
file that was not completed before imports the completed one itself, directly or not, and references
to its rules stay unbound: an empty grammar stood for it. Where no file imports itself, directly or
not, every imported file is completed before the one that imports it, and all references to rules
that are there are bound (`Loader.references_of_loadFile`).
-/

set_option autoImplicit false

namespace GrammarChart

open FileTree (nameOf absolute)

/-- How the references of a file into other files are bound, when the given files were completed
before it. An address names the file that an import path with the same stem leads to. -/
structure IsBoundAfter (tree : FileTree) (m : Model) (before : List (Location × NodeId))
    (location : Location) (id : NodeId) : Prop where
  order : ∀ l, tree.Imports location l →
    l ∈ before.map Prod.fst ∨ Relation.ReflTransGen tree.Imports l location
  references : ∃ fields document imports leadsTo,
    Loader.readFile tree (absolute location) = .ok (.obj fields) ∧
    Document.ofFields fields = .ok document ∧ document.IsShownAt imports (.bound leadsTo) m id ∧
    ∀ path l name index target, tree.Names location path l → name ≠ "" → '#' ∉ name.toList →
      Imported.stemOf name = Imported.stemOf path →
      leadsTo (.str (outsideAddress name index)) = .ok target →
        (∀ g, (l, g) ∈ before → target = m.ruleAt? g index) ∧
          (l ∉ before.map Prod.fst → target = none)

namespace FileTree

variable {tree : FileTree}

/-- No two files have the same stem when all names at the ends of the listed locations differ. -/
theorem hasDistinctStems_of_nodup (h : (tree.entries.map fun entry => entry.1.getLast?).Nodup) :
    tree.HasDistinctStems := by
  intro stem location other content content' file file' last last'
  have same := List.inj_on_of_nodup_map h file file' (last.trans last'.symm)
  exact congrArg Prod.fst same

/-- An import path names one location. -/
theorem Names.unique {importer : Location} {path : String} {location other : Location}
    (h : tree.Names importer path location) (k : tree.Names importer path other) :
    location = other :=
  Except.ok.inj (h.leads.symm.trans k.leads)

end FileTree

/-- A grammar that shows nothing has no rules. -/
theorem View.ruleAt?_of_nothing {m : Model} {g : NodeId} (h : View.nothing.IsAt m g)
    (index : Nat) : m.ruleAt? g index = none := by
  obtain ⟨name, path, rules, interfaces, types, diagnostics, here, standing, -⟩ := h
  cases standing
  rw [Model.ruleAt?, here]
  simp

namespace Stage.IsAt

variable {tree : FileTree} {stage : Stage} {s : Loaded} {location : Location} {id : NodeId}
  {before : List (Location × NodeId)}

/-- Files that were completed have one grammar each. -/
theorem eq_of_completed (h : stage.IsAt tree s) {l : Location} {g g' : NodeId}
    (mem : (l, g) ∈ stage.completed) (mem' : (l, g') ∈ stage.completed) : g = g' :=
  h.eq_of_met (List.mem_append_right _ mem) (List.mem_append_right _ mem')

/-- The references of a completed file are bound after the files that were completed before. -/
theorem isBoundAfter (h : stage.IsAt tree s) (distinct : tree.HasDistinctStems)
    (suffix : ((location, id) :: before) <:+ stage.completed) :
    IsBoundAfter tree s.model before location id := by
  obtain ⟨fields, document, found, completed⟩ := h.each location id before suffix
  have earlier : ∀ entry ∈ before, entry ∈ stage.completed := fun entry mem =>
    suffix.subset (List.mem_cons_of_mem _ mem)
  constructor
  · rintro l ⟨path, names⟩
    obtain ⟨i, isFound⟩ := completed.all path l names
    obtain ⟨l', names', done | ⟨-, -, back⟩⟩ := completed.offered (path, i) isFound
    · exact .inl (List.mem_map.mpr ⟨_, done, names'.unique names⟩)
    · exact .inr (names'.unique names ▸ back)
  · obtain ⟨leadsTo, shown, leads, -⟩ := completed.leads
    refine ⟨fields, document, _, leadsTo, completed.read, completed.isDocument, shown, ?_⟩
    intro path l name index target names present whole sameStem led
    obtain ⟨i, isFound⟩ := completed.all path l names
    -- With distinct stems, the address names the grammar that was found for the import path.
    have named : Imported.named found name = some i := by
      rw [Imported.named, sameStem]
      exact (completed.apart distinct (path, i) isFound).2
    have bound := leads name index target present whole led
    rw [named, Option.bind_some] at bound
    obtain ⟨l', names', offered⟩ := completed.offered (path, i) isFound
    obtain rfl : l' = l := names'.unique names
    rcases offered with done | ⟨fresh, nothing, -⟩
    · refine ⟨fun g mem => ?_, fun absent => absurd (List.mem_map_of_mem done) absent⟩
      have same := h.eq_of_completed (earlier _ done) (earlier _ mem)
      exact bound.trans (congrArg (s.model.ruleAt? · index) same)
    · refine ⟨fun g mem => absurd (List.mem_map_of_mem mem) fresh, fun _ => ?_⟩
      have empty := h.displays.shown i (completed.inside (path, i) isFound)
      rw [nothing] at empty
      exact bound.trans (View.ruleAt?_of_nothing empty index)

end Stage.IsAt

namespace Loader

/-- When a file was loaded, all loaded files were completed in some order, the file itself last. A
reference to a rule of an imported file is bound to this rule, if there is one, when the imported
file was completed before, and is left unbound otherwise; then the imported file imports the other
one, directly or not. Where no file imports itself, directly or not, every imported file was
completed before. -/
theorem references_of_loadFile {tree : FileTree} (working : FileTree.IsProper tree.workingDirectory)
    (distinct : tree.HasDistinctStems) {text : String} {id : NodeId} {s : Loaded}
    (run : loadFile tree (.ofText text) ⟨.empty, []⟩ = .ok (id, s)) :
    ∃ completed : List (Location × NodeId), (completed.map Prod.fst).Nodup ∧
      (∃ location before, tree.resolve (.ofText text) = .ok location ∧
        completed = (location, id) :: before) ∧
      (∀ entry ∈ completed, ∃ grammar, s.model.grammar? entry.2 = some grammar ∧
        grammar.path = .value (.str (nameOf entry.1))) ∧
      ∀ location i before, ((location, i) :: before) <:+ completed →
        IsBoundAfter tree s.model before location i ∧
        (tree.IsAcyclic → ∀ l, tree.Imports location l → l ∈ before.map Prod.fst) := by
  obtain ⟨stage, location, before, isAt, resolved, -, last, -⟩ := exists_stage_of_loadFile
    (fun _ => working) (fun _ mem => FilePath.isName_of_mem_ofText mem) run
  have met : ∀ entry ∈ stage.completed, entry ∈ stage.met := fun entry mem =>
    List.mem_append_right _ mem
  refine ⟨stage.completed, ?_, ⟨location, before, resolved, last⟩, fun entry mem =>
    isAt.named entry (met entry mem), fun l i earlier suffix => ?_⟩
  · have apart := isAt.apart
    rw [Stage.met, List.map_append] at apart
    exact apart.of_append_right
  · have bound := isAt.isBoundAfter distinct suffix
    refine ⟨bound, fun acyclic other imports => (bound.order other imports).resolve_right ?_⟩
    intro back
    have proper := (isAt.files (l, i) (met _ (suffix.subset List.mem_cons_self))).1
    exact acyclic l proper (.head' imports back)

/-- Two files that import each other, the second one with a call of the rule of the first. -/
def mutualImports : FileTree where
  entries := [(["w"], .directory),
    fileNamed "a.json" ("\x7b\"imports\": [\"./b.langium\"], \"rules\": [\x7b\"$type\": " ++
      "\"TerminalRule\", \"name\": \"A\"\x7d]\x7d"),
    fileNamed "b.json" ("\x7b\"imports\": [\"./a.langium\"], \"rules\": [\x7b\"$type\": " ++
      "\"ParserRule\", \"name\": \"B\", \"definition\": \x7b\"$type\": \"RuleCall\", \"rule\": " ++
      "\x7b\"$ref\": \"a#/rules@0\"\x7d\x7d\x7d]\x7d")]
  workingDirectory := ["w"]

/-- The file that is entered first is completed last, after the one that it imports. -/
theorem references_of_loadFile_mutual : FileTree.IsProper mutualImports.workingDirectory ∧
    mutualImports.HasDistinctStems ∧ ∃ id s before,
      loadFile mutualImports (.ofText "a.json") ⟨.empty, []⟩ = .ok (id, s) ∧
      IsBoundAfter mutualImports s.model before ["w", "a.json"] id := by
  have working : FileTree.IsProper mutualImports.workingDirectory := by
    intro name mem
    obtain rfl := List.mem_singleton.mp mem
    exact ⟨⟨by decide, by decide, by decide⟩, by decide⟩
  have distinct : mutualImports.HasDistinctStems :=
    FileTree.hasDistinctStems_of_nodup (by decide)
  have given : (loadFile mutualImports (.ofText "a.json") ⟨.empty, []⟩).isOk = true := by
    decide +kernel
  have resolved : mutualImports.resolve (.ofText "a.json") = .ok ["w", "a.json"] := by rfl
  cases run : loadFile mutualImports (.ofText "a.json") ⟨.empty, []⟩ with
  | error fault =>
    rw [run] at given
    cases given
  | ok made =>
    obtain ⟨completed, -, ⟨location, before, at', rfl⟩, -, bound⟩ :=
      references_of_loadFile working distinct run
    obtain rfl : ["w", "a.json"] = location := Except.ok.inj (resolved.symm.trans at')
    exact ⟨working, distinct, made.1, made.2, before, rfl,
      (bound _ _ before (List.suffix_refl _)).1⟩

end Loader
end GrammarChart
