import GrammarChart.Proofs.Diagram.Collected
import GrammarChart.Proofs.Document.Progress

/-!
# Loading once

Whatever documents import each other, loading them ends and reads each of them at most once, and
where no file imports itself, directly or not, no two of the grammars that are reached come from the
same file (`Loader.reads_once`).
-/

set_option autoImplicit false

namespace GrammarChart

open FileTree (nameOf absolute)

/-- No file imports itself, directly or by way of other files. -/
def FileTree.IsAcyclic (tree : FileTree) : Prop :=
  ∀ location, IsProper location → ¬ Relation.TransGen tree.Imports location location

namespace FileTree

variable {tree : FileTree}

/-- A location that a file imports is found among those that it imports as far as it can be read. -/
theorem mem_importLocations {importer location : Location} (h : tree.Imports importer location) :
    location ∈ Loader.importLocations tree importer := by
  obtain ⟨path, ⟨fields, paths, read, listed, mem, -⟩, leads, -⟩ := h
  rw [Loader.importLocations, read]
  simp only [ok_bind, Json.fields, listed]
  refine List.mem_filterMap.mpr ⟨.str path, mem, ?_⟩
  simp [Json.text?, leads]

/-- A tree is acyclic when files only import files of a lower rank. -/
theorem isAcyclic_of_rank (rank : Location → Nat) (lower : ∀ entry ∈ tree.entries,
    ∀ location ∈ Loader.importLocations tree entry.1, rank location < rank entry.1) :
    tree.IsAcyclic := by
  have step : ∀ {importer location}, IsProper importer → tree.Imports importer location →
      IsProper location ∧ rank location < rank importer := by
    intro importer location proper imports
    obtain ⟨path, ⟨fields, paths, read, -⟩, leads, -⟩ := id imports
    obtain ⟨text, readText, -⟩ := bind_eq_ok.mp read
    obtain ⟨content, mem⟩ := mem_of_readText proper readText
    exact ⟨Loader.isProper_importLocation proper leads,
      lower _ mem location (mem_importLocations imports)⟩
  intro location proper cycle
  have below : ∀ other, Relation.TransGen tree.Imports location other →
      IsProper other ∧ rank other < rank location := by
    intro other path
    induction path with
    | single imports => exact step proper imports
    | tail _ imports ih =>
      obtain ⟨further, less⟩ := step ih.1 imports
      exact ⟨further, less.trans ih.2⟩
  exact absurd (below location cycle).2 (Nat.lt_irrefl _)

end FileTree

/-- Where a grammar comes from. -/
def Model.pathOf? (m : Model) (id : NodeId) : Option Item :=
  (m.grammar? id).map Grammar.path

namespace Stage.IsAt

variable {tree : FileTree} {stage : Stage} {s : Loaded}

/-- Where no file imports itself, directly or not, the grammar of a completed file imports grammars
of completed files only. -/
theorem exists_completed_of_imports (h : stage.IsAt tree s) (acyclic : tree.IsAcyclic)
    {entry : Location × NodeId} (mem : entry ∈ stage.completed) {i : NodeId}
    (direct : i ∈ (stage.views entry.2).imports) : ∃ l, (l, i) ∈ stage.completed := by
  obtain ⟨location, id⟩ := entry
  obtain ⟨after, before, split⟩ := List.append_of_mem mem
  have suffix : ((location, id) :: before) <:+ stage.completed := ⟨after, split.symm⟩
  obtain ⟨fields, document, found, completed⟩ := h.each location id before suffix
  rw [completed.view] at direct
  obtain ⟨there, isFound, rfl⟩ := Imported.exists_found direct
  obtain ⟨l, names, done | ⟨-, -, back⟩⟩ := completed.offered there isFound
  · exact ⟨l, suffix.subset (List.mem_cons_of_mem _ done)⟩
  · have proper := (h.files (location, id) (List.mem_append_right _ mem)).1
    exact absurd (Relation.TransGen.head' ⟨_, names⟩ back) (acyclic location proper)

/-- Where no file imports itself, directly or not, the grammar of a completed file reaches grammars
of completed files, and no two of them come from the same file. -/
theorem exists_reachable (h : stage.IsAt tree s) (acyclic : tree.IsAcyclic) {location : Location}
    {id : NodeId} (mem : (location, id) ∈ stage.completed) :
    ∃ reached, s.model.reachable id = .ok reached ∧
      ((id :: reached).map s.model.pathOf?).Nodup := by
  have met : ∀ {entry : Location × NodeId}, entry ∈ stage.completed → entry ∈ stage.met :=
    fun mem => List.mem_append_right _ mem
  have closed : ∀ g ∈ stage.completed.map Prod.snd, ∃ imports : List NodeId,
      s.model.importsOf g = .ok (imports.map .node) ∧
        ∀ i ∈ imports, i ∈ stage.completed.map Prod.snd := by
    intro g mem
    obtain ⟨entry, done, rfl⟩ := List.mem_map.mp mem
    refine ⟨_, (h.displays.shown _ (h.inside entry (met done))).importsOf, fun i direct => ?_⟩
    obtain ⟨l, there⟩ := h.exists_completed_of_imports acyclic done direct
    exact List.mem_map_of_mem there
  have own : id ∈ stage.completed.map Prod.snd := List.mem_map_of_mem mem
  obtain ⟨imports, asked, direct⟩ := closed id own
  have inside : ∀ item ∈ imports.map Item.node, ∃ g ∈ stage.completed.map Prod.snd,
      item = .node g := by
    intro item mem
    obtain ⟨i, imported, rfl⟩ := List.mem_map.mp mem
    exact ⟨i, direct i imported, rfl⟩
  obtain ⟨reached, searched, known⟩ := @Model.exists_reachFrom _ _ closed [id] _ inside
  have found : s.model.reachable id = .ok reached := by
    rw [Model.reachable, asked, ok_bind, searched]
  refine ⟨reached, found, (Model.nodup_reachable found).map_on fun g inG g' inG' same => ?_⟩
  have completed : ∀ g ∈ id :: reached, ∃ l, (l, g) ∈ stage.completed := by
    intro g mem
    obtain ⟨⟨l, _⟩, done, rfl⟩ := List.mem_map.mp (List.forall_mem_cons.mpr ⟨own, known⟩ g mem)
    exact ⟨l, done⟩
  -- Grammars from the same path come from the same file, which has one grammar.
  obtain ⟨l, done⟩ := completed g inG
  obtain ⟨l', done'⟩ := completed g' inG'
  obtain ⟨grammar, here, path⟩ := h.named _ (met done)
  obtain ⟨grammar', here', path'⟩ := h.named _ (met done')
  rw [Model.pathOf?, Model.pathOf?, here, here', Option.map_some, Option.map_some, path, path',
    Option.some.injEq, Item.value.injEq, Json.str.injEq] at same
  obtain rfl := FileTree.eq_of_text_eq (h.files _ (met done)).1 (h.files _ (met done')).1 same
  exact h.eq_of_met (met done) (met done')

end Stage.IsAt

namespace Loader

/-- Loading ends and loads once. The depth that the loaders go down to is not reached, whatever is
done there, so they load every document with the imports that they load themselves. No file is
opened twice, and where no file imports itself, directly or not, all grammars that are reached from a
loaded one come from different files. No attached document is loaded twice, and from the first time
on that the imports of a path are answered with a grammar, they are answered with this grammar. -/
theorem reads_once {tree : FileTree} (working : FileTree.IsProper tree.workingDirectory)
    (text : String) (attached : Fields) (value : Json) :
    ((∀ (bottom : Location → Loader NodeId) (depth : Nat) (location : Location) (s : Loaded),
        tree.entries.length < depth → tree.resolve (.ofText text) = .ok location →
        loadFileFrom tree bottom depth location s =
          loadFileTo tree (tree.entries.length + 1) location s) ∧
      (Traced.loadFile tree (.ofText text)).loader = loadFile tree (.ofText text) ∧
      ((Traced.loadFile tree (.ofText text)).namesRead ⟨.empty, []⟩).Nodup ∧
      (tree.IsAcyclic → ∀ id s, loadFile tree (.ofText text) ⟨.empty, []⟩ = .ok (id, s) →
        ∃ reached, s.model.reachable id = .ok reached ∧
          ((id :: reached).map s.model.pathOf?).Nodup)) ∧
    (∀ (bottom : Json → Loader NodeId) (depth : Nat) (s : Loaded), attached.length < depth →
        loadAttachedFrom attached bottom depth value s = loadAttached attached value s) ∧
      (Traced.loadAttached attached value).loader = loadAttached attached value ∧
      ((Traced.loadAttached attached value).namesRead ⟨.empty, []⟩).Nodup ∧
      ((Traced.loadAttached attached value).answers ⟨.empty, []⟩).Pairwise fun earlier later =>
        earlier.1 = later.1 → ∀ id, earlier.2 = some id → later.2 = some id := by
  have proper : ∀ {location}, tree.resolve (.ofText text) = .ok location →
      FileTree.IsProper location := fun resolved =>
    FileTree.isProper_resolve (fun _ => working) (fun _ mem => FilePath.isName_of_mem_ofText mem)
      resolved
  have steady := Traced.isSteady_loadAttachedTo attached (attached.length + 1) value ⟨.empty, []⟩
  refine ⟨⟨fun bottom depth location s deep resolved => ?_, ?_, ?_, fun acyclic id s run => ?_⟩,
    fun bottom depth s deep => ?_, ?_, steady.distinct, steady.steady⟩
  · exact loadFileFrom_eq bottom deep (proper resolved) s
  · exact Traced.loader_loadFile tree _
  · exact (Traced.isFresh_loadFile tree _).distinct
  · obtain ⟨stage, location, before, isAt, -, -, last, -⟩ := exists_stage_of_loadFile
      (fun _ => working) (fun _ mem => FilePath.isName_of_mem_ofText mem) run
    have own : (location, id) ∈ stage.completed := last ▸ List.mem_cons_self
    exact isAt.exists_reachable acyclic own
  · exact loadAttachedFrom_eq bottom deep value s
  · exact Traced.loader_loadAttachedTo attached _ value

/-- A file with the given text in the directory of a test. -/
def fileNamed (name text : String) : Location × Entry := (["w", name], .file (.plain text))

/-- A file that imports two files, which both import a fourth one. -/
def diamond : FileTree where
  entries := [(["w"], .directory),
    fileNamed "root.json" "\x7b\"imports\": [\"./left.langium\", \"./right.langium\"]\x7d",
    fileNamed "left.json" "\x7b\"imports\": [\"./leaf.langium\"]\x7d",
    fileNamed "right.json" "\x7b\"imports\": [\"./leaf.langium\"]\x7d",
    fileNamed "leaf.json" "\x7b\x7d"]
  workingDirectory := ["w"]

/-- Two attached documents that import each other and themselves. -/
def circle : Fields :=
  [("p", .obj [("imports", .arr [.str "q", .str "p"])]),
    ("q", .obj [("imports", .arr [.str "p", .str "q"])])]

/-- A document that imports both of them, and the first one again. -/
def enteringCircle : Json := .obj [("imports", .arr [.str "p", .str "q", .str "p"])]

/-- Two files import the same one, which is opened once and reached once. While the attached
documents are being loaded their imports have no grammars, and the same ones from then on. -/
theorem reads_once_diamond : FileTree.IsProper diamond.workingDirectory ∧ diamond.IsAcyclic ∧
    (∃ id s reached, loadFile diamond (.ofText "root.json") ⟨.empty, []⟩ = .ok (id, s) ∧
      s.model.reachable id = .ok reached ∧ ((id :: reached).map s.model.pathOf?).Nodup) ∧
    (Traced.loadFile diamond (.ofText "root.json")).namesRead ⟨.empty, []⟩ =
      ["/w/root.json", "/w/left.json", "/w/leaf.json", "/w/right.json"] ∧
    (Traced.loadAttached circle enteringCircle).answers ⟨.empty, []⟩ =
      [("p", none), ("q", none), ("q", some ⟨0⟩), ("p", none), ("p", some ⟨1⟩), ("q", some ⟨0⟩),
        ("p", some ⟨1⟩)] ∧
    ((Traced.loadAttached circle enteringCircle).answers ⟨.empty, []⟩).Pairwise
      fun earlier later => earlier.1 = later.1 → ∀ id, earlier.2 = some id → later.2 = some id := by
  have working : FileTree.IsProper diamond.workingDirectory := by
    intro name mem
    obtain rfl := List.mem_singleton.mp mem
    exact ⟨⟨by decide, by decide, by decide⟩, by decide⟩
  have acyclic : diamond.IsAcyclic := by
    refine FileTree.isAcyclic_of_rank (fun location =>
      ["leaf.json", "left.json", "right.json", "root.json"].idxOf (location.getLast?.getD "")) ?_
    decide +kernel
  obtain ⟨⟨-, -, -, distinct⟩, -, -, -, steady⟩ :=
    reads_once working "root.json" circle enteringCircle
  have given : (loadFile diamond (.ofText "root.json") ⟨.empty, []⟩).isOk = true := by
    decide +kernel
  refine ⟨working, acyclic, ?_, by decide +kernel, by decide +kernel, steady⟩
  cases run : loadFile diamond (.ofText "root.json") ⟨.empty, []⟩ with
  | error fault =>
    rw [run] at given
    cases given
  | ok made =>
    obtain ⟨reached, found, apart⟩ := distinct acyclic made.1 made.2 run
    exact ⟨made.1, made.2, reached, rfl, found, apart⟩

end Loader
end GrammarChart
