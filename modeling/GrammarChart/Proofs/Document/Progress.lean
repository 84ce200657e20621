import GrammarChart.Proofs.Document.Depth
import GrammarChart.Proofs.Document.Imports
import GrammarChart.Proofs.Document.Shown

/-!
# Progress of loading files

How far the loading of files has come: which files are open, from the one that is being read
outwards to the one that it all started with, and which ones are completed, the last one first
(`Stage.IsAt`). A file that is completed was linked to grammars of files that had been completed
before it, and to the empty grammars that stood for files that were open; those files import it
themselves, directly or not (`IsCompleted`). A file is opened (`Stage.IsAt.enter`), its
imports are resolved (`Stage.IsAt.resolveAll`), its document is linked (`Stage.IsAt.link`) and the
file is completed (`Stage.IsAt.leave`); so every run of the loader goes on from stage to stage
(`Loader.progresses_loadFileFrom`).
-/

set_option autoImplicit false

namespace GrammarChart

open FileTree (nameOf absolute)

namespace FileTree

/-- A path that a file imports names a location where something stands. -/
structure Names (tree : FileTree) (importer : Location) (path : String) (location : Location) :
    Prop where
  imported : ∃ fields paths, Loader.readFile tree (absolute importer) = .ok (.obj fields) ∧
    Document.importPaths fields = .ok paths ∧ .str path ∈ paths ∧ path ≠ ""
  leads : Loader.importLocation tree importer path = .ok location
  present : tree.contains (absolute location) = .ok true

/-- A file imports another one. -/
def Imports (tree : FileTree) (importer location : Location) : Prop :=
  ∃ path, tree.Names importer path location

/-- A file whose text is a value is there. -/
theorem contains_of_readFile {tree : FileTree} {file : FilePath} {value : Json}
    (read : Loader.readFile tree file = .ok value) : tree.contains file = .ok true := by
  obtain ⟨text, readText, -⟩ := bind_eq_ok.mp read
  exact contains_of_readText readText

end FileTree

/-- The rule of an index in a grammar. -/
def Model.ruleAt? (m : Model) (g : NodeId) (index : Nat) : Option NodeId :=
  (m.grammar? g).bind fun grammar => (nodesIn grammar.rules)[index]?

/-- The rules of a grammar stay what they are when a model goes on. -/
theorem Model.Keeps.ruleAt? {m m' : Model} (keeps : m.Keeps m') {g : NodeId} {grammar : Grammar}
    (here : m.grammar? g = some grammar) (index : Nat) :
    m'.ruleAt? g index = m.ruleAt? g index := by
  obtain ⟨name, path, there⟩ := keeps.grammars g grammar here
  simp [Model.ruleAt?, here, there]

/-- What an address of a rule in another document leads to is that rule of the grammar that it
names, if it names one. -/
theorem Document.IsLinked.eq_ruleAt? {document : Document} {fields : Fields}
    {found : List (String × NodeId)} {model model' : Model} {id : NodeId}
    (linked : document.IsLinked fields (Imported.insertAll [] found) model model' id)
    {path : String} (present : path ≠ "") (whole : '#' ∉ path.toList) {index : Nat}
    {target : Option NodeId} (led : document.leadsTo fields (Imported.insertAll [] found) model
      (.str (outsideAddress path index)) = .ok target) :
    target = (Imported.named found path).bind (model'.ruleAt? · index) := by
  rw [leadsTo, Planting.nodeAt_outside _ _ _ present whole] at led
  cases named : Imported.named found path with
  | none =>
    have nameless : (Imported.insertAll [] found).get?
        (FilePath.ofText (String.ofList path.toList)).stem = none := by
      rw [String.ofList_toList]
      exact named
    rw [Model.outsideNode, nameless] at led
    cases led
    rfl
  | some g =>
    rw [Option.bind_some, Model.ruleAt?, ← linked.grammars g]
    cases planted : (document.plant model
        ((Imported.insertAll [] found).map Prod.snd)).1.model.grammar? g with
    | none =>
      have unknown : ((Imported.insertAll [] found).get?
          (FilePath.ofText (String.ofList path.toList)).stem).bind (document.plant model
            ((Imported.insertAll [] found).map Prod.snd)).1.model.grammar? = none := by
        rw [String.ofList_toList]
        exact (congrArg (Option.bind · _) named).trans planted
      rw [Model.outsideNode, unknown] at led
      cases led
      rfl
    | some grammar =>
      rw [Model.outsideNode_rules _ _ _ named planted, indexNumber_indexDigits] at led
      split at led
      · cases led
      · cases led
        rfl

/-- How far the loading of files has come: the grammars with what they show, the files that are open
with the grammars that stand for them, the one that is being read first, and the files that are
completed with their grammars, the last one first. -/
structure Stage where
  grammars : List NodeId
  views : NodeId → View
  opened : List (Location × NodeId)
  completed : List (Location × NodeId)

/-- The files that were met. -/
def Stage.met (stage : Stage) : List (Location × NodeId) := stage.opened ++ stage.completed

/-- How the loading of a file was completed: its document was linked to the grammars that were found
for its imports. The grammar of an import is that of a file which was completed before, or one that
stands for a file which imports the completed one and was not completed yet. -/
structure IsCompleted (tree : FileTree) (stage : Stage) (m : Model)
    (before : List (Location × NodeId)) (location : Location) (id : NodeId) (fields : Fields)
    (document : Document) (found : List (String × NodeId)) : Prop where
  read : Loader.readFile tree (absolute location) = .ok (.obj fields)
  isDocument : Document.ofFields fields = .ok document
  view : stage.views id = Model.linkedView stage.views document fields (Imported.insertAll [] found)
  leads : ∃ leadsTo, document.IsShownAt ((Imported.insertAll [] found).map Prod.snd)
      (.bound leadsTo) m id ∧
    (∀ path index target, path ≠ "" → '#' ∉ path.toList →
      leadsTo (.str (outsideAddress path index)) = .ok target →
      target = (Imported.named found path).bind (m.ruleAt? · index)) ∧
    ∀ reference address target, reference.address = some address → leadsTo address = .ok target →
      ((stage.views id).face reference).IsAt m ((target.map Item.node).getD .nothing)
  inside : ∀ entry ∈ found, entry.2 ∈ stage.grammars
  offered : ∀ entry ∈ found, ∃ l, tree.Names location entry.1 l ∧ ((l, entry.2) ∈ before ∨
    l ∉ before.map Prod.fst ∧ stage.views entry.2 = .nothing ∧
      Relation.ReflTransGen tree.Imports l location)
  all : ∀ path l, tree.Names location path l → ∃ i, (path, i) ∈ found
  apart : tree.HasDistinctStems → Imported.IsKeptApart found

namespace Stage

/-- A grammar reaches another one through imports. -/
def Reaches (stage : Stage) : NodeId → NodeId → Prop :=
  Relation.ReflTransGen fun g i => i ∈ (stage.views g).imports

/-- The stage is reached in a state. -/
structure IsAt (tree : FileTree) (stage : Stage) (s : Loaded) : Prop where
  displays : s.model.Displays stage.grammars stage.views
  apart : (stage.met.map Prod.fst).Nodup
  files : ∀ entry ∈ stage.met, FileTree.IsProper entry.1 ∧
    ∃ fields, Loader.readFile tree (absolute entry.1) = .ok (.obj fields)
  inside : ∀ entry ∈ stage.met, entry.2 ∈ stage.grammars
  noted : ∀ entry ∈ stage.met, s.get? (nameOf entry.1) = some (some entry.2)
  known : ∀ name grammar, s.get? name = some grammar →
    ∃ entry ∈ stage.met, nameOf entry.1 = name ∧ grammar = some entry.2
  waiting : ∀ entry ∈ stage.opened, stage.views entry.2 = .nothing
  named : ∀ entry ∈ stage.met, ∃ grammar, s.model.grammar? entry.2 = some grammar ∧
    grammar.path = .value (.str (nameOf entry.1))
  each : ∀ location id before, ((location, id) :: before) <:+ stage.completed →
    ∃ fields document found, IsCompleted tree stage s.model before location id fields document found

/-- A stage goes on from another one. -/
structure Grows (stage stage' : Stage) : Prop where
  grammars : stage.grammars ⊆ stage'.grammars
  views : ∀ g ∈ stage.grammars, stage'.views g = stage.views g
  completed : stage.completed <:+ stage'.completed

/-- A stage goes on from another one, with the same files open. Where no two files have the same
stem, what was completed since then is reached from the given grammars. -/
structure Gains (tree : FileTree) (stage stage' : Stage) (gs : List NodeId) : Prop where
  grows : stage.Grows stage'
  opened : stage'.opened = stage.opened
  reached : tree.HasDistinctStems → ∀ entry ∈ stage'.completed,
    entry ∈ stage.completed ∨ ∃ g ∈ gs, stage'.Reaches g entry.2

variable {stage stage' stage'' : Stage} {tree : FileTree} {s s' : Loaded} {location : Location}
  {id : NodeId} {gs gs' : List NodeId}

/-- A stage goes on from itself. -/
theorem Grows.refl (stage : Stage) : stage.Grows stage :=
  ⟨fun _ mem => mem, fun _ _ => rfl, List.suffix_refl _⟩

/-- What goes on from a stage that goes on goes on from the first one. -/
theorem Grows.trans (h : stage.Grows stage') (k : stage'.Grows stage'') : stage.Grows stage'' :=
  ⟨fun _ mem => k.grammars (h.grammars mem),
    fun g mem => (k.views g (h.grammars mem)).trans (h.views g mem), h.completed.trans k.completed⟩

/-- What a grammar reaches it still reaches when a stage goes on. -/
theorem Grows.reaches (h : stage.Grows stage')
    (closed : ∀ g ∈ stage.grammars, ∀ i ∈ (stage.views g).imports, i ∈ stage.grammars)
    {g i : NodeId} (own : g ∈ stage.grammars) (reaches : stage.Reaches g i) :
    stage'.Reaches g i := by
  have both : i ∈ stage.grammars ∧ stage'.Reaches g i := by
    induction reaches with
    | refl => exact ⟨own, .refl⟩
    | tail _ direct ih =>
      exact ⟨closed _ ih.1 _ direct, ih.2.tail (by rwa [h.views _ ih.1])⟩
  exact both.2

/-- A stage that stays as it is gains nothing. -/
theorem Gains.refl (tree : FileTree) (stage : Stage) (gs : List NodeId) :
    Gains tree stage stage gs :=
  ⟨.refl stage, rfl, fun _ _ mem => .inl mem⟩

/-- What a stage gains, and then gains further. -/
theorem Gains.trans (h : Gains tree stage stage' gs) (k : Gains tree stage' stage'' gs')
    (closed : ∀ g ∈ stage'.grammars, ∀ i ∈ (stage'.views g).imports, i ∈ stage'.grammars)
    (inside : ∀ g ∈ gs, g ∈ stage'.grammars) : Gains tree stage stage'' (gs ++ gs') where
  grows := h.grows.trans k.grows
  opened := k.opened.trans h.opened
  reached := by
    intro distinct entry mem
    rcases k.reached distinct entry mem with before | ⟨g, given, reaches⟩
    · rcases h.reached distinct entry before with first | ⟨g, given, reaches⟩
      · exact .inl first
      · exact .inr ⟨g, List.mem_append_left gs' given, k.grows.reaches closed (inside g given) reaches⟩
    · exact .inr ⟨g, List.mem_append_right gs given, reaches⟩

/-- What was met stays met when a stage goes on with the same files open. -/
theorem Gains.met (h : Gains tree stage stage' gs) {entry : Location × NodeId}
    (mem : entry ∈ stage.met) : entry ∈ stage'.met := by
  rcases List.mem_append.mp mem with waiting | done
  · exact List.mem_append_left _ (h.opened ▸ waiting)
  · exact List.mem_append_right _ (h.grows.completed.subset done)

/-- The stage with a further grammar. -/
def withView (stage : Stage) (id : NodeId) (view : View) : Stage :=
  { stage with
    grammars := id :: stage.grammars
    views := Function.update stage.views id view }

/-- A stage goes on with a new grammar. -/
theorem grows_withView (new : id ∉ stage.grammars) (view : View) :
    stage.Grows (stage.withView id view) where
  grammars := List.subset_cons_self id _
  views := fun g mem => Function.update_of_ne (by rintro rfl; exact new mem) _ _
  completed := List.suffix_refl _

/-- The stage in which a further file is open. -/
def enter (stage : Stage) (location : Location) (standIn : NodeId) : Stage :=
  { stage.withView standIn .nothing with opened := (location, standIn) :: stage.opened }

/-- A stage goes on when a file is opened. -/
theorem grows_enter (new : id ∉ stage.grammars) (location : Location) :
    stage.Grows (stage.enter location id) :=
  have grows := grows_withView new View.nothing
  ⟨grows.grammars, grows.views, grows.completed⟩

/-- The stage in which the file that was being read is completed. -/
def leave (stage : Stage) (location : Location) (id : NodeId) : Stage :=
  { stage with
    opened := stage.opened.tail
    completed := (location, id) :: stage.completed }

/-- A stage goes on when a file is completed. -/
theorem grows_leave (stage : Stage) (location : Location) (id : NodeId) :
    stage.Grows (stage.leave location id) :=
  ⟨fun _ mem => mem, fun _ _ => rfl, List.suffix_cons _ _⟩

end Stage

variable {stage stage' : Stage} {tree : FileTree} {s s' : Loaded} {m m' : Model}
  {before : List (Location × NodeId)} {location : Location} {id : NodeId} {fields : Fields}
  {document : Document} {found : List (String × NodeId)}

/-- The grammars that are imported are among those that were found. -/
theorem Imported.exists_found {g : NodeId} (mem : g ∈ (Imported.insertAll [] found).map Prod.snd) :
    ∃ entry ∈ found, entry.2 = g := by
  rcases Imported.mem_insertAll mem with here | before
  · exact List.mem_map.mp here
  · exact absurd before List.not_mem_nil

/-- What a linked document shows is decided by what the grammars that it imports show. -/
theorem Model.linkedView_congr {views views' : NodeId → View} {imported : Imported}
    (same : ∀ g ∈ imported.map Prod.snd, views' g = views g) (document : Document)
    (fields : Fields) :
    linkedView views' document fields imported = linkedView views document fields imported := by
  have documents : documentsOf views' imported = documentsOf views imported :=
    List.map_congr_left fun entry mem => by rw [same _ (List.mem_map_of_mem mem)]
  rw [linkedView, linkedView, documents]

/-- What was completed stays so when the loading goes on. -/
theorem IsCompleted.later
    (h : IsCompleted tree stage m before location id fields document found)
    (displays : m.Displays stage.grammars stage.views) (own : id ∈ stage.grammars)
    (grows : stage.Grows stage') (keeps : m.Keeps m') :
    IsCompleted tree stage' m' before location id fields document found where
  read := h.read
  isDocument := h.isDocument
  view := by
    rw [grows.views id own, h.view]
    refine (Model.linkedView_congr (fun g mem => ?_) document fields).symm
    obtain ⟨entry, inside, rfl⟩ := Imported.exists_found mem
    exact grows.views _ (h.inside entry inside)
  leads := by
    obtain ⟨leadsTo, shown, leads, faces⟩ := h.leads
    refine ⟨leadsTo, shown.later keeps (keeps.carries_bound leadsTo), ?_, ?_⟩
    · intro path index target present whole led
      rw [leads path index target present whole led]
      refine Option.bind_congr fun g named => ?_
      obtain ⟨entry, mem, rfl⟩ := Imported.exists_found (Imported.mem_of_get? named)
      obtain ⟨name, path', rules, interfaces, types, diagnostics, here, -⟩ :=
        displays.shown _ (h.inside entry mem)
      exact (keeps.ruleAt? here index).symm
    · intro reference address target written led
      rw [grows.views id own]
      exact (faces reference address target written led).later keeps.extension
  inside := fun entry mem => grows.grammars (h.inside entry mem)
  offered := by
    intro entry mem
    obtain ⟨l, names, offered⟩ := h.offered entry mem
    refine ⟨l, names, offered.imp_right ?_⟩
    rintro ⟨fresh, nothing, reaches⟩
    exact ⟨fresh, (grows.views _ (h.inside entry mem)).trans nothing, reaches⟩
  all := h.all
  apart := h.apart

namespace Model

/-- Grammars stay what they are when a node is added. -/
theorem grammar?_add (m : Model) (node : Node) {g : NodeId} {grammar : Grammar}
    (here : m.grammar? g = some grammar) : (m.add node).1.grammar? g = some grammar := by
  rw [grammar?_eq_some] at here ⊢
  have other : g ≠ ⟨m.nodes.length⟩ := by
    rintro rfl
    have := lt_of_shape? here
    simp at this
  rw [shape?_add, if_neg other, here]

/-- Grammars stay what they are when further nodes are added. -/
theorem grammar?_of_isPrefix (h : m.nodes <+: m'.nodes) {g : NodeId} {grammar : Grammar}
    (here : m.grammar? g = some grammar) : m'.grammar? g = some grammar := by
  rw [grammar?_eq_some] at here ⊢
  obtain ⟨node, found, same⟩ := Option.map_eq_some_iff.mp here
  rw [shape?, node?_of_isPrefix h found, Option.map_some, same]

/-- A changed grammar is the changed one, and other grammars stay what they are. -/
theorem grammar?_updateGrammar (m : Model) (id : NodeId) (change : Grammar → Grammar) {g : NodeId}
    {grammar : Grammar} (here : m.grammar? g = some grammar) :
    (m.updateGrammar id change).grammar? g =
      some (if id = g then change grammar else grammar) := by
  rw [grammar?_eq_some, shape?, Option.map_eq_some_iff] at here
  obtain ⟨node, found, same⟩ := here
  rw [grammar?_eq_some, shape?, updateGrammar, node?_update, found]
  split
  · simp [same]
  · simp [same]

end Model

namespace Stage.IsAt

/-- What grammars import is among them. -/
theorem closed (h : stage.IsAt tree s) :
    ∀ g ∈ stage.grammars, ∀ i ∈ (stage.views g).imports, i ∈ stage.grammars := h.displays.known

/-- Completed files stay completed when the loading goes on. -/
theorem each_later (h : stage.IsAt tree s) (grows : stage.Grows stage') (keeps : s.model.Keeps m')
    {l : Location} {g : NodeId} {before : List (Location × NodeId)}
    (suffix : ((l, g) :: before) <:+ stage.completed) :
    ∃ fields document found, IsCompleted tree stage' m' before l g fields document found := by
  obtain ⟨fields, document, found, completed⟩ := h.each l g before suffix
  have own := h.inside (l, g) (List.mem_append_right _ (suffix.subset List.mem_cons_self))
  exact ⟨fields, document, found, completed.later h.displays own grows keeps⟩

/-- A known name of a proper location is that of a file that was met. -/
theorem met_of_known (h : stage.IsAt tree s) (proper : FileTree.IsProper location)
    {grammar : Option NodeId} (known : s.get? (nameOf location) = some grammar) :
    ∃ g, grammar = some g ∧ (location, g) ∈ stage.met := by
  obtain ⟨⟨l, g⟩, mem, same, rfl⟩ := h.known _ _ known
  obtain rfl := FileTree.eq_of_text_eq (h.files _ mem).1 proper same
  exact ⟨g, rfl, mem⟩

/-- A file that was met has a known name. -/
theorem nameOf_ne_of_unknown (h : stage.IsAt tree s) (new : s.get? (nameOf location) = none)
    {entry : Location × NodeId} (mem : entry ∈ stage.met) :
    nameOf location ≠ nameOf entry.1 := by
  intro same
  have noted := h.noted entry mem
  rw [← same, new] at noted
  cases noted

/-- Two grammars of the same file that was met are the same. -/
theorem eq_of_met (h : stage.IsAt tree s) {g g' : NodeId} (mem : (location, g) ∈ stage.met)
    (mem' : (location, g') ∈ stage.met) : g = g' := by
  have noted := h.noted _ mem
  rw [h.noted _ mem', Option.some.injEq, Option.some.injEq] at noted
  exact noted.symm

/-- A file is opened: an empty grammar stands for it. -/
theorem enter (h : stage.IsAt tree s) (proper : FileTree.IsProper location)
    (new : s.get? (nameOf location) = none)
    (read : Loader.readFile tree (absolute location) = .ok (.obj fields)) :
    (stage.enter location ⟨s.model.nodes.length⟩).IsAt tree (s.enterFile location fields) := by
  have fresh : (⟨s.model.nodes.length⟩ : NodeId) ∉ stage.grammars :=
    h.displays.not_mem (Nat.le_refl _)
  have grows := grows_enter fresh location
  have other : ∀ entry ∈ stage.met, (s.enterFile location fields).get? (nameOf entry.1) =
      s.get? (nameOf entry.1) := by
    intro entry mem
    rw [Loaded.get?_enterFile, if_neg (h.nameOf_ne_of_unknown new mem)]
  constructor
  case displays => exact h.displays.standIn _ _
  case apart =>
    refine List.nodup_cons.mpr ⟨fun mem => ?_, h.apart⟩
    obtain ⟨entry, inside, same⟩ := List.mem_map.mp mem
    exact h.nameOf_ne_of_unknown new inside (congrArg nameOf same.symm)
  case files => exact List.forall_mem_cons.mpr ⟨⟨proper, fields, read⟩, h.files⟩
  case inside =>
    exact List.forall_mem_cons.mpr
      ⟨List.mem_cons_self, fun entry mem => List.mem_cons_of_mem _ (h.inside entry mem)⟩
  case noted =>
    refine List.forall_mem_cons.mpr ⟨?_, fun entry mem => (other entry mem).trans (h.noted entry mem)⟩
    rw [Loaded.get?_enterFile, if_pos rfl]
  case known =>
    intro name grammar known
    rw [Loaded.get?_enterFile] at known
    split at known
    · next here =>
      cases known
      exact ⟨_, List.mem_cons_self, here, rfl⟩
    · obtain ⟨entry, mem, isNamed, same⟩ := h.known name grammar known
      exact ⟨entry, List.mem_cons_of_mem _ mem, isNamed, same⟩
  case waiting =>
    refine List.forall_mem_cons.mpr ⟨Function.update_self .., fun entry mem => ?_⟩
    rw [grows.views _ (h.inside entry (List.mem_append_left _ mem))]
    exact h.waiting entry mem
  case named =>
    refine List.forall_mem_cons.mpr ⟨?_, fun entry mem => ?_⟩
    · have here := (Model.has_add s.model (.ofShape (.grammar (.standIn
        (.value ((fields.getD "name" .null).orElse (.str (absolute location).stem)))
        (.value (.str (nameOf location))))) .nothing)).shape?
      exact ⟨_, Model.grammar?_eq_some.mpr here, rfl⟩
    · obtain ⟨grammar, here, isNamed⟩ := h.named entry mem
      exact ⟨grammar, Model.grammar?_add _ _ here, isNamed⟩
  case each => exact fun l g before => h.each_later grows (Model.Keeps.add _ _)

/-- A document is linked. -/
theorem link (h : stage.IsAt tree s) {imported : Imported}
    (imports : ∀ g ∈ imported.map Prod.snd, g ∈ stage.grammars)
    (linked : document.link fields imported s.model = .ok (m, id)) :
    (stage.withView id (Model.linkedView stage.views document fields imported)).IsAt tree
      { s with model := m } := by
  have isLinked := Document.isLinked_of_link linked
  have grows := grows_withView (h.displays.not_mem isLinked.new)
    (Model.linkedView stage.views document fields imported)
  constructor
  case displays => exact h.displays.link imports linked
  case apart => exact h.apart
  case files => exact h.files
  case inside => exact fun entry mem => List.mem_cons_of_mem _ (h.inside entry mem)
  case noted => exact h.noted
  case known => exact h.known
  case waiting =>
    intro entry mem
    rw [grows.views _ (h.inside entry (List.mem_append_left _ mem))]
    exact h.waiting entry mem
  case named =>
    intro entry mem
    obtain ⟨grammar, here, isNamed⟩ := h.named entry mem
    exact ⟨grammar, Model.grammar?_of_isPrefix isLinked.nodes here, isNamed⟩
  case each =>
    exact fun l g before => h.each_later grows (Model.Keeps.of_isPrefix isLinked.nodes)

/-- A file is completed: its grammar takes the place of the one that stood for it. -/
theorem leave (h : stage.IsAt tree s) {standIn : NodeId}
    {outer : List (Location × NodeId)} (isOpen : stage.opened = (location, standIn) :: outer)
    (own : id ∈ stage.grammars) (fresh : ∀ entry ∈ stage.met, entry.2 ≠ id)
    (completed : IsCompleted tree stage s.model stage.completed location id fields document found) :
    (stage.leave location id).IsAt tree (s.leaveFile location id) := by
  have met : stage.met = (location, standIn) :: (outer ++ stage.completed) := by
    rw [Stage.met, isOpen, List.cons_append]
  have left : (stage.leave location id).met = outer ++ (location, id) :: stage.completed := by
    rw [Stage.met, Stage.leave, isOpen, List.tail_cons]
  have old : ∀ entry ∈ outer ++ stage.completed, entry ∈ stage.met :=
    fun entry mem => met ▸ List.mem_cons_of_mem _ mem
  -- What holds of the completed file and of the others holds of all that were met then.
  have forall_met : ∀ {P : Location × NodeId → Prop}, P (location, id) →
      (∀ entry ∈ outer ++ stage.completed, P entry) →
      ∀ entry ∈ (stage.leave location id).met, P entry := by
    intro P here others entry mem
    rw [left, List.mem_append, List.mem_cons] at mem
    rcases mem with waiting | rfl | done
    · exact others entry (List.mem_append_left _ waiting)
    · exact here
    · exact others entry (List.mem_append_right _ done)
  have apart := h.apart
  rw [met, List.map_cons, List.nodup_cons] at apart
  have file := h.files (location, standIn) (met ▸ List.mem_cons_self)
  have other : ∀ entry ∈ outer ++ stage.completed, nameOf location ≠ nameOf entry.1 := by
    intro entry mem same
    have same := FileTree.eq_of_text_eq file.1 (h.files entry (old entry mem)).1 same
    exact apart.1 (same ▸ List.mem_map_of_mem mem)
  have keeps : s.model.Keeps (s.leaveFile location id).model := .rename s.model id _ _
  have grows := grows_leave stage location id
  constructor
  case displays => exact h.displays.rename id _ _
  case apart =>
    rw [left, List.map_append, List.map_cons, (List.perm_middle).nodup_iff, ← List.map_append]
    exact List.nodup_cons.mpr apart
  case files => exact forall_met file fun entry mem => h.files entry (old entry mem)
  case inside => exact forall_met own fun entry mem => h.inside entry (old entry mem)
  case noted =>
    refine forall_met ?_ fun entry mem => ?_
    · rw [Loaded.get?_leaveFile, if_pos rfl]
    · rw [Loaded.get?_leaveFile, if_neg (other entry mem)]
      exact h.noted entry (old entry mem)
  case known =>
    intro name grammar known
    rw [Loaded.get?_leaveFile] at known
    split at known
    · next here =>
      cases known
      exact ⟨(location, id), left ▸ List.mem_append_right _ List.mem_cons_self, here, rfl⟩
    · next notHere =>
      obtain ⟨entry, mem, isNamed, same⟩ := h.known name grammar known
      rw [met] at mem
      rcases List.mem_cons.mp mem with rfl | mem
      · exact absurd isNamed notHere
      · refine ⟨entry, left ▸ ?_, isNamed, same⟩
        rw [List.mem_append, List.mem_cons]
        exact (List.mem_append.mp mem).imp_right .inr
  case waiting =>
    intro entry mem
    refine h.waiting entry ?_
    rw [Stage.leave, isOpen, List.tail_cons] at mem
    exact isOpen ▸ List.mem_cons_of_mem _ mem
  case named =>
    refine forall_met ?_ fun entry mem => ?_
    · obtain ⟨name, path, rules, interfaces, types, diagnostics, here, -⟩ := h.displays.shown id own
      refine ⟨_, Model.grammar?_updateGrammar _ _ _ here, ?_⟩
      rw [if_pos rfl]
    · obtain ⟨grammar, here, isNamed⟩ := h.named entry (old entry mem)
      refine ⟨_, Model.grammar?_updateGrammar _ _ _ here, ?_⟩
      rw [if_neg (fresh entry (old entry mem)).symm, isNamed]
  case each =>
    intro l g before suffix
    rcases List.suffix_cons_iff.mp suffix with whole | earlier
    · cases whole
      exact ⟨fields, document, found, completed.later h.displays own grows keeps⟩
    · exact h.each_later grows keeps earlier

end Stage.IsAt

namespace Loader

open FileTree

/-- A loader of files goes on from stage to stage: when it loads a file whose name is unknown, and
which the open files import, directly or not, the file is completed last. -/
def Progresses (tree : FileTree) (loadFile : Location → Loader NodeId) : Prop :=
  ∀ {stage : Stage} {s s' : Loaded} {location : Location} {id : NodeId}, stage.IsAt tree s →
    IsProper location → s.get? (nameOf location) = none →
    (∀ entry ∈ stage.opened, Relation.ReflTransGen tree.Imports entry.1 location) →
    loadFile location s = .ok (id, s') →
    ∃ stage', Stage.Gains tree stage stage' [id] ∧ stage'.IsAt tree s' ∧
      ∃ before, stage'.completed = (location, id) :: before

end Loader

section Runs

open Loader FileTree

variable {loadFile : Location → Loader NodeId} {importer : Location}

/-- The grammar of an import path is found: it is that of a file that was met, or nothing is
there. -/
theorem Stage.IsAt.fileImport (h : stage.IsAt tree s) (progresses : Progresses tree loadFile)
    (proper : IsProper importer)
    (chain : ∀ entry ∈ stage.opened, Relation.ReflTransGen tree.Imports entry.1 importer)
    {path : Json} {paths : List Json}
    (read : readFile tree (absolute importer) = .ok (.obj fields))
    (listed : Document.importPaths fields = .ok paths) (mem : path ∈ paths)
    (present : path.isPresent = true) {grammar : Option NodeId}
    (run : Loader.fileImport tree importer loadFile path s = .ok (grammar, s')) :
    ∃ stage' text l, stage.Gains tree stage' grammar.toList ∧ stage'.IsAt tree s' ∧
      path = .str text ∧ importLocation tree importer text = .ok l ∧
      ((∃ g, grammar = some g ∧ tree.Names importer text l ∧ (l, g) ∈ stage'.met) ∨
        grammar = none ∧ tree.contains (absolute l) = .ok false) := by
  obtain ⟨text, l, rfl, leads, how⟩ := exists_of_fileImport run
  have isThere : tree.contains (absolute l) = .ok true → tree.Names importer text l :=
    fun there => ⟨⟨fields, paths, read, listed, mem, by simpa [Json.isPresent] using present⟩,
      leads, there⟩
  have properThere := isProper_importLocation proper leads
  rcases how with ⟨known, rfl⟩ | ⟨new, ⟨absent, rfl, rfl⟩ | ⟨there, id, rfl, loaded⟩⟩
  · obtain ⟨g, rfl, met⟩ := h.met_of_known properThere known
    obtain ⟨_, readThere⟩ := (h.files _ met).2
    exact ⟨stage, text, l, .refl tree stage _, h, rfl, leads,
      .inl ⟨g, rfl, isThere (contains_of_readFile readThere), met⟩⟩
  · exact ⟨stage, text, l, .refl tree stage _, h, rfl, leads, .inr ⟨rfl, absent⟩⟩
  · obtain ⟨stage', gains, isAt, before, last⟩ := progresses h properThere new
      (fun entry mem => (chain entry mem).tail ⟨text, isThere there⟩) loaded
    have met : (l, id) ∈ stage'.met :=
      List.mem_append_right _ (last ▸ List.mem_cons_self)
    exact ⟨stage', text, l, gains, isAt, rfl, leads, .inl ⟨id, rfl, isThere there, met⟩⟩

/-- Imports are resolved: each grammar that was found is that of a file that was met, and there is
one for every path that names something. -/
theorem Stage.IsAt.resolveAll (progresses : Progresses tree loadFile) (proper : IsProper importer)
    {all : List Json} (read : readFile tree (absolute importer) = .ok (.obj fields))
    (listed : Document.importPaths fields = .ok all) {paths : List Json} (sub : paths ⊆ all) :
    ∀ {stage : Stage} {s s' : Loaded} {found : List (String × NodeId)}, stage.IsAt tree s →
      (∀ entry ∈ stage.opened, Relation.ReflTransGen tree.Imports entry.1 importer) →
      Loader.resolveAll (Loader.fileImport tree importer loadFile) paths s = .ok (found, s') →
      ∃ stage', stage.Gains tree stage' (found.map Prod.snd) ∧ stage'.IsAt tree s' ∧
        (∀ entry ∈ found, ∃ l, tree.Names importer entry.1 l ∧ (l, entry.2) ∈ stage'.met) ∧
        ∀ path l, .str path ∈ paths → path ≠ "" → importLocation tree importer path = .ok l →
          tree.contains (absolute l) = .ok true → ∃ i, (path, i) ∈ found := by
  -- By induction on the paths that are left: what is found for one of them leads to a stage from which
  -- the others are resolved, and files that were met by then stay met.
  induction paths with
  | nil =>
    intro stage s s' found h _ run
    cases run
    exact ⟨stage, .refl tree stage _, h, fun _ mem => absurd mem List.not_mem_nil,
      fun _ _ mem => absurd mem List.not_mem_nil⟩
  | cons path rest ih =>
    intro stage s s' found h chain run
    have further : rest ⊆ all := fun _ mem => sub (List.mem_cons_of_mem path mem)
    rcases exists_of_resolveAll_cons run with ⟨absent, run⟩ | ⟨present, between, how⟩
    · obtain ⟨stage', gains, isAt, offered, whole⟩ := ih further h chain run
      refine ⟨stage', gains, isAt, offered, fun text l mem nonempty => ?_⟩
      rcases List.mem_cons.mp mem with rfl | later
      · exact absurd nonempty (by simpa [Json.isPresent] using absent)
      · exact whole text l later nonempty
    · have first := sub List.mem_cons_self
      rcases how with ⟨resolved, rest'⟩ | ⟨text, id, others, same, resolved, rest', rfl⟩
      · obtain ⟨stage₁, text, l, gains₁, isAt₁, rfl, leads, ⟨_, none, -⟩ | ⟨-, nothing⟩⟩ :=
          h.fileImport progresses proper chain read listed first present resolved
        · cases none
        obtain ⟨stage', gains, isAt, offered, whole⟩ :=
          ih further isAt₁ (gains₁.opened ▸ chain) rest'
        refine ⟨stage', gains₁.trans gains isAt₁.closed (fun _ mem => absurd mem List.not_mem_nil),
          isAt, offered, fun text' l' mem nonempty leads' there => ?_⟩
        rcases List.mem_cons.mp mem with same | later
        · cases same
          rw [leads, Except.ok.injEq] at leads'
          subst leads'
          rw [nothing] at there
          cases there
        · exact whole text' l' later nonempty leads' there
      · subst same
        obtain ⟨stage₁, _, l, gains₁, isAt₁, ⟨⟩, leads, ⟨_, ⟨⟩, names, met⟩ | ⟨none, -⟩⟩ :=
          h.fileImport progresses proper chain read listed first present resolved
        swap
        · cases none
        obtain ⟨stage', gains, isAt, offered, whole⟩ :=
          ih further isAt₁ (gains₁.opened ▸ chain) rest'
        have inside : ∀ g ∈ (some id).toList, g ∈ stage₁.grammars := by
          intro g mem
          rw [List.mem_singleton.mp mem]
          exact isAt₁.inside _ met
        refine ⟨stage', gains₁.trans gains isAt₁.closed inside, isAt, ?_, ?_⟩
        · exact List.forall_mem_cons.mpr ⟨⟨l, names, gains.met met⟩, offered⟩
        · intro text' l' mem nonempty leads' there
          rcases List.mem_cons.mp mem with same | later
          · cases same
            exact ⟨id, List.mem_cons_self⟩
          · obtain ⟨i, inside⟩ := whole text' l' later nonempty leads' there
            exact ⟨i, List.mem_cons_of_mem _ inside⟩

/-- Where no two files have the same stem, the grammars that were found for a document are all among
its imports. -/
theorem Stage.IsAt.isKeptApart (h : stage.IsAt tree s) (distinct : tree.HasDistinctStems)
    (offered : ∀ entry ∈ found, ∃ l, tree.Names importer entry.1 l ∧ (l, entry.2) ∈ stage.met) :
    Imported.IsKeptApart found := by
  refine (Imported.isKeptApart_iff found).mpr fun a inA b inB same => ?_
  obtain ⟨l, names, met⟩ := offered a inA
  obtain ⟨l', names', met'⟩ := offered b inB
  obtain ⟨proper, _, read⟩ := h.files _ met
  obtain ⟨proper', _, read'⟩ := h.files _ met'
  obtain ⟨_, readText, -⟩ := GrammarChart.bind_eq_ok.mp read
  obtain ⟨_, readText', -⟩ := GrammarChart.bind_eq_ok.mp read'
  obtain ⟨content, file⟩ := mem_of_readText proper readText
  obtain ⟨content', file'⟩ := mem_of_readText proper' readText'
  obtain rfl := eq_of_importLocation distinct same names.leads names'.leads file file'
  exact h.eq_of_met met met'

/-- The file that is being read is completed when its imports are resolved and its document is
linked. -/
theorem Stage.IsAt.isCompleted (h : stage.IsAt tree s)
    (read : readFile tree (absolute location) = .ok (.obj fields))
    (isDocument : Document.ofFields fields = .ok document)
    (chain : ∀ entry ∈ stage.opened, Relation.ReflTransGen tree.Imports entry.1 location)
    (offered : ∀ entry ∈ found, ∃ l, tree.Names location entry.1 l ∧ (l, entry.2) ∈ stage.met)
    (whole : ∀ path l, tree.Names location path l → ∃ i, (path, i) ∈ found)
    (linked : document.link fields (Imported.insertAll [] found) s.model = .ok (m, id)) :
    IsCompleted tree (stage.withView id (Model.linkedView stage.views document fields
      (Imported.insertAll [] found))) m stage.completed location id fields document found := by
  have isLinked := Document.isLinked_of_link linked
  have grows := grows_withView (h.displays.not_mem isLinked.new)
    (Model.linkedView stage.views document fields (Imported.insertAll [] found))
  have inside : ∀ entry ∈ found, entry.2 ∈ stage.grammars := by
    intro entry mem
    obtain ⟨l, -, met⟩ := offered entry mem
    exact h.inside _ met
  have imports : ∀ g ∈ (Imported.insertAll [] found).map Prod.snd, g ∈ stage.grammars := by
    intro g mem
    obtain ⟨entry, isFound, rfl⟩ := Imported.exists_found mem
    exact inside entry isFound
  refine ⟨read, isDocument, ?_, ?_, fun entry mem => grows.grammars (inside entry mem), ?_, whole,
    fun distinct => h.isKeptApart distinct offered⟩
  · exact (Function.update_self ..).trans
      (Model.linkedView_congr (fun g mem => grows.views g (imports g mem)) _ _).symm
  · obtain ⟨rules, interfaces, types, diagnostics, shown⟩ := isLinked.stands
    refine ⟨_, ⟨_, _, rules, interfaces, types, diagnostics, shown⟩,
      fun path index target present single led => isLinked.eq_ruleAt? present single led,
      fun reference address target written led => ?_⟩
    have face : (stage.withView id (Model.linkedView stage.views document fields
        (Imported.insertAll [] found))).views id = _ := Function.update_self ..
    rw [face]
    exact Document.isAt_face_of_leadsTo isLinked.extension
      (h.displays.areListed_plant imports document) written led
  · intro entry mem
    obtain ⟨l, names, met⟩ := offered entry mem
    refine ⟨l, names, ?_⟩
    rcases List.mem_append.mp met with waiting | done
    · refine .inr ⟨fun again => ?_, ?_, chain _ waiting⟩
      · have apart := h.apart
        rw [Stage.met, List.map_append] at apart
        exact List.disjoint_of_nodup_append apart (List.mem_map_of_mem waiting) again
      · rw [grows.views _ (inside entry mem)]
        exact h.waiting _ waiting
    · exact .inl done

/-- A loader of files that loads the imports of a file with one that goes on from stage to stage goes
on from stage to stage. -/
theorem progresses_loadFileWith (progresses : Progresses tree loadFile) :
    Progresses tree fun location =>
      loadFileWith tree location (Loader.fileImport tree location loadFile) := by
  intro stage s s' location id h proper new chain run
  obtain ⟨fields, between, read, loaded, rfl⟩ := exists_of_loadFileWith run
  obtain ⟨fields', paths, found, last, document, model, isGrammar, listed, resolved, isDocument,
    linked, rfl⟩ := exists_of_load loaded
  obtain rfl := eq_of_fieldsOf isGrammar
  have entered := h.enter proper new read
  have fresh : (⟨s.model.nodes.length⟩ : NodeId) ∉ stage.grammars :=
    h.displays.not_mem (Nat.le_refl _)
  have chain' : ∀ entry ∈ (stage.enter location ⟨s.model.nodes.length⟩).opened,
      Relation.ReflTransGen tree.Imports entry.1 location :=
    List.forall_mem_cons.mpr ⟨.refl, chain⟩
  obtain ⟨stage', gains, isAt, offered, whole⟩ := Stage.IsAt.resolveAll progresses proper read
    listed (List.Subset.refl _) entered chain' resolved
  have named : ∀ path l, tree.Names location path l → ∃ i, (path, i) ∈ found := by
    intro path l names
    obtain ⟨_, _, read', listed', mem, nonempty⟩ := names.imported
    rw [read, Except.ok.injEq, Json.obj.injEq] at read'
    subst read'
    rw [listed, Except.ok.injEq] at listed'
    subst listed'
    exact whole path l mem nonempty names.leads names.present
  have completed := isAt.isCompleted read isDocument (gains.opened ▸ chain') offered named linked
  have imports : ∀ g ∈ (Imported.insertAll [] found).map Prod.snd, g ∈ stage'.grammars := by
    intro g mem
    obtain ⟨entry, isFound, rfl⟩ := Imported.exists_found mem
    obtain ⟨l, -, met⟩ := offered entry isFound
    exact isAt.inside _ met
  have new' := isAt.displays.not_mem (Document.isLinked_of_link linked).new
  have other : ∀ entry ∈ stage'.met, entry.2 ≠ id := by
    rintro entry mem rfl
    exact new' (isAt.inside entry mem)
  have left := (isAt.link imports linked).leave gains.opened List.mem_cons_self other completed
  have grows := Stage.grows_withView new' (Model.linkedView stage'.views document fields'
    (Imported.insertAll [] found))
  have grows := grows.trans (Stage.grows_leave _ location id)
  refine ⟨_, ⟨(Stage.grows_enter fresh location).trans (gains.grows.trans grows), ?_, ?_⟩, left,
    stage'.completed, rfl⟩
  · exact congrArg List.tail gains.opened
  · intro distinct entry mem
    rcases List.mem_cons.mp mem with rfl | before
    · exact .inr ⟨id, List.mem_singleton_self id, .refl⟩
    · refine (gains.reached distinct entry before).imp_right ?_
      rintro ⟨g, isFound, reaches⟩
      obtain ⟨found', inFound, rfl⟩ := List.mem_map.mp isFound
      have imported := ((isAt.isKeptApart distinct offered) found' inFound).1
      have reaches := grows.reaches isAt.closed (imports _ imported) reaches
      refine ⟨id, List.mem_singleton_self id, .head ?_ reaches⟩
      change found'.2 ∈ ((stage'.withView id _).views id).imports
      rw [completed.view]
      exact imported

/-- A loader of files goes on from stage to stage, to whatever depth, when the one at the bottom does
so. -/
theorem progresses_loadFileFrom {bottom : Location → Loader NodeId}
    (progresses : Progresses tree bottom) (depth : Nat) :
    Progresses tree (loadFileFrom tree bottom depth) := by
  induction depth with
  | zero => exact progresses
  | succ depth ih => exact progresses_loadFileWith ih

/-- The stage in which nothing was met. -/
def Stage.start : Stage := ⟨[], fun _ => .nothing, [], []⟩

/-- Loading starts at the stage in which nothing was met. -/
theorem Stage.isAt_start : Stage.start.IsAt tree ⟨.empty, []⟩ where
  displays := Model.displays_empty _
  apart := List.nodup_nil
  files := fun _ mem => absurd mem List.not_mem_nil
  inside := fun _ mem => absurd mem List.not_mem_nil
  noted := fun _ mem => absurd mem List.not_mem_nil
  known := fun _ _ known => by cases known
  waiting := fun _ mem => absurd mem List.not_mem_nil
  named := fun _ mem => absurd mem List.not_mem_nil
  each := fun _ _ _ suffix => absurd (List.suffix_nil.mp suffix) (List.cons_ne_nil _ _)

/-- When a file was loaded, no file is open, and the file itself was completed last. -/
theorem exists_stage_of_loadFile {path : FilePath}
    (working : path.anchor = .relative → IsProper tree.workingDirectory)
    (names : ∀ part ∈ path.parts, FilePath.IsName part)
    (run : Loader.loadFile tree path ⟨.empty, []⟩ = .ok (id, s)) :
    ∃ (stage : Stage) (location : Location) (before : List (Location × NodeId)),
      stage.IsAt tree s ∧ tree.resolve path = .ok location ∧ stage.opened = [] ∧
      stage.completed = (location, id) :: before ∧
      (tree.HasDistinctStems → ∀ entry ∈ stage.completed, stage.Reaches id entry.2) := by
  obtain ⟨location, resolved, run⟩ := lift_bind_eq_ok.mp run
  have proper := isProper_resolve working names resolved
  -- The bottom is not reached, so it may as well fault.
  have bottom : Progresses tree fun _ => throw .noField := by
    intro _ _ _ _ _ _ _ _ _ run
    cases run
  rw [← loadFileFrom_eq (fun _ => throw .noField) (Nat.lt_succ_self _) proper] at run
  obtain ⟨stage, gains, isAt, before, last⟩ := progresses_loadFileFrom bottom _
    Stage.isAt_start proper rfl (fun _ mem => absurd mem List.not_mem_nil) run
  refine ⟨stage, location, before, isAt, resolved, gains.opened, last, fun distinct entry mem => ?_⟩
  rcases gains.reached distinct entry mem with before | ⟨g, given, reaches⟩
  · exact absurd before List.not_mem_nil
  · exact List.mem_singleton.mp given ▸ reaches

end Runs

end GrammarChart
