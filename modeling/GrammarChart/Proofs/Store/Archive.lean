import Mathlib
import GrammarChart.Proofs.Files.Writing
import GrammarChart.Proofs.Json.Readable
import GrammarChart.Proofs.Json.Sorting
import GrammarChart.Proofs.Store.DocumentName
import GrammarChart.Store.Basic

/-!
# The files of a store

A store holds entries in memory and keeps a state file and one file for each diagram. `Keeps` says
what the files of a directory hold: the entries that the state file is read as, and the texts of the
diagrams. Storing a diagram files its entry, brings the state file up to date and replaces the text
of one diagram (`Keeps.put`); saving brings the state file up to date (`Keeps.save`); opening a store
takes over the entries of the state file (`Keeps.openAt`).
-/

set_option autoImplicit false

namespace GrammarChart

open FileTree

namespace DocumentName

/-- The text is the name of a document. -/
def IsName (name : String) : Prop :=
  ∃ address, name = ofAddress address

/-- The name of the file of a diagram. -/
def fileName (name : String) : String :=
  name ++ ".pu"

theorem isFileName_fileName {name : String} (h : IsName name) :
    FilePath.IsFileName (fileName name) := by
  obtain ⟨address, rfl⟩ := h
  have letters : (fileName (ofAddress address)).toList =
      (ofAddress address).toList ++ ['.', 'p', 'u'] := by
    simp [fileName]
  have long : 3 ≤ (fileName (ofAddress address)).toList.length := by
    rw [letters, List.length_append]
    simp
  have safe : ∀ c ∈ (fileName (ofAddress address)).toList, isSafe c = true := by
    intro c mem
    rw [letters] at mem
    rcases List.mem_append.mp mem with inName | suffix
    · exact isSafe_of_mem_ofAddress inName
    · simp only [List.mem_cons, List.not_mem_nil, or_false] at suffix
      rcases suffix with rfl | rfl | rfl <;> rfl
  refine ⟨⟨?_, ?_, ?_⟩, ?_, ?_⟩
  · intro empty
    rw [empty] at long
    simp at long
  · intro point
    rw [point] at long
    simp at long
  · exact fun slash => absurd (safe _ slash) (by decide)
  · intro step
    rw [step] at long
    simp at long
  · exact fun null => absurd (safe _ null) (by decide)

/-- Different names have different files. -/
theorem fileName_injective {name other : String} (h : fileName name = fileName other) :
    name = other :=
  String.append_left_inj _ |>.mp h

/-- No diagram has the state file for its file. -/
theorem fileName_ne_stateFileName (name : String) : fileName name ≠ Store.stateFileName := by
  intro same
  have last := congrArg (fun text => text.toList.getLast?) same
  simp [fileName, Store.stateFileName] at last

end DocumentName

namespace Store

theorem isFileName_stateFileName : FilePath.IsFileName stateFileName := by
  refine ⟨⟨by decide, by decide, ?_⟩, by decide, ?_⟩ <;> simp [stateFileName]

/-- The store with the given entries in memory. -/
def holding (directory : FilePath) (held : Fields) : Store :=
  ⟨directory, .ofJson (.obj held)⟩

theorem toJson_ofJson_obj (held : Fields) : (StoreState.ofJson (.obj held)).toJson = .obj held := by
  simp [StoreState.ofJson, StoreState.toJson, Entries.toJson, Json.keyText, Function.comp_def]

theorem entries_get? (held : Fields) (name : String) :
    Entries.get? (held.map fun (key, entry) => (.str key, entry)) (.str name) =
      held.get? name := by
  induction held with
  | nil => rfl
  | cons field rest ih =>
    obtain ⟨key, entry⟩ := field
    simp only [List.map_cons, Entries.get?, Json.sameAtom_str, beq_iff_eq, Fields.get?, ih]

theorem entries_insert (held : Fields) (name : String) (entry : Json) :
    Entries.insert (held.map fun (key, entry) => (.str key, entry)) (.str name) entry =
      (held.insert name entry).map fun (key, entry) => (.str key, entry) := by
  induction held with
  | nil => rfl
  | cons field rest ih =>
    obtain ⟨key, e⟩ := field
    simp only [List.map_cons, Entries.insert, Json.sameAtom_str, beq_iff_eq, Fields.insert, ih]
    split <;> rfl

@[simp] theorem get?_holding (directory : FilePath) (held : Fields) (name : String) :
    (holding directory held).get? (.str name) = .ok (held.get? name) := by
  simp [holding, Store.get?, StoreState.ofJson, Json.isAtom, entries_get?]

section Listing

variable {held : Fields} {name : String × Json → String}

/-- An entry with its name for a key. -/
def keyed (name : String × Json → String) (field : String × Json) : Json × Json :=
  (.str (name field), field.2)

theorem mapM_entryName (names : ∀ field ∈ held, entryName field.2 = .ok (.str (name field))) :
    (held.map fun (key, entry) => (Json.str key, entry)).mapM
        (fun x => (do return (← entryName x.2, x.2) : Except Fault (Json × Json))) =
      .ok (held.map (keyed name)) := by
  induction held with
  | nil => rfl
  | cons field rest ih =>
    rw [List.forall_mem_cons] at names
    have others := ih names.2
    simp only [List.map_cons, List.mapM_cons, names.1, ok_bind] at others ⊢
    rw [others]
    rfl

/-- Entries that have texts for names are listed by their names. -/
theorem exists_entries (names : ∀ field ∈ held, entryName field.2 = .ok (.str (name field)))
    (directory : FilePath) : ∃ sorted : Fields, sorted.Perm held ∧
      sorted.Pairwise (fun a b => name a ≤ name b) ∧
      (holding directory held).entries = .ok (sorted.map Prod.snd) := by
  obtain ⟨pairs, sort, perm, ascends⟩ := @Json.exists_sortBy? _ Prod.fst
    (fun pair : Json × Json => pair.1.text?.getD "") (held.map (keyed name)) (by
      intro pair mem
      obtain ⟨field, -, rfl⟩ := List.mem_map.mp mem
      rfl)
  -- what is sorted are the keyed fields, so it comes from sorted fields
  have same : List.Forall₂ (fun pair field => pair = keyed name field)
      (held.map (keyed name)) held := by
    rw [List.forall₂_map_left_iff]
    exact List.forall₂_same.mpr fun _ _ => rfl
  obtain ⟨sorted, keyedSorted, perm'⟩ := List.perm_comp_forall₂ perm same
  rw [← List.forall₂_map_right_iff (f := keyed name), List.forall₂_eq_eq_eq] at keyedSorted
  subst keyedSorted
  rw [Json.Ascends, List.pairwise_map] at ascends
  refine ⟨sorted, perm', ascends, ?_⟩
  have state : (holding directory held).state =
      .entries (held.map fun (key, entry) => (.str key, entry)) := rfl
  rw [Store.entries, state]
  refine (congrArg (fun pairs => pairs >>= _) (mapM_entryName names)).trans ?_
  rw [ok_bind, sort]
  dsimp only
  rw [List.map_map]
  rfl

end Listing

/-- The value that a state file with the content counts as: none of its own if its text is
malformed. -/
def valueOf (content : Content) : Except Fault Json :=
  match content.reading with
  | .error fault => .error (.undecodable fault)
  | .ok text =>
    match Json.read text with
    | .ok value => .ok value
    | .error (.malformed ..) => .ok (.obj [])
    | .error (.numeralTooLong digits) => .error (.numeralTooLong digits)

theorem valueOf_plain {text : String} {value : Json} (plain : '\r' ∉ text.toList)
    (read : Json.read text = .ok value) : valueOf (.plain text) = .ok value := by
  rw [valueOf, Content.reading_plain plain]
  dsimp only
  rw [read]

/-- Opening a store takes over the value of the state file. -/
theorem openAt_of_stored {tree : FileTree} {directory : FilePath} {location : Location}
    {content : Content} (dir : IsDirectoryAt tree directory location)
    (fits : Fits directory stateFileName)
    (stored : tree.get? (location ++ [stateFileName]) = some (.file content)) :
    openAt tree directory = (valueOf content).map fun value => ⟨directory, .ofJson value⟩ := by
  have there := dir.contains isFileName_stateFileName fits
  have content' := dir.readContent isFileName_stateFileName fits stored
  have read : readState tree (statePath directory) = valueOf content := by
    rw [readState, statePath, there, ok_bind, stored, content', valueOf]
    simp only [Option.isSome_some, if_true]
    cases content.reading with
    | error fault => rfl
    | ok text =>
      dsimp only [Except.mapError]
      cases Json.read text with
      | ok value => rfl
      | error fault => cases fault <;> rfl
  rw [openAt, read]
  cases valueOf content <;> rfl

/-- The diagram can be stored: its name is a text that makes one for a file of the directory, no
directory stands in the way of the file, and the diagram is a text. -/
structure IsStorable (tree : FileTree) (directory : FilePath) (location : Location)
    (filing : Filing) (name text : String) : Prop where
  named : filing.name = .str name
  drawn : filing.diagram = .str text
  good : FilePath.IsFileName (DocumentName.fileName name)
  fits : Fits directory (DocumentName.fileName name)
  free : tree.get? (location ++ [DocumentName.fileName name]) ≠ some .directory

/-- A diagram of no rules. -/
def blank : Filing := ⟨.str "a", .str "a", .str "@startuml\n@enduml\n", .str "", .int 0⟩

theorem isFileName_blank : FilePath.IsFileName (DocumentName.fileName "a") := by
  refine ⟨⟨by decide, by decide, ?_⟩, by decide, ?_⟩ <;> simp [DocumentName.fileName]

section Storing

variable {tree : FileTree} {directory : FilePath} {location : Location} {filing : Filing}
  {name text : String}

/-- The file of a diagram is not the state file. -/
theorem get?_state_put (tree : FileTree) (location : Location) (name : String) (entry : Entry) :
    (tree.put (location ++ [DocumentName.fileName name]) entry).get?
      (location ++ [stateFileName]) = tree.get? (location ++ [stateFileName]) := by
  have apart := DocumentName.fileName_ne_stateFileName name
  rw [FileTree.get?_put _ _ _ _ (by simp), if_neg (by simpa using apart)]

theorem diagramPath_of_text (store : Store) (isText : filing.name = .str name) :
    store.diagramPath filing.name =
      store.directory.join (.ofText (DocumentName.fileName name)) := by
  rw [diagramPath, isText]
  rfl

/-- The text of a diagram that can be stored replaces that of its file. -/
theorem writeDiagram_of_storable (dir : IsDirectoryAt tree directory location)
    (storable : IsStorable tree directory location filing name text) (state : StoreState) :
    writeDiagram ⟨directory, state⟩ tree filing =
      (tree.put (location ++ [DocumentName.fileName name]) (.file (.plain text)), none) := by
  rw [writeDiagram, diagramPath_of_text _ storable.named, storable.drawn]
  exact dir.writeAfterMaking storable.good storable.fits storable.free text

/-- Saving writes the entries to the state file. -/
theorem save_holding (dir : IsDirectoryAt tree directory location)
    (fits : Fits directory stateFileName)
    (free : tree.get? (location ++ [stateFileName]) ≠ some .directory) (held : Fields) :
    (holding directory held).save tree = (tree.put (location ++ [stateFileName])
      (.file (.plain ((Json.obj held).indented 0))), none) := by
  rw [save, holding, toJson_ofJson_obj, statePath]
  exact dir.writeAfterMaking isFileName_stateFileName fits free _

theorem file_holding (isText : filing.name = .str name) (held : Fields) (now : String) :
    (holding directory held).file filing now =
      .ok (holding directory (held.insert name (filing.entry now))) := by
  simp only [file, holding, StoreState.ofJson, isText, Json.isAtom, if_true, entries_insert]

/-- Storing a diagram files its entry, and replaces the text of its file and of the state file. -/
theorem put_of_storable (dir : IsDirectoryAt tree directory location)
    (fits : Fits directory stateFileName)
    (free : tree.get? (location ++ [stateFileName]) ≠ some .directory)
    (storable : IsStorable tree directory location filing name text) (held : Fields)
    (now : String) :
    (holding directory held).put tree filing now =
      ⟨holding directory (held.insert name (filing.entry now)),
        (tree.put (location ++ [DocumentName.fileName name]) (.file (.plain text))).put
          (location ++ [stateFileName])
          (.file (.plain ((Json.obj (held.insert name (filing.entry now))).indented 0))),
        .ok (filing.entry now)⟩ := by
  have free' : (tree.put (location ++ [DocumentName.fileName name]) (.file (.plain text))).get?
      (location ++ [stateFileName]) ≠ some .directory := by
    rw [get?_state_put]
    exact free
  have saved := save_holding (dir.put storable.free (.plain text)) fits free'
    (held.insert name (filing.entry now))
  have written := writeDiagram_of_storable dir storable (.ofJson (.obj held))
  rw [← holding] at written
  rw [put, written]
  dsimp only
  rw [file_holding storable.named]
  dsimp only
  rw [saved]

/-- The text of a diagram is read with its line ends unified. -/
theorem readDiagram_of_file (dir : IsDirectoryAt tree directory location) (state : StoreState)
    (good : FilePath.IsFileName (DocumentName.fileName name))
    (fits : Fits directory (DocumentName.fileName name))
    (file : tree.get? (location ++ [DocumentName.fileName name]) = some (.file (.plain text))) :
    readDiagram ⟨directory, state⟩ tree (.str name) = .ok (some (Text.unifyLineEnds text)) := by
  have path : diagramPath ⟨directory, state⟩ (.str name) =
      directory.join (.ofText (DocumentName.fileName name)) := rfl
  rw [readDiagram, path, dir.contains good fits, ok_bind, file, dir.readText good fits file]
  rfl

end Storing

/-- A store opens on the entries that were saved, as they are read back. -/
theorem openAt_of_saved {tree : FileTree} {directory : FilePath} {location : Location}
    {held : Fields} (dir : IsDirectoryAt tree directory location)
    (fits : Fits directory stateFileName) (writable : (Json.obj held).IsWritable)
    (saved : tree.get? (location ++ [stateFileName]) =
      some (.file (.plain ((Json.obj held).indented 0)))) :
    openAt tree directory = .ok (holding directory (Json.readBackFields held)) := by
  have plain := Json.return_not_mem_indented (.obj held) 0
  rw [openAt_of_stored dir fits saved, valueOf_plain plain (Json.read_indented writable)]
  rfl

/-- What the files of a store hold: the entries that the state file is read as, and the texts of
the diagrams by the names of their documents. A state file that is missing has no entries. -/
structure Keeps (tree : FileTree) (directory : FilePath) (location : Location) (saved : Fields)
    (texts : String → Option String) : Prop where
  dir : IsDirectoryAt tree directory location
  state : (tree.get? (location ++ [stateFileName]) = none ∧ saved = []) ∨
    ∃ text, tree.get? (location ++ [stateFileName]) = some (.file (.plain text)) ∧
      '\r' ∉ text.toList ∧ Json.read text = .ok (.obj saved)
  diagrams : ∀ name, DocumentName.IsName name →
    tree.get? (location ++ [DocumentName.fileName name]) =
      (texts name).map fun text => .file (.plain text)

/-- An entry can be written when the name of its grammar and the number of its rules can. -/
theorem isWritable_entry {name address diagram now : String} {grammar rules : Json}
    (h : grammar.IsWritable) (h' : rules.IsWritable) :
    (Filing.entry ⟨.str name, .str address, .str diagram, grammar, rules⟩ now).IsWritable :=
  ⟨by simp [Fields.keys], trivial, trivial, h, h', trivial, trivial⟩

namespace Keeps

variable {tree : FileTree} {directory : FilePath} {location : Location} {saved held : Fields}
  {texts : String → Option String} {name : String}

/-- An empty directory holds no entries and no diagrams. -/
theorem empty (h : IsEmptyDirectoryAt tree directory location) :
    Keeps tree directory location [] fun _ => none :=
  ⟨h.toIsDirectoryAt, .inl ⟨h.nothing _ (by simp), rfl⟩, fun _ _ => h.nothing _ (by simp)⟩

theorem state_ne_directory (h : Keeps tree directory location saved texts) :
    tree.get? (location ++ [stateFileName]) ≠ some .directory := by
  rcases h.state with ⟨missing, -⟩ | ⟨text, file, -, -⟩
  · simp [missing]
  · simp [file]

theorem diagram_ne_directory (h : Keeps tree directory location saved texts)
    (named : DocumentName.IsName name) :
    tree.get? (location ++ [DocumentName.fileName name]) ≠ some .directory := by
  rw [h.diagrams name named]
  cases texts name <;> simp

/-- Writing a diagram replaces one text. -/
theorem writeDiagram (h : Keeps tree directory location saved texts)
    (named : DocumentName.IsName name) (text : String) :
    Keeps (tree.put (location ++ [DocumentName.fileName name]) (.file (.plain text))) directory
      location saved (Function.update texts name (some text)) := by
  refine ⟨h.dir.put (h.diagram_ne_directory named) _, ?_, ?_⟩
  · rw [get?_state_put]
    exact h.state
  · intro other isName
    rw [FileTree.get?_put _ _ _ _ (by simp)]
    by_cases same : other = name
    · subst same
      simp
    · have different : DocumentName.fileName name ≠ DocumentName.fileName other :=
        fun files => same (DocumentName.fileName_injective files).symm
      rw [if_neg (by simpa using different), Function.update_of_ne same]
      exact h.diagrams other isName

/-- Writing the state file brings it up to date. -/
theorem writeState (h : Keeps tree directory location saved texts)
    (writable : (Json.obj held).IsWritable) :
    Keeps (tree.put (location ++ [stateFileName]) (.file (.plain ((Json.obj held).indented 0))))
      directory location (Json.readBackFields held) texts := by
  refine ⟨h.dir.put h.state_ne_directory _, .inr ⟨(Json.obj held).indented 0, ?_, ?_, ?_⟩, ?_⟩
  · rw [FileTree.get?_put _ _ _ _ (by simp), if_pos rfl]
  · exact Json.return_not_mem_indented _ 0
  · exact Json.read_indented writable
  · intro other isName
    have apart := (DocumentName.fileName_ne_stateFileName other).symm
    rw [FileTree.get?_put _ _ _ _ (by simp), if_neg (by simpa using apart)]
    exact h.diagrams other isName

/-- Saving a store brings its state file up to date. -/
theorem save (h : Keeps tree directory location saved texts)
    (writable : (Json.obj held).IsWritable) (fits : Fits directory stateFileName) :
    ∃ after, (holding directory held).save tree = (after, none) ∧
      Keeps after directory location (Json.readBackFields held) texts :=
  ⟨_, save_holding h.dir fits h.state_ne_directory held, h.writeState writable⟩

/-- Storing a diagram files its entry in memory and in the state file, and replaces its text. -/
theorem put (h : Keeps tree directory location saved texts) (named : DocumentName.IsName name)
    {address diagram now : String} {grammar rules : Json}
    (fits : Fits directory (DocumentName.fileName name)) (fits' : Fits directory stateFileName)
    (writable : (Json.obj (held.insert name
      (Filing.entry ⟨.str name, .str address, .str diagram, grammar, rules⟩ now))).IsWritable) :
    let filing : Filing := ⟨.str name, .str address, .str diagram, grammar, rules⟩
    ∃ after, (holding directory held).put tree filing now =
        ⟨holding directory (held.insert name (filing.entry now)), after, .ok (filing.entry now)⟩ ∧
      Keeps after directory location
        (Json.readBackFields (held.insert name (filing.entry now)))
        (Function.update texts name (some diagram)) := by
  intro filing
  have storable : IsStorable tree directory location filing name diagram :=
    ⟨rfl, rfl, DocumentName.isFileName_fileName named, fits, h.diagram_ne_directory named⟩
  refine ⟨_, put_of_storable h.dir fits' h.state_ne_directory storable held now, ?_⟩
  exact (h.writeDiagram named diagram).writeState writable

/-- Opening a store takes over the entries of the state file. -/
theorem openAt (h : Keeps tree directory location saved texts)
    (fits : Fits directory stateFileName) :
    Store.openAt tree directory = .ok (holding directory saved) := by
  rcases h.state with ⟨missing, rfl⟩ | ⟨text, file, plain, value⟩
  · have there := h.dir.contains isFileName_stateFileName fits
    rw [missing] at there
    rw [Store.openAt, readState, statePath, there]
    rfl
  · rw [openAt_of_stored h.dir fits file, valueOf_plain plain value]
    rfl

/-- The text of a diagram is read with its line ends unified. -/
theorem readDiagram (h : Keeps tree directory location saved texts)
    (named : DocumentName.IsName name) (fits : Fits directory (DocumentName.fileName name)) :
    (holding directory held).readDiagram tree (.str name) =
      .ok ((texts name).map Text.unifyLineEnds) := by
  have good := DocumentName.isFileName_fileName named
  have file := h.diagrams name named
  cases text : texts name with
  | none =>
    have path : (holding directory held).diagramPath (.str name) =
        directory.join (.ofText (DocumentName.fileName name)) := rfl
    rw [text] at file
    rw [Store.readDiagram, path, h.dir.contains good fits, file, ok_bind]
    rfl
  | some diagram =>
    rw [text] at file
    exact readDiagram_of_file h.dir (.ofJson (.obj held)) good fits file

end Keeps

end Store
end GrammarChart
