import GrammarChart.Proofs.Document.Fresh
import GrammarChart.Proofs.Files.Locations
import GrammarChart.Proofs.Json.Readable

/-!
# The depth of loading

The loaders go down to a depth that is never reached: whatever loads the documents at the bottom, a
file is loaded in the same way (`Loader.loadFileFrom_eq`), and so is a document with attached ones
(`Loader.loadAttachedFrom_eq`). What carries the induction is the number of documents that were not
met yet, which every document on the way down lowers by one. So the loaders load each document with
the imports that they load themselves (`Loader.loadFileTo_recursive`,
`Loader.loadAttached_recursive`).
-/

set_option autoImplicit false

namespace GrammarChart

namespace Loaded

/-- How many of the names are unknown. -/
def unmet (s : Loaded) (names : List String) : Nat :=
  names.countP fun name => (s.get? name).isNone

variable {s s' : Loaded} {names : List String}

/-- What stays known is not unmet. -/
theorem Stays.unmet_le (h : s.Stays s') : s'.unmet names ≤ s.unmet names := by
  refine List.countP_mono_left fun name _ absent => ?_
  rw [Option.isNone_iff_eq_none] at absent ⊢
  exact h.unknown absent

/-- When an unknown name is known, fewer names are unmet. -/
theorem Stays.unmet_lt (h : s.Stays s') {name : String} (mem : name ∈ names)
    (new : s.get? name = none) (known : s'.get? name ≠ none) :
    s'.unmet names < s.unmet names := by
  refine countP_lt_of_dropped (fun other absent => ?_) mem (by simp [new]) (by simpa using known)
  rw [Option.isNone_iff_eq_none] at absent ⊢
  exact h.unknown absent

/-- When some name is known, fewer names are unmet than there are. -/
theorem unmet_lt_length {name : String} (mem : name ∈ names) (known : s.get? name ≠ none) :
    s.unmet names < names.length := by
  refine Nat.lt_of_le_of_ne List.countP_le_length fun all => known ?_
  exact Option.isNone_iff_eq_none.mp (List.countP_eq_length.mp all name mem)

end Loaded

namespace Loader

section Congruence

variable {resolve resolve' : Resolver} {P : Loaded → Prop}

/-- The resolvers do the same in states with the property, and keep it. -/
structure AgreeOn (P : Loaded → Prop) (resolve resolve' : Resolver) : Prop where
  same : ∀ path s, P s → resolve path s = resolve' path s
  kept : ∀ path s found s', P s → resolve' path s = .ok (found, s') → P s'

/-- Resolvers that agree resolve import paths in the same way. -/
theorem importAll_congr (agree : AgreeOn P resolve resolve') (paths : List Json) :
    ∀ (imported : Imported) (s : Loaded), P s →
      importAll resolve paths imported s = importAll resolve' paths imported s := by
  induction paths with
  | nil => exact fun _ _ _ => rfl
  | cons path rest ih =>
    intro imported s holds
    rw [importAll, importAll]
    split
    · have first := agree.same path s holds
      show (resolve path s >>= fun r => _) = (resolve' path s >>= fun r => _)
      rw [first]
      cases run : resolve' path s with
      | error fault => rfl
      | ok made =>
        obtain ⟨found, s'⟩ := made
        have later := agree.kept path s found s' holds run
        cases found with
        | none => exact ih imported s' later
        | some id =>
          cases path with
          | str text => exact ih _ s' later
          | _ => rfl
    · exact ih imported s holds

/-- Resolvers that agree load a document in the same way. -/
theorem load_congr (agree : AgreeOn P resolve resolve') (value : Json) {s : Loaded} (holds : P s) :
    load resolve value s = load resolve' value s := by
  unfold load
  rw [lift_bind, lift_bind]
  refine bind_congr fun fields => ?_
  rw [lift_bind, lift_bind]
  refine bind_congr fun paths => ?_
  show (importAll resolve paths [] s >>= fun r => _) =
    (importAll resolve' paths [] s >>= fun r => _)
  rw [importAll_congr agree paths [] s holds]

end Congruence

section Files

variable {tree : FileTree}

/-- Loads a file with the files it imports, down to a depth at which files are loaded by the given
function. -/
def loadFileFrom (tree : FileTree) (bottom : Location → Loader NodeId) :
    Nat → Location → Loader NodeId
  | 0, location => bottom location
  | depth + 1, location =>
    loadFileWith tree location (fileImport tree location (loadFileFrom tree bottom depth))

/-- The names of the files of a tree. -/
def fileNames (tree : FileTree) : List String :=
  tree.entries.map fun entry => FileTree.nameOf entry.1

/-- A file that can be read at a proper location is one of the files of the tree. -/
theorem nameOf_mem_fileNames {location : Location} (proper : FileTree.IsProper location)
    {value : Json} (read : readFile tree (FileTree.absolute location) = .ok value) :
    FileTree.nameOf location ∈ fileNames tree := by
  obtain ⟨text, readText, -⟩ := GrammarChart.bind_eq_ok.mp read
  obtain ⟨content, mem⟩ := FileTree.mem_of_readText proper readText
  exact List.mem_map.mpr ⟨_, mem, rfl⟩

/-- What is known stays known when the grammar of a path is found beside a file. -/
theorem stays_fileImport {importer : Location} {depth : Nat} {path : Json} {s s' : Loaded}
    {found : Option NodeId}
    (run : fileImport tree importer (loadFileTo tree depth) path s = .ok (found, s')) :
    s.Stays s' := by
  have fresh := Traced.isFresh_fileImport tree importer
    (Traced.isFresh_loadFileTo tree depth) path s
  refine fresh.stays found s' ?_
  have erased := congrFun (Traced.loader_fileImport tree importer (Traced.loadFileTo tree depth)
    path) s
  rw [funext (Traced.loader_loadFileTo tree depth)] at erased
  exact erased.trans run

/-- Where a file is loaded that can be read and whose name is unknown, fewer names are unmet. -/
theorem unmet_enterFile_lt {location : Location} (proper : FileTree.IsProper location)
    {value : Json} (read : readFile tree (FileTree.absolute location) = .ok value)
    (fields : Fields) {s : Loaded} (new : s.get? (FileTree.nameOf location) = none) :
    (s.enterFile location fields).unmet (fileNames tree) < s.unmet (fileNames tree) := by
  refine Loaded.Stays.unmet_lt ?_ (nameOf_mem_fileNames proper read) new ?_
  · intro name known found
    rw [Loaded.get?_enterFile, if_neg, found]
    rintro rfl
    rw [new] at found
    cases found
  · simp [Loaded.get?_enterFile]

/-- A file is loaded in the same way when its imports are, once it is noted. -/
theorem loadFileWith_congr {location : Location} {resolve resolve' : Resolver} {s : Loaded}
    (same : ∀ value fields, readFile tree (FileTree.absolute location) = .ok value →
      value.fields = .ok fields → load resolve value (s.enterFile location fields) =
        load resolve' value (s.enterFile location fields)) :
    loadFileWith tree location resolve s = loadFileWith tree location resolve' s := by
  rw [loadFileWith_eq, loadFileWith_eq, lift_bind, lift_bind]
  cases read : readFile tree (FileTree.absolute location) with
  | error fault => rfl
  | ok value =>
    rw [ok_bind, ok_bind, lift_bind, lift_bind]
    cases given : value.fields with
    | error fault => rfl
    | ok fields =>
      rw [ok_bind, ok_bind]
      show (load resolve value (s.enterFile location fields) >>= fun r => _) =
        (load resolve' value (s.enterFile location fields) >>= fun r => _)
      rw [same value fields read given]

/-- The grammar of a path is found in the same way beside a file when the files of unknown names
are loaded in the same way. -/
theorem fileImport_congr {importer : Location} (proper : FileTree.IsProper importer)
    {loadFile loadFile' : Location → Loader NodeId} {s : Loaded}
    (same : ∀ location, FileTree.IsProper location → s.get? (FileTree.nameOf location) = none →
      loadFile location s = loadFile' location s) (path : Json) :
    fileImport tree importer loadFile path s = fileImport tree importer loadFile' path s := by
  cases path with
  | str path =>
    rw [fileImport_str, fileImport_str]
    cases named : importLocation tree importer path with
    | error fault => rfl
    | ok location =>
      rw [ok_bind, ok_bind]
      cases new : s.get? (FileTree.nameOf location) with
      | some known => rfl
      | none =>
        rw [Option.elim_none, Option.elim_none, unmetFile, unmetFile, lift_bind, lift_bind]
        refine bind_congr fun present => ?_
        cases present with
        | false => rfl
        | true =>
          show (loadFile location s >>= fun r => _) = (loadFile' location s >>= fun r => _)
          rw [same location (isProper_importLocation proper named) new]
  | _ => rfl

/-- To whatever depth, a file is loaded with some resolver for its imports. -/
theorem exists_loadFileTo_eq (depth : Nat) (location : Location) :
    ∃ resolve, loadFileTo tree depth location = loadFileWith tree location resolve := by
  cases depth <;> exact ⟨_, rfl⟩

/-- The bottom is not reached where fewer names are unmet than the depth allows. -/
theorem loadFileFrom_eq_of_unmet (bottom : Location → Loader NodeId) {unmet : Nat} :
    ∀ {depth depth' : Nat} {location : Location} {s : Loaded}, FileTree.IsProper location →
      s.get? (FileTree.nameOf location) = none → s.unmet (fileNames tree) ≤ unmet →
      unmet < depth → unmet ≤ depth' →
      loadFileFrom tree bottom depth location s = loadFileTo tree depth' location s := by
  induction unmet with
  | zero =>
    intro depth depth' location s proper new few deep deep'
    obtain ⟨depth, rfl⟩ := Nat.exists_eq_succ_of_ne_zero (Nat.ne_of_gt deep)
    obtain ⟨resolve, same⟩ := @exists_loadFileTo_eq tree depth' location
    rw [loadFileFrom, same]
    refine loadFileWith_congr fun value fields read _ => ?_
    have fewer := unmet_enterFile_lt proper read fields new
    omega
  | succ unmet ih =>
    intro depth depth' location s proper new few deep deep'
    obtain ⟨depth, rfl⟩ := Nat.exists_eq_succ_of_ne_zero (Nat.ne_of_gt (Nat.zero_lt_of_lt deep))
    obtain ⟨depth', rfl⟩ := Nat.exists_eq_succ_of_ne_zero (Nat.ne_of_gt (Nat.zero_lt_of_lt deep'))
    rw [loadFileFrom, loadFileTo]
    refine loadFileWith_congr fun value fields read _ => ?_
    have fewer := unmet_enterFile_lt proper read fields new
    refine load_congr (P := fun s => s.unmet (fileNames tree) ≤ unmet) ⟨?_, ?_⟩ value (by omega)
    · intro path s few'
      exact fileImport_congr proper (fun location proper' new' =>
        ih proper' new' few' (by omega) (by omega)) path
    · intro path s found s' few' run
      exact Nat.le_trans (stays_fileImport run).unmet_le few'

/-- Down to a depth of more than all files, the bottom is not reached. -/
theorem loadFileFrom_eq (bottom : Location → Loader NodeId) {depth : Nat}
    (deep : tree.entries.length < depth) {location : Location}
    (proper : FileTree.IsProper location) (s : Loaded) :
    loadFileFrom tree bottom depth location s =
      loadFileTo tree (tree.entries.length + 1) location s := by
  obtain ⟨depth, rfl⟩ := Nat.exists_eq_succ_of_ne_zero (Nat.ne_of_gt (Nat.zero_lt_of_lt deep))
  rw [loadFileFrom, loadFileTo]
  refine loadFileWith_congr fun value fields read _ => ?_
  -- The file itself is met from here on, so there is one name less.
  have fewer : (s.enterFile location fields).unmet (fileNames tree) < tree.entries.length := by
    have length : (fileNames tree).length = tree.entries.length := List.length_map _
    rw [← length]
    refine Loaded.unmet_lt_length (nameOf_mem_fileNames proper read) ?_
    simp [Loaded.get?_enterFile]
  refine load_congr (P := fun s => s.unmet (fileNames tree) < tree.entries.length) ⟨?_, ?_⟩ value
    fewer
  · intro path s few
    exact fileImport_congr proper (fun location proper' new' =>
      loadFileFrom_eq_of_unmet bottom proper' new' (Nat.le_refl _) (by omega) (by omega)) path
  · intro path s found s' few run
    exact Nat.lt_of_le_of_lt (stays_fileImport run).unmet_le few

/-- To whatever depth, a file is loaded as from the bottom where its imports are not. -/
theorem loadFileTo_eq_loadFileFrom (depth : Nat) :
    loadFileTo tree depth = loadFileFrom tree (loadFileTo tree 0) depth := by
  induction depth with
  | zero => rfl
  | succ depth ih =>
    funext location
    rw [loadFileTo, loadFileFrom, ih]

/-- The loader of files loads each file with the imports that it loads itself. -/
theorem loadFileTo_recursive {location : Location} (proper : FileTree.IsProper location)
    (s : Loaded) : loadFileTo tree (tree.entries.length + 1) location s =
      loadFileWith tree location
        (fileImport tree location (loadFileTo tree (tree.entries.length + 1))) s := by
  have deep : tree.entries.length < tree.entries.length + 2 := by omega
  rw [← loadFileFrom_eq (loadFileTo tree 0) deep proper s, loadFileFrom,
    ← loadFileTo_eq_loadFileFrom]

end Files

section Attached

variable {attached : Fields}

/-- Loads a document with imports from attached documents, down to a depth at which documents are
loaded by the given function. -/
def loadAttachedFrom (attached : Fields) (bottom : Json → Loader NodeId) :
    Nat → Json → Loader NodeId
  | 0, value => bottom value
  | depth + 1, value => load (attachedImport attached (loadAttachedFrom attached bottom depth)) value

/-- The paths of the attached documents. -/
def attachedNames (attached : Fields) : List String := attached.map Prod.fst

/-- What is known stays known when the grammar of a path is found among attached documents. -/
theorem stays_attachedImport {depth : Nat} {path : Json} {s s' : Loaded} {found : Option NodeId}
    (run : attachedImport attached (loadAttachedTo attached depth) path s = .ok (found, s')) :
    s.Stays s' := by
  have fresh := Traced.isSteady_attachedImport attached
    (Traced.isSteady_loadAttachedTo attached depth) path s
  refine fresh.stays found s' ?_
  have erased := congrFun (Traced.loader_attachedImport attached
    (Traced.loadAttachedTo attached depth) path) s
  rw [funext (Traced.loader_loadAttachedTo attached depth)] at erased
  exact erased.trans run

/-- A document that is attached under a path has its path among theirs. -/
theorem mem_attachedNames {path : String} {value : Json} (found : attached.get? path = some value) :
    path ∈ attachedNames attached :=
  List.mem_map.mpr ⟨_, Json.mem_of_get? found, rfl⟩

/-- The grammar of a path is found in the same way among attached documents when those with unknown
paths are loaded in the same way. -/
theorem attachedImport_congr {loadDocument loadDocument' : Json → Loader NodeId} {s : Loaded}
    (same : ∀ path value, attached.get? path = some value → s.get? path = none →
      loadDocument value (s.note path none) = loadDocument' value (s.note path none))
    (path : Json) :
    attachedImport attached loadDocument path s = attachedImport attached loadDocument' path s := by
  cases path with
  | str path =>
    rw [attachedImport_str, attachedImport_str]
    cases new : s.get? path with
    | some known => rfl
    | none =>
      rw [Option.elim_none, Option.elim_none, attachedDocument, attachedDocument]
      cases found : attached.get? path with
      | none => rfl
      | some value =>
        show (loadDocument value (s.note path none) >>= fun r => _) =
          (loadDocument' value (s.note path none) >>= fun r => _)
        rw [same path value found new]
  | arr _ | obj _ => rfl
  | _ => rfl

/-- The bottom is not reached where fewer paths are unmet than the depth allows. -/
theorem loadAttachedFrom_eq_of_unmet (bottom : Json → Loader NodeId) {unmet : Nat} :
    ∀ {depth depth' : Nat} {value : Json} {s : Loaded},
      s.unmet (attachedNames attached) ≤ unmet → unmet < depth → unmet < depth' →
      loadAttachedFrom attached bottom depth value s = loadAttachedTo attached depth' value s := by
  induction unmet using Nat.strong_induction_on with
  | h unmet ih =>
    intro depth depth' value s few deep deep'
    obtain ⟨depth, rfl⟩ := Nat.exists_eq_succ_of_ne_zero (Nat.ne_of_gt (Nat.zero_lt_of_lt deep))
    obtain ⟨depth', rfl⟩ := Nat.exists_eq_succ_of_ne_zero (Nat.ne_of_gt (Nat.zero_lt_of_lt deep'))
    rw [loadAttachedFrom, loadAttachedTo]
    refine load_congr (P := fun s => s.unmet (attachedNames attached) ≤ unmet) ⟨?_, ?_⟩ value few
    · intro path s few
      refine attachedImport_congr (fun path value found new => ?_) path
      have fewer := (Loaded.Stays.note new none).unmet_lt (mem_attachedNames found) new
        (by simp [Loaded.get?_note])
      exact ih _ (by omega) (Nat.le_refl _) (by omega) (by omega)
    · intro path s found s' few run
      exact Nat.le_trans (stays_attachedImport run).unmet_le few

/-- Down to a depth of more than all attached documents, the bottom is not reached. -/
theorem loadAttachedFrom_eq (bottom : Json → Loader NodeId) {depth : Nat}
    (deep : attached.length < depth) (value : Json) (s : Loaded) :
    loadAttachedFrom attached bottom depth value s =
      loadAttachedTo attached (attached.length + 1) value s := by
  have few : s.unmet (attachedNames attached) ≤ attached.length := by
    have length : (attachedNames attached).length = attached.length := List.length_map _
    exact length ▸ List.countP_le_length
  exact loadAttachedFrom_eq_of_unmet bottom few deep (Nat.lt_succ_self _)

/-- To whatever depth, a document is loaded as from the bottom where its imports are not. -/
theorem loadAttachedTo_eq_loadAttachedFrom (depth : Nat) :
    loadAttachedTo attached depth =
      loadAttachedFrom attached (loadAttachedTo attached 0) depth := by
  induction depth with
  | zero => rfl
  | succ depth ih =>
    funext value
    rw [loadAttachedTo, loadAttachedFrom, ih]

/-- The loader of attached documents loads each document with the imports that it loads itself. -/
theorem loadAttached_recursive (value : Json) (s : Loaded) :
    loadAttached attached value s =
      load (attachedImport attached (loadAttached attached)) value s := by
  have deep : attached.length < attached.length + 2 := by omega
  rw [loadAttached, ← loadAttachedFrom_eq (loadAttachedTo attached 0) deep value s,
    loadAttachedFrom, ← loadAttachedTo_eq_loadAttachedFrom]
  rfl

end Attached
end Loader
end GrammarChart
