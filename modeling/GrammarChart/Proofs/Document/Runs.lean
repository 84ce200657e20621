import GrammarChart.Proofs.Document.Loading

/-!
# Runs of loaders

What a loader does from a state on. A file that is loaded is noted under the text of its path twice:
with the grammar that stands for it when its loading starts (`Loaded.enterFile`), and with its own
grammar when its loading ends (`Loaded.leaveFile`). What is known of a name stays known of it
(`Loaded.Stays`) wherever only unknown names are noted.
-/

set_option autoImplicit false

namespace GrammarChart

/-- The name that the grammar of the file at a location is noted under. -/
def FileTree.nameOf (location : Location) : String := (absolute location).text

namespace Loaded

/-- The state in which the loading of a file starts, when the fields of its document are given. -/
def enterFile (location : Location) (fields : Fields) (s : Loaded) : Loaded :=
  { s with
    model := (s.model.add (.ofShape (.grammar (.standIn
      (.value ((fields.getD "name" .null).orElse (.str (FileTree.absolute location).stem)))
      (.value (.str (FileTree.nameOf location))))) .nothing)).1 }.note
    (FileTree.nameOf location) (some ⟨s.model.nodes.length⟩)

/-- The state in which the loading of a file ends, when its grammar is given. -/
def leaveFile (location : Location) (id : NodeId) (s : Loaded) : Loaded :=
  { s with
    model := s.model.updateGrammar id fun g =>
      { g with name := g.name.orElse (.value (.str (FileTree.absolute location).stem)),
               path := .value (.str (FileTree.nameOf location)) } }.note
    (FileTree.nameOf location) (some id)

/-- What is known of a name stays known of it. -/
def Stays (s s' : Loaded) : Prop :=
  ∀ name known, s.get? name = some known → s'.get? name = some known

variable {s s' s'' : Loaded}

/-- All that is known stays as it is where nothing happens. -/
theorem Stays.refl (s : Loaded) : s.Stays s := fun _ _ h => h

/-- What stays and then stays again stays. -/
theorem Stays.trans (h : s.Stays s') (k : s'.Stays s'') : s.Stays s'' :=
  fun name known found => k name known (h name known found)

/-- What is unknown in the end was unknown before. -/
theorem Stays.unknown (h : s.Stays s') {name : String} (absent : s'.get? name = none) :
    s.get? name = none := by
  cases found : s.get? name with
  | none => rfl
  | some known =>
    rw [h name known found] at absent
    cases absent

/-- A note is found under its name, and nothing else changes. -/
theorem get?_note (s : Loaded) (name other : String) (grammar : Option NodeId) :
    (s.note name grammar).get? other = if name = other then some grammar else s.get? other := by
  by_cases same : name = other <;> simp [get?, note, same]

/-- When the loading of a file starts, the grammar that stands for it is noted. -/
theorem get?_enterFile (location : Location) (fields : Fields) (s : Loaded) (other : String) :
    (s.enterFile location fields).get? other =
      if FileTree.nameOf location = other then some (some ⟨s.model.nodes.length⟩)
      else s.get? other :=
  get?_note _ _ _ _

/-- When the loading of a file ends, its grammar is noted. -/
theorem get?_leaveFile (location : Location) (id : NodeId) (s : Loaded) (other : String) :
    (s.leaveFile location id).get? other =
      if FileTree.nameOf location = other then some (some id) else s.get? other :=
  get?_note _ _ _ _

/-- A note under an unknown name leaves what is known as it is. -/
theorem Stays.note {name : String} (new : s.get? name = none) (grammar : Option NodeId) :
    s.Stays (s.note name grammar) := by
  intro other known found
  rw [get?_note, if_neg, found]
  rintro rfl
  rw [new] at found
  cases found

end Loaded

namespace Loader

/-- A file is loaded by reading it, noting what stands for it, loading its document and noting its
grammar. -/
theorem loadFileWith_eq (tree : FileTree) (location : Location) (resolve : Resolver) :
    loadFileWith tree location resolve = (do
      let value ← readFile tree (FileTree.absolute location)
      let fields ← value.fields
      modify (Loaded.enterFile location fields)
      let id ← load resolve value
      modify (Loaded.leaveFile location id)
      return id) := rfl

/-- Finds the grammar of a file that was not met before. -/
def unmetFile (tree : FileTree) (loadFile : Location → Loader NodeId) (location : Location) :
    Loader (Option NodeId) := do
  if ← tree.contains (FileTree.absolute location) then return some (← loadFile location)
  else return none

/-- A path beside a file has what is known for the location that it names, or else is found
there. -/
theorem fileImport_str (tree : FileTree) (importer : Location)
    (loadFile : Location → Loader NodeId) (path : String) (s : Loaded) :
    fileImport tree importer loadFile (.str path) s =
      importLocation tree importer path >>= fun location =>
        ((s.get? (FileTree.nameOf location)).elim (unmetFile tree loadFile location) pure) s := by
  rw [fileImport, lift_bind]
  refine bind_congr fun location => ?_
  rw [get_bind]
  unfold FileTree.nameOf
  cases s.get? (FileTree.absolute location).text <;> rfl

section Inversion

variable {resolve : Resolver} {tree : FileTree} {s s' : Loaded} {id : NodeId}

/-- The fields of a document are those of its written object. -/
theorem eq_of_fieldsOf {fields fields' : Fields}
    (h : Document.fieldsOf (.obj fields) = .ok fields') : fields' = fields := by
  obtain ⟨_, ⟨⟩, h⟩ := GrammarChart.bind_eq_ok.mp h
  split at h <;> cases h <;> rfl

/-- A document was loaded by resolving what it imports and linking it to the grammars that were
found. -/
theorem exists_of_load {value : Json} (run : load resolve value s = .ok (id, s')) :
    ∃ fields paths found between document model,
      Document.fieldsOf value = .ok fields ∧ Document.importPaths fields = .ok paths ∧
      resolveAll resolve paths s = .ok (found, between) ∧ Document.ofFields fields = .ok document ∧
      document.link fields (Imported.insertAll [] found) between.model = .ok (model, id) ∧
      s' = { between with model := model } := by
  unfold load at run
  obtain ⟨fields, isGrammar, run⟩ := lift_bind_eq_ok.mp run
  obtain ⟨paths, isPaths, run⟩ := lift_bind_eq_ok.mp run
  rw [importAll_eq, bind_assoc] at run
  obtain ⟨found, between, resolved, run⟩ := bind_eq_ok.mp run
  rw [pure_bind] at run
  obtain ⟨document, read, run⟩ := lift_bind_eq_ok.mp run
  obtain ⟨_, _, ⟨⟩, run⟩ := bind_eq_ok.mp run
  obtain ⟨⟨model, made⟩, linked, run⟩ := lift_bind_eq_ok.mp run
  cases run
  exact ⟨fields, paths, found, between, document, model, isGrammar, isPaths, resolved, read, linked,
    rfl⟩

/-- Import paths were resolved one by one: one that is not present was passed over, and so was one
without a grammar. -/
theorem exists_of_resolveAll_cons {path : Json} {rest : List Json}
    {found : List (String × NodeId)}
    (run : resolveAll resolve (path :: rest) s = .ok (found, s')) :
    path.isPresent = false ∧ resolveAll resolve rest s = .ok (found, s') ∨
      path.isPresent = true ∧ ∃ between, (resolve path s = .ok (none, between) ∧
        resolveAll resolve rest between = .ok (found, s') ∨
        ∃ text id others, path = .str text ∧ resolve path s = .ok (some id, between) ∧
          resolveAll resolve rest between = .ok (others, s') ∧ found = (text, id) :: others) := by
  rw [resolveAll] at run
  split at run
  · next present =>
    obtain ⟨grammar, between, resolved, run⟩ := bind_eq_ok.mp run
    refine .inr ⟨present, between, ?_⟩
    cases grammar with
    | none => exact .inl ⟨resolved, run⟩
    | some id =>
      cases path with
      | str text =>
        obtain ⟨others, last, later, run⟩ := bind_eq_ok.mp run
        cases run
        exact .inr ⟨text, id, others, rfl, resolved, later, rfl⟩
      | _ => cases run
  · next absent => exact .inl ⟨by simpa using absent, run⟩

/-- A file was loaded by reading it and loading its document. -/
theorem exists_of_loadFileWith {location : Location}
    (run : loadFileWith tree location resolve s = .ok (id, s')) :
    ∃ fields between, readFile tree (FileTree.absolute location) = .ok (.obj fields) ∧
      load resolve (.obj fields) (s.enterFile location fields) = .ok (id, between) ∧
      s' = between.leaveFile location id := by
  rw [loadFileWith_eq] at run
  obtain ⟨value, read, run⟩ := lift_bind_eq_ok.mp run
  obtain ⟨fields, given, run⟩ := lift_bind_eq_ok.mp run
  obtain ⟨_, _, ⟨⟩, run⟩ := bind_eq_ok.mp run
  obtain ⟨made, between, loaded, run⟩ := bind_eq_ok.mp run
  obtain ⟨_, _, ⟨⟩, run⟩ := bind_eq_ok.mp run
  cases run
  cases value with
  | obj fields' =>
    cases given
    exact ⟨fields, between, read, loaded, rfl⟩
  | _ => cases given

/-- How the grammar of a path was found beside a file: it was known, there is no file, or the file
was loaded. -/
theorem exists_of_fileImport {importer : Location} {loadFile : Location → Loader NodeId}
    {path : Json} {found : Option NodeId}
    (run : fileImport tree importer loadFile path s = .ok (found, s')) :
    ∃ text location, path = .str text ∧ importLocation tree importer text = .ok location ∧
      (s.get? (FileTree.nameOf location) = some found ∧ s' = s ∨
        s.get? (FileTree.nameOf location) = none ∧
          (tree.contains (FileTree.absolute location) = .ok false ∧ found = none ∧ s' = s ∨
            tree.contains (FileTree.absolute location) = .ok true ∧
              ∃ id, found = some id ∧ loadFile location s = .ok (id, s'))) := by
  cases path with
  | str text =>
    rw [fileImport_str] at run
    obtain ⟨location, named, run⟩ := GrammarChart.bind_eq_ok.mp run
    refine ⟨text, location, rfl, named, ?_⟩
    cases known : s.get? (FileTree.nameOf location) with
    | some grammar =>
      rw [known] at run
      cases run
      exact .inl ⟨rfl, rfl⟩
    | none =>
      rw [known] at run
      obtain ⟨present, contained, run⟩ := lift_bind_eq_ok.mp run
      cases present with
      | false =>
        cases run
        exact .inr ⟨rfl, .inl ⟨contained, rfl, rfl⟩⟩
      | true =>
        obtain ⟨made, _, loaded, run⟩ := bind_eq_ok.mp run
        cases run
        exact .inr ⟨rfl, .inr ⟨contained, made, rfl, loaded⟩⟩
  | _ => cases run

end Inversion

end Loader
end GrammarChart
