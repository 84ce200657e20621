import Mathlib
import GrammarChart.Proofs.Service.Failures

/-!
# Confinement of the service

Whatever is submitted, the service changes the state file and the files of the documents that were
submitted, all of them directly in its directory (`IsConfined.take`). That holds whether the file
operations succeed or not. The entries in memory are those of submitted documents, so a diagram of
any other name is not found, whatever files there are (`IsConfined.diagram`).
-/

set_option autoImplicit false

namespace GrammarChart

open FileTree Store

/-- The names of the documents that were submitted. -/
def submittedNames (arrivals : List Arrival) : List String :=
  arrivals.filterMap fun arrival => arrival.request.submission?.map Submission.name

/-- Only the state file and the files of the given names differ between the trees. -/
def DiffersIn (location : Location) (names : List String) (tree other : FileTree) : Prop :=
  ∀ place, other.get? place ≠ tree.get? place →
    place = location ++ [stateFileName] ∨
      ∃ name ∈ names, place = location ++ [DocumentName.fileName name]

/-- The name of a document that was submitted is the only one of its request. -/
theorem submittedNames_singleton {arrival : Arrival} {submission : Submission}
    (posted : arrival.request.submission? = some submission) :
    submittedNames [arrival] = [submission.name] := by
  simp [submittedNames, posted]

namespace DiffersIn

variable {location : Location} {names more : List String} {tree between other : FileTree}

/-- A tree does not differ from itself. -/
theorem refl (location : Location) (names : List String) (tree : FileTree) :
    DiffersIn location names tree tree :=
  fun _ different => absurd rfl different

/-- What differs in the files of the names differs in those of further names. -/
theorem mono (h : DiffersIn location names tree other) (subset : names ⊆ more) :
    DiffersIn location more tree other := fun place different =>
  (h place different).imp_right fun ⟨name, mem, same⟩ => ⟨name, subset mem, same⟩

/-- Differences in the files of the names add up. -/
theorem trans (first : DiffersIn location names tree between)
    (second : DiffersIn location names between other) : DiffersIn location names tree other := by
  intro place different
  by_cases here : other.get? place = between.get? place
  · exact first place (here ▸ different)
  · exact second place here

end DiffersIn

/-- The path leads to a directory in which no name is one of a directory. -/
structure IsFlatAt (tree : FileTree) (directory : FilePath) (location : Location) : Prop
    extends IsDirectoryAt tree directory location where
  flat : ∀ name, tree.get? (location ++ [name]) ≠ some .directory

namespace IsFlatAt

variable {tree : FileTree} {directory : FilePath} {location : Location} {name : String}

/-- A file in the directory leaves it flat. -/
theorem put (h : IsFlatAt tree directory location) (name : String) (content : Content) :
    IsFlatAt (tree.put (location ++ [name]) (.file content)) directory location where
  toIsDirectoryAt := h.toIsDirectoryAt.put (h.flat name) content
  flat := by
    intro other
    rw [FileTree.get?_put _ _ _ _ (by simp)]
    split
    · simp
    · exact h.flat other

/-- Writing to a file of the directory leaves it flat and changes this file only. -/
theorem writeAfterMaking (h : IsFlatAt tree directory location) (good : FilePath.IsFileName name)
    (text : String) : ∃ after fault,
      tree.writeAfterMaking directory (directory.join (.ofText name)) (.ok text) = (after, fault) ∧
      IsFlatAt after directory location ∧
      ∀ place, after.get? place ≠ tree.get? place → place = location ++ [name] := by
  rcases h.writeAfterMaking_cases good text with ⟨-, -, changed⟩ | ⟨fault, kept⟩
  · refine ⟨_, none, changed, h.put name _, fun place different => ?_⟩
    by_contra other
    rw [FileTree.get?_put _ _ _ _ (by simp), if_neg (Ne.symm other)] at different
    exact different rfl
  · exact ⟨tree, some fault, kept, h, fun place different => absurd rfl different⟩

end IsFlatAt

section Put

variable {tree : FileTree} {directory : FilePath} {location : Location} {held : Fields}
  {name : String}

/-- Saving a store changes the state file only. -/
theorem Store.save_differsIn (held : Fields) (h : IsFlatAt tree directory location)
    (names : List String) :
    ∃ after fault, (holding directory held).save tree = (after, fault) ∧
      IsFlatAt after directory location ∧ DiffersIn location names tree after := by
  obtain ⟨after, fault, saved, flat, differs⟩ := h.writeAfterMaking isFileName_stateFileName
    ((StoreState.ofJson (.obj held)).toJson.indented 0)
  exact ⟨after, fault, saved, flat, fun place different => .inl (differs place different)⟩

/-- Storing a diagram, whether that succeeds or not, changes the state file and the file of its
document, and files no entry under another name. -/
theorem Store.put_differsIn (held : Fields) (address diagram now : String)
    (grammar rules : Json) (h : IsFlatAt tree directory location)
    (named : DocumentName.IsName name) :
    let filed := (holding directory held).put tree
      ⟨.str name, .str address, .str diagram, grammar, rules⟩ now
    ∃ held', filed.store = holding directory held' ∧
      (∀ key ∈ held'.keys, key ∈ held.keys ∨ key = name) ∧
      IsFlatAt filed.tree directory location ∧ DiffersIn location [name] tree filed.tree := by
  intro filed
  obtain ⟨between, fault, written, flat, first⟩ :=
    h.writeAfterMaking (DocumentName.isFileName_fileName named) diagram
  have inFile : DiffersIn location [name] tree between := fun place different =>
    .inr ⟨name, List.mem_singleton_self name, first place different⟩
  have isWritten : (holding directory held).writeDiagram tree
      ⟨.str name, .str address, .str diagram, grammar, rules⟩ = (between, fault) := written
  cases fault with
  | some fault =>
    have same : filed = ⟨holding directory held, between, .error fault⟩ := by
      simp only [filed, Store.put, isWritten]
    rw [same]
    exact ⟨held, rfl, fun key mem => .inl mem, flat, inFile⟩
  | none =>
    let entry := Filing.entry ⟨.str name, .str address, .str diagram, grammar, rules⟩ now
    have isFiled : (holding directory held).file
        ⟨.str name, .str address, .str diagram, grammar, rules⟩ now =
          .ok (holding directory (held.insert name entry)) := by
      simp only [Store.file, holding, StoreState.ofJson, Json.isAtom, if_true, entries_insert,
        entry]
    obtain ⟨after, fault, saved, flat', last⟩ :=
      save_differsIn (held.insert name entry) flat [name]
    have same : filed.store = holding directory (held.insert name entry) ∧ filed.tree = after := by
      simp only [filed, Store.put, isWritten, isFiled, saved]
      cases fault <;> exact ⟨rfl, rfl⟩
    rw [same.1, same.2]
    refine ⟨held.insert name entry, rfl, fun key mem => ?_, flat', inFile.trans last⟩
    rw [Fields.keys_insert] at mem
    split at mem
    · exact .inl mem
    · exact (List.mem_append.mp mem).imp_right List.mem_singleton.mp

/-- Storing the diagram of a submission, whether that succeeds or not, changes the state file and
the file of its document, and files no entry under another name. -/
theorem Service.keep_differsIn {service : Service}
    (store : service.store = holding directory held) (h : IsFlatAt tree directory location)
    (now : String) (submission : Submission) (grammar : Json) (diagram : String) (rules : Nat) :
    let kept := service.keep tree now submission grammar diagram rules
    ∃ held', kept.service.store = holding directory held' ∧
      (∀ key ∈ held'.keys, key ∈ held.keys ∨ key = submission.name) ∧
      IsFlatAt kept.tree directory location ∧
      DiffersIn location [submission.name] tree kept.tree := by
  obtain ⟨held', store', keys, flat, differs⟩ :=
    put_differsIn held submission.address diagram now grammar (.int rules) h submission.isName_name
  refine ⟨held', ?_⟩
  unfold Service.keep
  rw [store]
  dsimp only
  split <;> exact ⟨store', keys, flat, differs⟩

end Put

/-- What is running has only entries of the given names in memory, and its files differ from those
that were there at the start in the state file and in the files of these names. -/
structure IsConfined (settings : Settings) (location : Location) (tree : FileTree)
    (names : List String) (state : Running) : Prop where
  store : ∃ held : Fields, state.service.store = holding settings.outputDirectory held ∧
    ∀ key ∈ held.keys, key ∈ names
  flat : IsFlatAt state.tree settings.outputDirectory location
  differs : DiffersIn location names tree state.tree

namespace IsConfined

variable {settings : Settings} {location : Location} {tree : FileTree} {names : List String}
  {state : Running}

/-- A service that starts in an empty directory has no entries. -/
theorem start (empty : IsEmptyDirectoryAt tree settings.outputDirectory location)
    {service : Service} (started : Service.start settings tree = .ok service) :
    IsConfined settings location tree [] ⟨service, tree⟩ := by
  have flat : IsFlatAt tree settings.outputDirectory location :=
    ⟨empty.toIsDirectoryAt, fun name => by simp [empty.nothing [name] (by simp)]⟩
  refine ⟨⟨[], ?_, fun _ mem => absurd mem List.not_mem_nil⟩, flat, .refl location [] tree⟩
  by_cases fits : Fits settings.outputDirectory stateFileName
  · rw [Service.start, (Keeps.empty empty).openAt fits] at started
    cases started
    rfl
  · -- The path of the state file is too long, so the service does not start.
    have refused : tree.contains (statePath settings.outputDirectory) =
        .error (.file .nameTooLong (statePath settings.outputDirectory).text) := by
      rw [FileTree.contains, find?, statePath, empty.locate isFileName_stateFileName, if_neg fits]
      rfl
    rw [Service.start, Store.openAt, readState, refused] at started
    cases started

/-- What is confined to some names is confined to further ones. -/
theorem mono (h : IsConfined settings location tree names state) {more : List String}
    (subset : names ⊆ more) : IsConfined settings location tree more state where
  store := by
    obtain ⟨held, store, keys⟩ := h.store
    exact ⟨held, store, fun key mem => subset (keys key mem)⟩
  flat := h.flat
  differs := h.differs.mono subset

/-- A request leaves what is running confined, with the name of the document that it submits. -/
theorem take (h : IsConfined settings location tree names state) (arrival : Arrival) :
    IsConfined settings location tree (names ++ submittedNames [arrival])
      (state.take arrival).2 := by
  have unchanged : ∀ {state' : Running}, state' = state →
      IsConfined settings location tree (names ++ submittedNames [arrival]) state' := by
    rintro state' rfl
    exact h.mono (List.subset_append_left _ _)
  cases posted : arrival.request.submission? with
  | none =>
    refine unchanged ?_
    unfold Running.take
    cases handled : state.service.handle state.tree arrival.now arrival.request with
    | error fault => rfl
    | ok exchange =>
      obtain ⟨service, tree, -⟩ := Service.handle_of_submission?_eq_none posted handled
      dsimp only
      rw [service, tree]
  | some submission =>
    have taken : (state.take arrival).2 =
        ⟨(state.service.submit state.tree arrival.now submission).service,
          (state.service.submit state.tree arrival.now submission).tree⟩ := by
      unfold Running.take
      rw [Service.handle_of_submission? posted]
    cases drawn : submission.drawing? state.service.verbose with
    | none =>
      obtain ⟨service, tree, -⟩ := Service.submit_of_drawing?_eq_none state.tree
        arrival.now drawn
      exact unchanged (by rw [taken, service, tree])
    | some drawing =>
      obtain ⟨notes, kept⟩ := Service.submit_of_drawing?_eq_some state.tree arrival.now drawn
      obtain ⟨held, store, keys⟩ := h.store
      obtain ⟨held', store', keys', flat, differs⟩ := Service.keep_differsIn store h.flat
        arrival.now submission submission.grammarName drawing.diagram drawing.rules
      rw [taken, kept, submittedNames_singleton posted]
      refine ⟨⟨held', store', fun key mem => ?_⟩, flat, ?_⟩
      · exact List.mem_append.mpr
          ((keys' key mem).imp (keys key) fun same => List.mem_singleton.mpr same)
      · exact (h.differs.mono (List.subset_append_left _ _)).trans
          (differs.mono (List.subset_append_right _ _))

/-- Requests leave what is running confined. -/
theorem after {arrivals : List Arrival} {names : List String} {state : Running}
    (h : IsConfined settings location tree names state) :
    IsConfined settings location tree (names ++ submittedNames arrivals)
      (state.after arrivals) := by
  induction arrivals generalizing names state with
  | nil => simpa [submittedNames, Running.after] using h
  | cons arrival rest ih =>
    have next := ih (h.take arrival)
    have all : submittedNames (arrival :: rest) =
        submittedNames [arrival] ++ submittedNames rest := by
      rw [submittedNames, submittedNames, submittedNames, ← List.filterMap_append]
      rfl
    rw [all, ← List.append_assoc]
    exact next

/-- A diagram of any other name is not found, whatever files there are. -/
theorem diagram (h : IsConfined settings location tree names state) {name : String}
    (other : name ∉ names) (files : FileTree) :
    state.service.diagram files name = .refusal 404 "Diagram not found" := by
  obtain ⟨held, store, keys⟩ := h.store
  have absent : held.get? name = none := by
    cases found : held.get? name with
    | none => rfl
    | some entry =>
      exact absurd (keys name (List.mem_map.mpr ⟨_, Json.mem_of_get? found, rfl⟩)) other
  unfold Service.diagram
  rw [store, get?_holding, absent]

end IsConfined

section Main

variable {settings : Settings} {location : Location} {tree : FileTree} {service : Service}

end Main

end GrammarChart
