import GrammarChart.Proofs.Document.Runs

/-!
# Traces of loading

The loaders once more, with what happens meanwhile, also when a fault stops the loading: the names
of the documents that are read, which are the files that are opened and the attached documents that
are loaded, and the answers to imports of attached documents. Without these events they are the
loaders themselves (`Traced.loader_loadFile`, `Traced.loader_loadAttachedTo`).
-/

set_option autoImplicit false

namespace GrammarChart

/-- What happens while documents are loaded: a document is read, or an import is answered. -/
inductive Event where
  | read (name : String)
  | answer (path : String) (found : Option NodeId)

namespace Event

/-- The name of a document that is read. -/
def name? : Event → Option String
  | read name => some name
  | answer _ _ => none

/-- An import with its answer. -/
def answer? : Event → Option (String × Option NodeId)
  | read _ => none
  | answer path found => some (path, found)

end Event

/-- A loader with what happens meanwhile. It is there also when the loader faults. -/
def Traced (α : Type) : Type := Loaded → List Event × Except Fault (α × Loaded)

namespace Traced

variable {α β : Type}

instance : Monad Traced where
  pure a := fun s => ([], .ok (a, s))
  bind x f := fun s =>
    match x s with
    | (events, .error fault) => (events, .error fault)
    | (events, .ok (a, s')) => (events ++ (f a s').1, (f a s').2)

/-- The loader without the events. -/
def loader (x : Traced α) : Loader α := fun s => (x s).2

/-- A loader during which nothing happens. -/
def silent (x : Loader α) : Traced α := fun s => ([], x s)

/-- Something happens. -/
def tell (event : Event) : Traced Unit := fun s => ([event], .ok ((), s))

/-- The names that a loader reads from a state on. -/
def namesRead (x : Traced α) (s : Loaded) : List String := (x s).1.filterMap Event.name?

/-- The answers to the imports of attached documents from a state on. -/
def answers (x : Traced α) (s : Loaded) : List (String × Option NodeId) :=
  (x s).1.filterMap Event.answer?

/-- Notes something under a name, goes on with another loader and notes its result under the
name. -/
def within (enter : Loaded → Loaded) (body : Traced α) (leave : α → Loaded → Loaded) :
    Traced α := do
  silent (modify enter)
  let a ← body
  silent (modify (leave a))
  return a

/-- Finds the grammar of an import path. -/
abbrev Resolver := Json → Traced (Option NodeId)

/-- Resolves import paths in order. -/
def importAll (resolve : Resolver) : List Json → Imported → Traced Imported
  | [], imported => pure imported
  | path :: rest, imported => do
    if path.isPresent then
      match ← resolve path, path with
      | none, _ => importAll resolve rest imported
      | some id, .str text => importAll resolve rest (imported.insert (FilePath.ofText text).stem id)
      | some _, _ => silent (throw .wrongType)
    else importAll resolve rest imported

/-- Loads the document that a value is the written form of. -/
def load (resolve : Resolver) (value : Json) : Traced NodeId := do
  let fields ← silent (Document.fieldsOf value)
  let paths ← silent (Document.importPaths fields)
  let imported ← importAll resolve paths []
  silent do
    let document ← Document.ofFields fields
    let loaded ← get
    let (model, id) ← document.link fields imported loaded.model
    set { loaded with model := model }
    return id

/-- Finds the grammar of a path that was not met before among attached documents. Loading a document
reads its path. -/
def attachedDocument (attached : Fields) (loadDocument : Json → Traced NodeId) (path : String) :
    Traced (Option NodeId) :=
  match attached.get? path with
  | none => do
    silent (modify (·.note path none))
    return none
  | some value => some <$> do
    tell (.read path)
    within (·.note path none) (loadDocument value) fun id => (·.note path (some id))

/-- Finds the grammar of a path among attached documents, and tells it. -/
def attachedImport (attached : Fields) (loadDocument : Json → Traced NodeId) : Resolver
  | .str path => do
    let known := (← silent get).get? path
    let found ← known.elim (attachedDocument attached loadDocument path) pure
    tell (.answer path found)
    return found
  | path => if path.isAtom then return none else silent (throw .wrongType)

/-- Loads a document with imports from attached documents, down to the given depth. -/
def loadAttachedTo (attached : Fields) : Nat → Json → Traced NodeId
  | 0, value => load (fun path => silent (Loader.noImports path)) value
  | depth + 1, value => load (attachedImport attached (loadAttachedTo attached depth)) value

/-- Loads a document with imports from attached documents. -/
def loadAttached (attached : Fields) (value : Json) : Traced NodeId :=
  loadAttachedTo attached (attached.length + 1) value

/-- Loads the file at a location. Opening the file reads its path. -/
def loadFileWith (tree : FileTree) (location : Location) (resolve : Resolver) :
    Traced NodeId := do
  tell (.read (FileTree.nameOf location))
  let value ← silent (Loader.readFile tree (FileTree.absolute location))
  let fields ← silent value.fields
  within (Loaded.enterFile location fields) (load resolve value) (Loaded.leaveFile location)

/-- Finds the grammar of a path beside the file that imports it. -/
def fileImport (tree : FileTree) (importer : Location) (loadFile : Location → Traced NodeId) :
    Resolver
  | .str path => do
    let location ← silent (Loader.importLocation tree importer path)
    match (← silent get).get? (FileTree.nameOf location) with
    | some known => return known
    | none =>
      if ← silent (tree.contains (FileTree.absolute location)) then some <$> loadFile location
      else return none
  | _ => silent (throw .wrongType)

/-- Loads a file with the files it imports, down to the given depth. -/
def loadFileTo (tree : FileTree) : Nat → Location → Traced NodeId
  | 0, location => loadFileWith tree location fun path => silent (Loader.noImports path)
  | depth + 1, location =>
    loadFileWith tree location (fileImport tree location (loadFileTo tree depth))

/-- Loads a file with the files it imports. -/
def loadFile (tree : FileTree) (path : FilePath) : Traced NodeId := do
  loadFileTo tree (tree.entries.length + 1) (← silent (tree.resolve path))

section Erasure

variable {x : Traced α} {f : α → Traced β} {s s' : Loaded} {a : α}

/-- What happens during one loader and then another one. -/
theorem bind_apply (x : Traced α) (f : α → Traced β) (s : Loaded) :
    (x >>= f) s = ((x s).1 ++ ((x s).2.toOption.map fun made => (f made.1 made.2).1).getD [],
      (x s).2 >>= fun made => (f made.1 made.2).2) := by
  rcases run : x s with ⟨events, fault | ⟨a, s'⟩⟩
  · simp [Bind.bind, Except.bind, Except.toOption, run]
  · simp [Bind.bind, Except.bind, Except.toOption, run]

/-- A fault ends a loader. -/
theorem bind_of_error {fault : Fault} (h : (x s).2 = .error fault) :
    (x >>= f) s = ((x s).1, .error fault) := by
  rw [bind_apply, h]
  simp [Bind.bind, Except.bind, Except.toOption]

/-- During one loader and then another one, what happens during both of them happens. -/
theorem bind_of_ok (h : (x s).2 = .ok (a, s')) :
    (x >>= f) s = ((x s).1 ++ (f a s').1, (f a s').2) := by
  rw [bind_apply, h]
  simp [Bind.bind, Except.bind, Except.toOption]

/-- Reading a document and going on within its notes. -/
theorem read_within (name : String) (enter : Loaded → Loaded) (body : Traced α)
    (leave : α → Loaded → Loaded) (s : Loaded) :
    (tell (.read name) >>= fun _ => within enter body leave) s =
      (.read name :: (body (enter s)).1,
        (body (enter s)).2.map fun made => (made.1, leave made.1 made.2)) := by
  have told : (tell (.read name) >>= fun _ => within enter body leave) s = Prod.map
      (Event.read name :: ·) id
      ((body >>= fun a => silent (modify (leave a)) >>= fun _ => pure a) (enter s)) := rfl
  rw [told]
  cases run : (body (enter s)).2 with
  | error fault =>
    rw [bind_of_error run]
    rfl
  | ok made =>
    rw [bind_of_ok run]
    exact congrArg (fun events => (Event.read name :: events, _)) (List.append_nil _)

/-- A loader during which nothing happens is the loader. -/
@[simp] theorem loader_silent (x : Loader α) : (silent x).loader = x := rfl

/-- Something that happens changes nothing. -/
@[simp] theorem loader_tell (event : Event) : (tell event).loader = pure () := rfl

/-- Returning a result is returning it. -/
@[simp] theorem loader_pure (a : α) : (pure a : Traced α).loader = pure a := rfl

/-- One loader and then another one are so without the events. -/
@[simp] theorem loader_bind (x : Traced α) (f : α → Traced β) :
    (x >>= f).loader = x.loader >>= fun a => (f a).loader := by
  funext s
  exact congrArg Prod.snd (bind_apply x f s)

/-- Replacing a result is so without the events. -/
@[simp] theorem loader_map (x : Traced α) (f : α → β) : (f <$> x).loader = f <$> x.loader :=
  loader_bind x fun a => pure (f a)

/-- Without the events, a loader goes on within its notes. -/
@[simp] theorem loader_within (enter : Loaded → Loaded) (body : Traced α)
    (leave : α → Loaded → Loaded) : (within enter body leave).loader = (do
      modify enter
      let a ← body.loader
      modify (leave a)
      return a) := by
  simp only [within, loader_bind, loader_silent, loader_pure]

/-- Without the events, import paths are resolved in order. -/
theorem loader_importAll (resolve : Resolver) (paths : List Json) (imported : Imported) :
    (importAll resolve paths imported).loader =
      Loader.importAll (fun path => (resolve path).loader) paths imported := by
  induction paths generalizing imported with
  | nil => rfl
  | cons path rest ih =>
    rw [importAll, Loader.importAll]
    split
    · rw [loader_bind]
      refine bind_congr fun found => ?_
      cases found with
      | none => exact ih imported
      | some id =>
        cases path with
        | str text => exact ih _
        | _ => rfl
    · exact ih imported

/-- Without the events, a document is loaded. -/
theorem loader_load (resolve : Resolver) (value : Json) :
    (load resolve value).loader = Loader.load (fun path => (resolve path).loader) value := by
  simp only [load, loader_bind, loader_silent, loader_importAll]
  rfl

/-- Without the events, the grammar of a path is found among attached documents. -/
theorem loader_attachedImport (attached : Fields) (loadDocument : Json → Traced NodeId)
    (path : Json) : (attachedImport attached loadDocument path).loader =
      Loader.attachedImport attached (fun value => (loadDocument value).loader) path := by
  cases path with
  | str path =>
    rw [attachedImport, Loader.attachedImport, loader_bind]
    refine bind_congr fun s => ?_
    rw [loader_bind]
    cases s.get? path with
    | some known => rfl
    | none =>
      rw [Option.elim_none, attachedDocument]
      cases attached.get? path with
      | none => rfl
      | some value =>
        simp only [loader_bind, loader_map, loader_within, loader_tell, loader_pure, pure_bind,
          map_bind, map_pure, bind_assoc]
  | arr _ | obj _ => rfl
  | _ => rfl

/-- Without the events, a document is loaded with attached ones. -/
theorem loader_loadAttachedTo (attached : Fields) (depth : Nat) (value : Json) :
    (loadAttachedTo attached depth value).loader =
      Loader.loadAttachedTo attached depth value := by
  induction depth generalizing value with
  | zero => exact loader_load _ value
  | succ depth ih =>
    rw [loadAttachedTo, loader_load, Loader.loadAttachedTo]
    refine congrArg (Loader.load · value) (funext fun path => ?_)
    rw [loader_attachedImport, funext ih]

/-- Without the events, a file is loaded. -/
theorem loader_loadFileWith (tree : FileTree) (location : Location) (resolve : Resolver) :
    (loadFileWith tree location resolve).loader =
      Loader.loadFileWith tree location fun path => (resolve path).loader := by
  rw [Loader.loadFileWith_eq]
  simp only [loadFileWith, loader_bind, loader_silent, loader_tell, loader_within, loader_load,
    pure_bind]

/-- Without the events, the grammar of a path is found beside the file that imports it. -/
theorem loader_fileImport (tree : FileTree) (importer : Location)
    (loadFile : Location → Traced NodeId) (path : Json) :
    (fileImport tree importer loadFile path).loader =
      Loader.fileImport tree importer (fun location => (loadFile location).loader) path := by
  cases path with
  | str path =>
    rw [fileImport, Loader.fileImport, loader_bind]
    refine bind_congr fun location => ?_
    rw [loader_bind]
    refine bind_congr fun s => ?_
    unfold FileTree.nameOf
    cases s.get? (FileTree.absolute location).text with
    | some known => rfl
    | none =>
      simp only [loader_bind]
      refine bind_congr fun present => ?_
      cases present <;> simp
  | _ => rfl

/-- Without the events, a file is loaded with the files it imports. -/
theorem loader_loadFileTo (tree : FileTree) (depth : Nat) (location : Location) :
    (loadFileTo tree depth location).loader = Loader.loadFileTo tree depth location := by
  induction depth generalizing location with
  | zero => exact loader_loadFileWith tree location _
  | succ depth ih =>
    rw [loadFileTo, loader_loadFileWith, Loader.loadFileTo]
    refine congrArg (Loader.loadFileWith tree location) (funext fun path => ?_)
    rw [loader_fileImport, funext ih]

/-- Without the events, a file is loaded. -/
theorem loader_loadFile (tree : FileTree) (path : FilePath) :
    (loadFile tree path).loader = Loader.loadFile tree path := by
  rw [loadFile, loader_bind]
  refine bind_congr fun location => ?_
  exact loader_loadFileTo tree _ location

end Erasure

end Traced
end GrammarChart
