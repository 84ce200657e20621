import GrammarChart.Document.Loading
import GrammarChart.Proofs.Document.Loaded

/-!
# Loading

A loader that only loads takes every loaded model to a loaded model with the grammars it had and
maybe further ones (`Loader.LoadsFrom`). Such loaders compose (`Loader.loadsFrom_bind`), a document
whose imports are resolved by one is loaded by one (`Loader.loads_load`), and so the loaders of
attached documents and of files are such loaders, by induction on the depth that they go to
(`Loader.loads_loadAttachedTo`, `Loader.loads_loadFileTo`). Whatever they give is compiled without a
violation (`compileGrammar_neverBreaks_of_load`).
-/

set_option autoImplicit false

namespace GrammarChart

/-- Everything that is known was loaded: the model, and whatever grammar is noted. -/
structure Loaded.Holds (s : Loaded) (grammars : List NodeId) : Prop where
  model : s.model.IsLoaded grammars
  known : ∀ name id, (name, some id) ∈ s.known → id ∈ grammars

namespace Loaded.Holds

variable {s : Loaded} {grammars : List NodeId}

/-- What is found under a name was loaded. -/
theorem mem_of_get? (h : s.Holds grammars) {name : String} {id : NodeId}
    (found : s.get? name = some (some id)) : id ∈ grammars := by
  obtain ⟨entry, here, same⟩ := Option.map_eq_some_iff.mp found
  refine h.known entry.1 id ?_
  rw [← same]
  exact List.mem_of_find?_eq_some here

/-- A note of a grammar that was loaded changes nothing. -/
theorem note (h : s.Holds grammars) (name : String) {grammar : Option NodeId}
    (loaded : ∀ id, grammar = some id → id ∈ grammars) : (s.note name grammar).Holds grammars where
  model := h.model
  known := by
    intro other id mem
    rcases List.mem_cons.mp mem with same | old
    · rw [Prod.mk.injEq] at same
      exact loaded id same.2.symm
    · exact h.known other id old

/-- A model with further grammars still holds what was known. -/
theorem grow (h : s.Holds grammars) {m : Model} {grammars' : List NodeId}
    (loaded : m.IsLoaded grammars') (more : grammars ⊆ grammars') :
    Loaded.Holds { s with model := m } grammars' where
  model := loaded
  known := fun name id mem => more (h.known name id mem)

end Loaded.Holds

/-- Nothing is held before anything is loaded. -/
theorem Loaded.holds_empty : Loaded.Holds ⟨.empty, []⟩ [] :=
  ⟨.empty, fun _ _ mem => absurd mem List.not_mem_nil⟩

/-- Notes grammars under the stems of the paths that they were found for. -/
def Imported.insertAll (imported : Imported) (found : List (String × NodeId)) : Imported :=
  found.foldl (fun imported entry => imported.insert (FilePath.ofText entry.1).stem entry.2)
    imported

/-- What is in the table after a grammar was noted is that grammar, or was in it before. -/
theorem Imported.mem_insert {imported : Imported} {stem : String} {id : NodeId}
    {entry : String × NodeId} (mem : entry ∈ imported.insert stem id) :
    entry = (stem, id) ∨ entry ∈ imported := by
  induction imported with
  | nil => exact .inl (List.mem_singleton.mp mem)
  | cons first rest ih =>
    rw [insert] at mem
    split at mem
    · next same =>
      rcases List.mem_cons.mp mem with here | later
      · exact .inl (by rw [here, same])
      · exact .inr (List.mem_cons_of_mem _ later)
    · rcases List.mem_cons.mp mem with here | later
      · exact .inr (here ▸ List.mem_cons_self)
      · exact (ih later).imp_right (List.mem_cons_of_mem _)

/-- What is in the table after grammars were noted is one of them, or was in it before. -/
theorem Imported.mem_insertAll {imported : Imported} {found : List (String × NodeId)} {id : NodeId}
    (mem : id ∈ (imported.insertAll found).map Prod.snd) :
    id ∈ found.map Prod.snd ∨ id ∈ imported.map Prod.snd := by
  induction found generalizing imported with
  | nil => exact .inr mem
  | cons entry rest ih =>
    rcases ih mem with later | before
    · exact .inl (List.mem_cons_of_mem _ later)
    · obtain ⟨noted, inside, rfl⟩ := List.mem_map.mp before
      rcases mem_insert inside with rfl | old
      · exact .inl List.mem_cons_self
      · exact .inr (List.mem_map.mpr ⟨noted, old, rfl⟩)

namespace Loader

variable {α β : Type} {grammars : List NodeId}

/-- A loader and then another one give a result when both do. -/
theorem bind_eq_ok {x : Loader α} {f : α → Loader β} {s s'' : Loaded} {b : β} :
    (x >>= f) s = .ok (b, s'') ↔ ∃ a s', x s = .ok (a, s') ∧ f a s' = .ok (b, s'') := by
  have unfolded : (x >>= f) s = (x s >>= fun r => f r.1 r.2) := rfl
  rw [unfolded, GrammarChart.bind_eq_ok]
  constructor
  · rintro ⟨⟨a, s'⟩, first, second⟩
    exact ⟨a, s', first, second⟩
  · rintro ⟨a, s', first, second⟩
    exact ⟨(a, s'), first, second⟩

/-- A computation that may fault leaves the state alone for the loader after it. -/
theorem lift_bind (x : Except Fault α) (f : α → Loader β) (s : Loaded) :
    (liftM x >>= f : Loader β) s = (x >>= fun a => f a s) := by
  cases x <;> rfl

/-- A loader that looks at the state goes on with the state. -/
theorem get_bind (f : Loaded → Loader β) (s : Loaded) : (get >>= f) s = f s s := rfl

/-- A computation that may fault and then a loader give a result when both do. -/
theorem lift_bind_eq_ok {x : Except Fault α} {f : α → Loader β} {s s' : Loaded} {b : β} :
    (liftM x >>= f) s = .ok (b, s') ↔ ∃ a, x = .ok a ∧ f a s = .ok (b, s') := by
  rw [lift_bind, GrammarChart.bind_eq_ok]

/-- The loader only loads: a state that holds the grammars becomes one that holds these and maybe
further ones, and what it returns is right for them. -/
def LoadsFrom (grammars : List NodeId) (loader : Loader α) (right : List NodeId → α → Prop) :
    Prop :=
  ∀ s a s', s.Holds grammars → loader s = .ok (a, s') →
    ∃ grammars', grammars ⊆ grammars' ∧ s'.Holds grammars' ∧ right grammars' a

/-- The loader only loads and gives a grammar that is loaded then. -/
def Loads (loader : Loader NodeId) : Prop :=
  ∀ grammars, LoadsFrom grammars loader fun loaded id => id ∈ loaded

/-- What was found is nothing, or a grammar that is loaded. -/
def IsAmong (loaded : List NodeId) (found : Option NodeId) : Prop :=
  ∀ id ∈ found, id ∈ loaded

/-- The resolver only loads and gives no grammar or one that is loaded then. -/
def IsHonest (resolve : Resolver) : Prop :=
  ∀ path grammars, LoadsFrom grammars (resolve path) IsAmong

/-- Nothing is no grammar. -/
theorem isAmong_none (loaded : List NodeId) : IsAmong loaded none := by
  intro id mem
  simp at mem

/-- A grammar that is loaded. -/
theorem isAmong_some {loaded : List NodeId} {id : NodeId} (mem : id ∈ loaded) :
    IsAmong loaded (some id) := by
  intro other same
  rw [Option.mem_some_iff] at same
  exact same ▸ mem

section Rules

variable {right : List NodeId → α → Prop} {right' : List NodeId → β → Prop}

/-- Returning what is right loads nothing. -/
theorem loadsFrom_pure {a : α} (h : right grammars a) : LoadsFrom grammars (pure a) right := by
  intro s a' s' holds run
  cases run
  exact ⟨grammars, fun _ mem => mem, holds, h⟩

/-- A fault is no result. -/
theorem loadsFrom_throw (fault : Fault) : LoadsFrom grammars (throw fault) right := by
  intro s a s' holds run
  cases run

/-- A computation that may fault loads nothing. -/
theorem loadsFrom_lift {x : Except Fault α} {f : α → Loader β}
    (next : ∀ a, x = .ok a → LoadsFrom grammars (f a) right') :
    LoadsFrom grammars (liftM x >>= f) right' := by
  intro s b s' holds run
  obtain ⟨a, given, run⟩ := lift_bind_eq_ok.mp run
  exact next a given s b s' holds run

/-- A loader that only loads, followed by one, only loads. -/
theorem loadsFrom_bind {x : Loader α} {f : α → Loader β} (first : LoadsFrom grammars x right)
    (next : ∀ loaded a, grammars ⊆ loaded → right loaded a → LoadsFrom loaded (f a) right') :
    LoadsFrom grammars (x >>= f) right' := by
  intro s b s'' holds run
  obtain ⟨a, s', run, rest⟩ := bind_eq_ok.mp run
  obtain ⟨loaded, more, held, isRight⟩ := first s a s' holds run
  obtain ⟨loaded', more', held', isRight'⟩ := next loaded a more isRight s' b s'' held rest
  exact ⟨loaded', fun _ mem => more' (more mem), held', isRight'⟩

/-- A loader that looks at the state first only loads when it does so from every state. -/
theorem loadsFrom_get {f : Loaded → Loader β}
    (next : ∀ s, s.Holds grammars → ∀ b s', f s s = .ok (b, s') →
      ∃ loaded, grammars ⊆ loaded ∧ s'.Holds loaded ∧ right' loaded b) :
    LoadsFrom grammars (get >>= f) right' := by
  intro s b s' holds run
  obtain ⟨found, same, here, rest⟩ := bind_eq_ok.mp run
  cases here
  exact next s holds b s' rest

/-- A change of the state that keeps what is held loads nothing. -/
theorem loadsFrom_modify {change : Loaded → Loaded} {f : Unit → Loader β}
    (holds : ∀ s : Loaded, s.Holds grammars → (change s).Holds grammars)
    (next : LoadsFrom grammars (f ()) right') :
    LoadsFrom grammars (modify change >>= f) right' := by
  intro s b s' held run
  obtain ⟨done, changed, here, rest⟩ := bind_eq_ok.mp run
  cases here
  exact next (change s) b s' (holds s held) rest

end Rules

/-- Resolves import paths in order: the texts of the paths that have grammars, and the grammars. -/
def resolveAll (resolve : Resolver) : List Json → Loader (List (String × NodeId))
  | [] => pure []
  | path :: rest => do
    if path.isPresent then
      match ← resolve path, path with
      | none, _ => resolveAll resolve rest
      | some id, .str text => do
        let found ← resolveAll resolve rest
        return (text, id) :: found
      | some _, _ => throw .wrongType
    else resolveAll resolve rest

/-- Importing is resolving all paths and noting the grammars that were found. -/
theorem importAll_eq (resolve : Resolver) (paths : List Json) (imported : Imported) :
    importAll resolve paths imported = (do
      let found ← resolveAll resolve paths
      return imported.insertAll found) := by
  induction paths generalizing imported with
  | nil => rfl
  | cons path rest ih =>
    rw [importAll, resolveAll]
    split
    · rw [bind_assoc]
      refine bind_congr fun found => ?_
      cases found with
      | none => exact ih imported
      | some id =>
        cases path with
        | str text =>
          simp only [ih, bind_assoc, pure_bind]
          rfl
        | _ => rfl
    · exact ih imported

section Documents

variable {resolve : Resolver}

/-- Resolving imports honestly finds grammars that are loaded. -/
theorem loadsFrom_resolveAll (honest : IsHonest resolve) (paths : List Json) :
    LoadsFrom grammars (resolveAll resolve paths) fun loaded found =>
      ∀ id ∈ found.map Prod.snd, id ∈ loaded := by
  induction paths generalizing grammars with
  | nil => exact loadsFrom_pure fun _ mem => absurd mem List.not_mem_nil
  | cons path rest ih =>
    rw [resolveAll]
    split
    · refine loadsFrom_bind (honest path grammars) fun loaded found _ known => ?_
      cases found with
      | none => exact ih
      | some id =>
        cases path with
        | str text =>
          refine loadsFrom_bind ih fun loaded' found more isLoaded => loadsFrom_pure ?_
          intro other mem
          rcases List.mem_cons.mp mem with rfl | later
          · exact more (known _ rfl)
          · exact isLoaded other later
        | _ => exact loadsFrom_throw .wrongType
    · exact ih

/-- A document whose imports are resolved honestly is loaded. -/
theorem loads_load (honest : IsHonest resolve) (value : Json) : Loads (load resolve value) := by
  intro grammars
  unfold load
  refine loadsFrom_lift fun fields _ => loadsFrom_lift fun paths _ => ?_
  rw [importAll_eq, bind_assoc]
  refine loadsFrom_bind (loadsFrom_resolveAll honest paths) fun loaded found _ isLoaded => ?_
  rw [pure_bind]
  refine loadsFrom_lift fun document _ => loadsFrom_get fun s holds id s' run => ?_
  obtain ⟨made, linked, run⟩ := lift_bind_eq_ok.mp run
  cases run
  have imports : ∀ g ∈ (Imported.insertAll [] found).map Prod.snd, g ∈ loaded := by
    intro g mem
    rcases Imported.mem_insertAll mem with here | before
    · exact isLoaded g here
    · exact absurd before List.not_mem_nil
  have more := List.subset_cons_self made.2 loaded
  exact ⟨made.2 :: loaded, more, holds.grow (.link holds.model imports linked) more,
    List.mem_cons_self⟩

/-- The resolver that knows no documents is honest. -/
theorem isHonest_noImports : IsHonest noImports :=
  fun _ grammars => loadsFrom_pure (isAmong_none grammars)

/-- Finds the grammar of a path that was not met before among attached documents. -/
def attachedDocument (attached : Fields) (loadDocument : Json → Loader NodeId) (path : String) :
    Loader (Option NodeId) := do
  modify (·.note path none)
  match attached.get? path with
  | none => return none
  | some value =>
    let id ← loadDocument value
    modify (·.note path (some id))
    return some id

/-- A path among attached documents has what is known for it, or else is found there. -/
theorem attachedImport_str (attached : Fields) (loadDocument : Json → Loader NodeId)
    (path : String) (s : Loaded) : attachedImport attached loadDocument (.str path) s =
      ((s.get? path).elim (attachedDocument attached loadDocument path) pure) s := by
  rw [attachedImport, get_bind]
  cases s.get? path <;> rfl

/-- Attached documents are resolved honestly when they are loaded. -/
theorem isHonest_attachedImport (attached : Fields) {loadDocument : Json → Loader NodeId}
    (loads : ∀ value, Loads (loadDocument value)) :
    IsHonest (attachedImport attached loadDocument) := by
  intro path grammars
  cases path with
  | str path =>
    intro s found s' holds run
    rw [attachedImport_str] at run
    cases known : s.get? path with
    | some known' =>
      rw [known] at run
      cases run
      exact ⟨grammars, fun _ mem => mem, holds, fun id same => holds.mem_of_get? (same ▸ known)⟩
    | none =>
      rw [known] at run
      have loading : LoadsFrom grammars (attachedDocument attached loadDocument path) IsAmong := by
        unfold attachedDocument
        refine loadsFrom_modify (fun s holds => holds.note path (by simp)) ?_
        cases attached.get? path with
        | none => exact loadsFrom_pure (isAmong_none grammars)
        | some value =>
          refine loadsFrom_bind (loads value grammars) fun loaded id _ mem => ?_
          exact loadsFrom_modify (fun s holds => holds.note path (isAmong_some mem))
            (loadsFrom_pure (isAmong_some mem))
      exact loading s found s' holds run
  | arr _ | obj _ => exact loadsFrom_throw .wrongType
  | _ => exact loadsFrom_pure (isAmong_none grammars)

/-- A document with attached ones is loaded, to whatever depth. -/
theorem loads_loadAttachedTo (attached : Fields) (depth : Nat) (value : Json) :
    Loads (loadAttachedTo attached depth value) := by
  induction depth generalizing value with
  | zero => exact loads_load isHonest_noImports value
  | succ depth ih => exact loads_load (isHonest_attachedImport attached ih) value

/-- A file whose imports are resolved honestly is loaded. -/
theorem loads_loadFileWith (tree : FileTree) (location : Location) (honest : IsHonest resolve) :
    Loads (loadFileWith tree location resolve) := by
  intro grammars
  unfold loadFileWith
  refine loadsFrom_lift fun value _ => loadsFrom_lift fun fields _ => ?_
  refine loadsFrom_get fun s holds id s' run => ?_
  have more := List.subset_cons_self (⟨s.model.nodes.length⟩ : NodeId) grammars
  have added := holds.grow (.standIn holds.model
    (.value ((fields.getD "name" .null).orElse (.str (FileTree.absolute location).stem)))
    (.value (.str (FileTree.absolute location).text))) more
  have noted := added.note (FileTree.absolute location).text (isAmong_some List.mem_cons_self)
  have loading : LoadsFrom (⟨s.model.nodes.length⟩ :: grammars) (do
      let id ← load resolve value
      modify fun loaded =>
        { loaded with
          model := loaded.model.updateGrammar id fun g =>
            { g with path := .value (.str (FileTree.absolute location).text),
                     name := g.name.orElse (.value (.str (FileTree.absolute location).stem)) }
          }.note (FileTree.absolute location).text (some id)
      return id) fun loaded id => id ∈ loaded := by
    refine loadsFrom_bind (loads_load honest value _) fun loaded id _ mem => ?_
    refine loadsFrom_modify (fun s holds => ?_) (loadsFrom_pure mem)
    exact (holds.grow (.rename holds.model id _ _) fun _ mem => mem).note
      (FileTree.absolute location).text (isAmong_some mem)
  obtain ⟨loaded, wider, held, mem⟩ := loading _ id s' noted run
  exact ⟨loaded, fun _ old => wider (more old), held, mem⟩

/-- The files beside a file are resolved honestly when they are loaded. -/
theorem isHonest_fileImport (tree : FileTree) (importer : Location)
    {loadFile : Location → Loader NodeId} (loads : ∀ location, Loads (loadFile location)) :
    IsHonest (fileImport tree importer loadFile) := by
  intro path grammars
  cases path with
  | str path =>
    unfold fileImport
    refine loadsFrom_lift fun location _ => loadsFrom_get fun s holds found s' run => ?_
    cases known : s.get? (FileTree.absolute location).text with
    | some known' =>
      rw [known] at run
      cases run
      exact ⟨grammars, fun _ mem => mem, holds, fun id same => holds.mem_of_get? (same ▸ known)⟩
    | none =>
      rw [known] at run
      have loading : LoadsFrom grammars (do
          if ← tree.contains (FileTree.absolute location) then return some (← loadFile location)
          else return none) IsAmong := by
        refine loadsFrom_lift fun present _ => ?_
        split
        · exact loadsFrom_bind (loads location grammars) fun loaded id _ mem =>
            loadsFrom_pure (isAmong_some mem)
        · exact loadsFrom_pure (isAmong_none grammars)
      exact loading s found s' holds run
  | _ => exact loadsFrom_throw .wrongType

/-- A file with the files it imports is loaded, to whatever depth. -/
theorem loads_loadFileTo (tree : FileTree) (depth : Nat) (location : Location) :
    Loads (loadFileTo tree depth location) := by
  induction depth generalizing location with
  | zero => exact loads_loadFileWith tree location isHonest_noImports
  | succ depth ih => exact loads_loadFileWith tree location (isHonest_fileImport tree location ih)

/-- A file is loaded. -/
theorem loads_loadFile (tree : FileTree) (path : FilePath) : Loads (loadFile tree path) :=
  fun grammars => loadsFrom_lift fun location _ =>
    loads_loadFileTo tree (tree.entries.length + 1) location grammars

/-- A document that was loaded, with its imports resolved honestly, is compiled without a
violation. -/
theorem compileGrammar_neverBreaks_of_load (honest : IsHonest resolve) {s s' : Loaded}
    {grammars : List NodeId} (holds : s.Holds grammars) {value : Json} {id : NodeId}
    (loaded : load resolve value s = .ok (id, s')) (verbose withImports : Bool) (writer : Writer) :
    Except.NeverBreaks (s'.model.compileGrammar verbose withImports id writer).result := by
  obtain ⟨grammars', -, held, mem⟩ := loads_load honest value grammars s id s' holds loaded
  exact Model.compileGrammar_neverBreaks (Model.isSound_of_isLoaded held.model) mem verbose
    withImports writer

/-- A document that imports itself and calls its rule by way of the import. -/
def selfImporting : Json :=
  .obj [("imports", .arr [.str "self"]), ("rules", .arr [.obj [("$type", .str "ParserRule"),
    ("name", .str "Loop"), ("definition", .obj [("$type", .str "Assignment"),
      ("feature", .str "next"), ("cardinality", .str "?"), ("terminal", .obj [
        ("$type", .str "RuleCall"), ("rule", .obj [("$ref", .str "self#/rules@0")])])])]])]

/-- The document that imports itself is loaded, and compiled without a violation. -/
theorem compileGrammar_neverBreaks_of_load_selfImporting : ∃ id s',
    load (attachedImport [("self", selfImporting)] (loadAttachedTo [("self", selfImporting)] 1))
      selfImporting ⟨.empty, []⟩ = .ok (id, s') ∧
    Except.NeverBreaks (s'.model.compileGrammar true true id .idle).result := by
  have honest : IsHonest
      (attachedImport [("self", selfImporting)] (loadAttachedTo [("self", selfImporting)] 1)) :=
    isHonest_attachedImport _ fun value => loads_loadAttachedTo _ 1 value
  have given : (load (attachedImport [("self", selfImporting)]
      (loadAttachedTo [("self", selfImporting)] 1)) selfImporting ⟨.empty, []⟩).isOk = true := by
    decide +kernel
  cases run : load (attachedImport [("self", selfImporting)]
      (loadAttachedTo [("self", selfImporting)] 1)) selfImporting ⟨.empty, []⟩ with
  | error fault =>
    rw [run] at given
    cases given
  | ok made =>
    exact ⟨made.1, made.2, rfl, compileGrammar_neverBreaks_of_load honest Loaded.holds_empty run
      true true .idle⟩

end Documents

end Loader

end GrammarChart
