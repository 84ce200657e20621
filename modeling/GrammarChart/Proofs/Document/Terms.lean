import GrammarChart.Proofs.Document.Progress
import GrammarChart.Proofs.Document.Typed

/-!
# Loaders that keep to terms

The terms of a loader are the faults that it may end in and what is true of every grammar that it
shows (`Terms`). A loader keeps to them (`Loader.EndsFrom`) when it ends, from whatever state all
shown grammars of which are fitting, in such a state or in an allowed fault. Loaders that keep to
terms compose; a document keeps to them when reading it and following its addresses does
(`Terms.Reads`), and then so do the loaders of attached documents and of files, by induction on the
depth that they go to (`Loader.keepsTo_loadAttachedTo`, `Loader.keepsTo_loadFileTo`). Documents of a
form keep to the terms of the form, under which all names are texts (`Form.reads_of_isDocument`), and
all values keep to terms that allow the faults of values of the wrong shape (`Terms.reads_any`).
-/

set_option autoImplicit false

namespace GrammarChart

open FileTree (absolute)

/-- The terms of loaders: the faults that they may end in, and what is true of every grammar that
they show. -/
structure Terms where
  allowed : Fault → Prop
  fits : View → Prop

/-- The state shows the grammars, all of them fitting, and knows none but them. -/
structure Loaded.Shows (s : Loaded) (fits : View → Prop) (grammars : List NodeId)
    (views : NodeId → View) : Prop where
  displays : s.model.Displays grammars views
  known : ∀ name id, (name, some id) ∈ s.known → id ∈ grammars
  fitting : ∀ g ∈ grammars, fits (views g)

namespace Loaded.Shows

variable {s : Loaded} {fits : View → Prop} {grammars : List NodeId} {views : NodeId → View}

/-- What is found under a name is shown. -/
theorem mem_of_get? (h : s.Shows fits grammars views) {name : String} {id : NodeId}
    (found : s.get? name = some (some id)) : id ∈ grammars := by
  obtain ⟨entry, here, same⟩ := Option.map_eq_some_iff.mp found
  refine h.known entry.1 id ?_
  rw [← same]
  exact List.mem_of_find?_eq_some here

/-- A note of a grammar that is shown changes nothing. -/
theorem note (h : s.Shows fits grammars views) (name : String) {grammar : Option NodeId}
    (shown : Loader.IsAmong grammars grammar) : (s.note name grammar).Shows fits grammars views where
  displays := h.displays
  fitting := h.fitting
  known := by
    intro other id mem
    rcases List.mem_cons.mp mem with same | old
    · rw [Prod.mk.injEq] at same
      exact shown id same.2.symm
    · exact h.known other id old

/-- A further grammar is shown beside the others. -/
theorem cons (h : s.Shows fits grammars views) {m : Model} {g : NodeId} {view : View}
    (new : g ∉ grammars)
    (displays : m.Displays (g :: grammars) (Function.update views g view)) (fit : fits view) :
    Loaded.Shows { s with model := m } fits (g :: grammars) (Function.update views g view) where
  displays := displays
  known := fun name id mem => List.mem_cons_of_mem _ (h.known name id mem)
  fitting := by
    intro i mem
    rcases List.mem_cons.mp mem with rfl | old
    · rwa [Function.update_self]
    · rw [Function.update_of_ne (ne_of_mem_of_not_mem old new)]
      exact h.fitting i old

end Loaded.Shows

/-- Nothing is shown before anything is loaded. -/
theorem Loaded.shows_empty (fits : View → Prop) :
    Loaded.Shows ⟨.empty, []⟩ fits [] fun _ => .nothing :=
  ⟨Model.displays_empty _, fun _ _ mem => absurd mem List.not_mem_nil,
    fun _ mem => absurd mem List.not_mem_nil⟩

namespace Terms

variable (terms : Terms)

/-- A path that may be asked for: one that is no text may be a fault. -/
def Admits (path : Json) : Prop := path.IsText ∨ terms.allowed .wrongType

/-- The document and whatever it is linked to keep to the terms. -/
structure Links (fields : Fields) (document : Document) : Prop where
  addresses : ∀ (imported : Imported) (model : Model), Ends terms.allowed (fun _ => True)
    (document.link fields imported model)
  view : ∀ (views : NodeId → View) (imported : Imported),
    (∀ g ∈ imported.map Prod.snd, terms.fits (views g)) →
      terms.fits (Model.linkedView views document fields imported)

/-- The fields of a document keep to the terms. -/
structure ReadsFields (fields : Fields) : Prop where
  imports : Ends terms.allowed
    (fun paths => ∀ path ∈ paths, path.isPresent = true → terms.Admits path)
    (Document.importPaths fields)
  document : Ends terms.allowed (terms.Links fields) (Document.ofFields fields)

/-- The value is a document that keeps to the terms. -/
def Reads (value : Json) : Prop :=
  Ends terms.allowed terms.ReadsFields (Document.fieldsOf value)

end Terms

/-- The terms of documents of a form: the names in all that is shown are texts, and the faults are
those of parts of unknown kinds, those of indices with too many digits, and the given ones. -/
def Form.terms (form : Form) (also : Fault → Prop) : Terms where
  allowed fault := form.Refuses fault ∨ fault.IsOverlong form.refers ∨ also fault
  fits := View.IsTyped form.refers

/-- A value of the shape of a document keeps to the terms of its form. -/
theorem Form.reads_of_isDocument {form : Form} (also : Fault → Prop) {value : Json}
    (h : value.IsDocument form) : (form.terms also).Reads value := by
  refine (Document.ends_fieldsOf h).mono (fun _ => .inl) fun fields isDocument => ⟨?_, ?_⟩
  · refine (Document.ends_importPaths isDocument).mono (fun _ h => h) ?_
    exact fun paths texts path mem present => .inl (texts path mem present)
  · refine (Document.ends_ofFields isDocument).mono (fun _ => .inl) fun document typed => ⟨?_, ?_⟩
    · refine fun imported model => .of_cases (fun _ _ => trivial) fun fault stopped => ?_
      obtain ⟨reference, mem, address, written, led⟩ := Document.exists_of_link_eq_error stopped
      obtain ⟨rule, inRules, inside⟩ := List.mem_flatMap.mp mem
      obtain ⟨text, rfl, good⟩ := (typed.rules rule inRules).references reference inside address
        written
      exact .inr (.inl (Planting.isOverlong_of_nodeAt _ good led))
    · exact fun views imported others => View.isTyped_linkedView typed others

/-- The terms of values of whatever shape: the faults are those of values of the wrong shape and of
the input, and the given ones. -/
def Terms.any (also : Fault → Prop) : Terms where
  allowed fault := fault.IsOfReading ∨ also fault
  fits _ := True

/-- A path that a file imports names a location, whether something stands there or not. -/
def FileTree.AsksFor (tree : FileTree) (importer location : Location) : Prop :=
  ∃ path, (∃ fields paths, Loader.readFile tree (absolute importer) = .ok (.obj fields) ∧
    Document.importPaths fields = .ok paths ∧ .str path ∈ paths ∧ path ≠ "") ∧
    Loader.importLocation tree importer path = .ok location

namespace Loader

variable {α β : Type} {terms : Terms} {grammars : List NodeId}

/-- The loader keeps to the terms: from a state that shows the grammars, all of them fitting, it
leads to one that shows these and maybe further ones, and what it returns is right for them, unless
it ends in an allowed fault. -/
def EndsFrom (terms : Terms) (grammars : List NodeId) (loader : Loader α)
    (right : List NodeId → α → Prop) : Prop :=
  ∀ s views, s.Shows terms.fits grammars views →
    Ends terms.allowed (fun made : α × Loaded => ∃ grammars' views', grammars ⊆ grammars' ∧
      made.2.Shows terms.fits grammars' views' ∧ right grammars' made.1) (loader s)

/-- The loader keeps to the terms from every state and gives a grammar that is shown then. -/
def KeepsTo (terms : Terms) (loader : Loader NodeId) : Prop :=
  ∀ grammars, EndsFrom terms grammars loader fun shown id => id ∈ shown

/-- The path is resolved within the terms, to no grammar or one that is shown then. -/
def Resolves (terms : Terms) (resolve : Resolver) (path : Json) : Prop :=
  ∀ grammars, EndsFrom terms grammars (resolve path) IsAmong

section Rules

variable {right : List NodeId → α → Prop} {right' : List NodeId → β → Prop}

/-- Returning what is right keeps to the terms. -/
theorem endsFrom_pure {a : α} (h : right grammars a) : EndsFrom terms grammars (pure a) right :=
  fun _ views shows => .ok ⟨grammars, views, fun _ mem => mem, shows, h⟩

/-- An allowed fault keeps to the terms. -/
theorem endsFrom_throw {fault : Fault} (h : terms.allowed fault) :
    EndsFrom terms grammars (throw fault) right :=
  fun _ _ _ => .fault h

/-- A computation that may end in an allowed fault, and then a loader that keeps to the terms. -/
theorem endsFrom_lift {good : α → Prop} {x : Except Fault α} {f : α → Loader β}
    (first : Ends terms.allowed good x)
    (next : ∀ a, x = .ok a → good a → EndsFrom terms grammars (f a) right') :
    EndsFrom terms grammars (liftM x >>= f) right' := by
  intro s views shows
  rw [lift_bind]
  cases given : x with
  | error fault => exact .fault (first.of_eq_error given)
  | ok a => exact next a given (first.of_eq_ok given) s views shows

/-- A loader that keeps to the terms, followed by one, keeps to them. -/
theorem endsFrom_bind {x : Loader α} {f : α → Loader β} (first : EndsFrom terms grammars x right)
    (next : ∀ shown a, grammars ⊆ shown → right shown a → EndsFrom terms shown (f a) right') :
    EndsFrom terms grammars (x >>= f) right' := by
  intro s views shows
  show Ends _ _ (x s >>= fun made => f made.1 made.2)
  refine (first s views shows).bind ?_
  rintro ⟨a, s'⟩ ⟨shown, views', more, shows', isRight⟩
  refine (next shown a more isRight s' views' shows').mono (fun _ h => h) ?_
  rintro made ⟨shown', views'', more', shows'', isRight'⟩
  exact ⟨shown', views'', fun _ mem => more' (more mem), shows'', isRight'⟩

/-- A loader that looks at the state first keeps to the terms when it does so from every state. -/
theorem endsFrom_get {f : Loaded → Loader β}
    (next : ∀ s views, s.Shows terms.fits grammars views →
      Ends terms.allowed (fun made : β × Loaded => ∃ grammars' views', grammars ⊆ grammars' ∧
        made.2.Shows terms.fits grammars' views' ∧ right' grammars' made.1) (f s s)) :
    EndsFrom terms grammars (get >>= f) right' := next

/-- A change of the state that keeps what is shown keeps to the terms. -/
theorem endsFrom_modify {change : Loaded → Loaded} {f : Unit → Loader β} {shown : List NodeId}
    (more : grammars ⊆ shown)
    (changed : ∀ (s : Loaded) views, s.Shows terms.fits grammars views →
      ∃ views', (change s).Shows terms.fits shown views')
    (next : EndsFrom terms shown (f ()) right') :
    EndsFrom terms grammars (modify change >>= f) right' := by
  intro s views shows
  obtain ⟨views', shows'⟩ := changed s views shows
  refine (next (change s) views' shows').mono (fun _ h => h) ?_
  rintro made ⟨shown', views'', more', shows'', isRight⟩
  exact ⟨shown', views'', fun _ mem => more' (more mem), shows'', isRight⟩

end Rules

section Documents

variable {resolve : Resolver}

/-- Resolving imports within the terms finds grammars that are shown. -/
theorem endsFrom_resolveAll {paths : List Json}
    (each : ∀ path ∈ paths, path.isPresent = true →
      terms.Admits path ∧ Resolves terms resolve path) :
    EndsFrom terms grammars (resolveAll resolve paths) fun shown found =>
      ∀ id ∈ found.map Prod.snd, id ∈ shown := by
  induction paths generalizing grammars with
  | nil => exact endsFrom_pure fun _ mem => absurd mem List.not_mem_nil
  | cons path rest ih =>
    rw [List.forall_mem_cons] at each
    rw [resolveAll]
    split
    · next present =>
      obtain ⟨admits, resolves⟩ := each.1 present
      refine endsFrom_bind (resolves grammars) fun shown found _ among => ?_
      cases found with
      | none => exact ih each.2
      | some id =>
        have given : ∀ text, path = .str text →
            EndsFrom terms shown (do
              let found ← resolveAll resolve rest
              return (text, id) :: found) fun shown found => ∀ id ∈ found.map Prod.snd, id ∈ shown := by
          intro text _
          refine endsFrom_bind (ih each.2) fun shown' found more areShown => endsFrom_pure ?_
          intro other mem
          rcases List.mem_cons.mp mem with rfl | later
          · exact more (among _ rfl)
          · exact areShown other later
        rcases admits with ⟨text, rfl⟩ | allowed
        · exact given text rfl
        · cases path with
          | str text => exact given text rfl
          | _ => exact endsFrom_throw allowed
    · exact ih each.2

/-- A document that keeps to the terms is loaded within them when its imports are resolved so. -/
theorem keepsTo_load {value : Json} (reads : terms.Reads value)
    (resolves : ∀ fields paths, Document.fieldsOf value = .ok fields →
      Document.importPaths fields = .ok paths → ∀ path ∈ paths, path.isPresent = true →
        terms.Admits path → Resolves terms resolve path) : KeepsTo terms (load resolve value) := by
  intro grammars
  unfold load
  refine endsFrom_lift reads fun fields isGrammar readsFields => ?_
  refine endsFrom_lift readsFields.imports fun paths listed admits => ?_
  rw [importAll_eq, bind_assoc]
  refine endsFrom_bind (endsFrom_resolveAll fun path mem present =>
    ⟨admits path mem present, resolves fields paths isGrammar listed path mem present
      (admits path mem present)⟩) fun shown found _ areShown => ?_
  rw [pure_bind]
  refine endsFrom_lift readsFields.document fun document _ links => endsFrom_get ?_
  intro s views shows
  have imports : ∀ g ∈ (Imported.insertAll [] found).map Prod.snd, g ∈ shown := by
    intro g mem
    rcases Imported.mem_insertAll mem with here | before
    · exact areShown g here
    · exact absurd before List.not_mem_nil
  rw [lift_bind]
  cases linked : document.link fields (Imported.insertAll [] found) s.model with
  | error fault => exact .fault ((links.addresses _ _).of_eq_error linked)
  | ok made =>
    obtain ⟨m, id⟩ := made
    refine .ok ⟨id :: shown, _, List.subset_cons_self _ _, shows.cons ?_
      (shows.displays.link imports linked) ?_, List.mem_cons_self⟩
    · exact shows.displays.not_mem (Document.isLinked_of_link linked).new
    · exact links.view views _ fun g mem => shows.fitting g (imports g mem)

/-- The resolver that knows no documents keeps to all terms. -/
theorem resolves_noImports (path : Json) : Resolves terms noImports path :=
  fun grammars => endsFrom_pure (isAmong_none grammars)

/-- Attached documents are resolved within the terms when they are loaded so. -/
theorem resolves_attachedImport {attached : Fields} {loadDocument : Json → Loader NodeId}
    (loads : ∀ path value, attached.get? path = some value → KeepsTo terms (loadDocument value))
    {path : Json} (admits : terms.Admits path) :
    Resolves terms (attachedImport attached loadDocument) path := by
  intro grammars
  have given : ∀ text, EndsFrom terms grammars
      (attachedImport attached loadDocument (.str text)) IsAmong := by
    intro text s views shows
    rw [attachedImport_str]
    cases known : s.get? text with
    | some found =>
      refine .ok ⟨grammars, views, fun _ mem => mem, shows, fun id same => ?_⟩
      have isSome : found = some id := same
      exact shows.mem_of_get? (isSome ▸ known)
    | none =>
      have loading : EndsFrom terms grammars (attachedDocument attached loadDocument text)
          IsAmong := by
        unfold attachedDocument
        refine endsFrom_modify (fun _ mem => mem)
          (fun s views shows => ⟨views, shows.note text (isAmong_none grammars)⟩) ?_
        cases given : attached.get? text with
        | none => exact endsFrom_pure (isAmong_none grammars)
        | some value =>
          refine endsFrom_bind (loads text value given grammars) fun shown id _ mem => ?_
          exact endsFrom_modify (fun _ mem => mem)
            (fun s views shows => ⟨views, shows.note text (isAmong_some mem)⟩)
            (endsFrom_pure (isAmong_some mem))
      exact loading s views shows
  rcases admits with ⟨text, rfl⟩ | allowed
  · exact given text
  · cases path with
    | str text => exact given text
    | arr _ | obj _ => exact endsFrom_throw allowed
    | _ => exact endsFrom_pure (isAmong_none grammars)

/-- A document is loaded within the terms when it and the attached ones keep to them, to whatever
depth. -/
theorem keepsTo_loadAttachedTo {attached : Fields}
    (reads : ∀ path value, attached.get? path = some value → terms.Reads value) (depth : Nat)
    {value : Json} (own : terms.Reads value) : KeepsTo terms (loadAttachedTo attached depth value) := by
  induction depth generalizing value with
  | zero => exact keepsTo_load own fun _ _ _ _ path _ _ _ => resolves_noImports path
  | succ depth ih =>
    exact keepsTo_load own fun _ _ _ _ _ _ _ admits =>
      resolves_attachedImport (fun path value given => ih (reads path value given)) admits

end Documents

section Files

variable {tree : FileTree}

end Files

/-- A run of a loader that keeps to the terms gives a grammar that is shown, all shown grammars being
fitting, or ends in an allowed fault. -/
theorem KeepsTo.ends_run {loader : Loader NodeId} (h : KeepsTo terms loader) :
    Ends terms.allowed (fun made : Model × NodeId => ∃ grammars views,
      made.1.Displays grammars views ∧ (∀ g ∈ grammars, terms.fits (views g)) ∧ made.2 ∈ grammars)
      (run loader) := by
  have ends : Ends terms.allowed (fun made : NodeId × Loaded => ∃ grammars views,
      made.2.model.Displays grammars views ∧ (∀ g ∈ grammars, terms.fits (views g)) ∧
        made.1 ∈ grammars) (loader ⟨.empty, []⟩) := by
    refine (h [] ⟨.empty, []⟩ _ (Loaded.shows_empty _)).mono (fun _ h => h) ?_
    rintro made ⟨grammars, views, -, shows, mem⟩
    exact ⟨grammars, views, shows.displays, shows.fitting, mem⟩
  exact ends.bind fun made isMade => .ok isMade

end Loader
end GrammarChart
