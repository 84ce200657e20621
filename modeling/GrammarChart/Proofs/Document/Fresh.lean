import GrammarChart.Proofs.Document.Traces

/-!
# Fresh loading

Every name that a loader reads was unknown before and is known from then on, so none is read twice
(`Traced.isFresh_loadFileTo`, `Traced.isSteady_loadAttachedTo`), and what is known of a name stays as
it is (`Loaded.Stays`). From the first grammar on that the imports of a path are answered with, they
are answered with this grammar (`Traced.IsSteady`).
-/

set_option autoImplicit false

namespace GrammarChart

namespace Traced

variable {α β : Type} {x : Traced α} {f : α → Traced β} {s s' : Loaded} {a : α}

/-- A loader that faults reads nothing further. -/
theorem namesRead_bind_of_error {fault : Fault} (h : (x s).2 = .error fault) :
    (x >>= f).namesRead s = x.namesRead s := by
  rw [namesRead, bind_of_error h, namesRead]

/-- One loader and then another one read the names of both. -/
theorem namesRead_bind_of_ok (h : (x s).2 = .ok (a, s')) :
    (x >>= f).namesRead s = x.namesRead s ++ (f a).namesRead s' := by
  rw [namesRead, bind_of_ok h, List.filterMap_append]
  rfl

/-- A loader that faults answers nothing further. -/
theorem answers_bind_of_error {fault : Fault} (h : (x s).2 = .error fault) :
    (x >>= f).answers s = x.answers s := by
  rw [answers, bind_of_error h, answers]

/-- One loader and then another one give the answers of both. -/
theorem answers_bind_of_ok (h : (x s).2 = .ok (a, s')) :
    (x >>= f).answers s = x.answers s ++ (f a).answers s' := by
  rw [answers, bind_of_ok h, List.filterMap_append]
  rfl

/-- From a state on, the names that are read were unknown and are different from each other. When
there is no fault they are known in the end, and what was known stays so. -/
structure IsFresh (x : Traced α) (s : Loaded) : Prop where
  distinct : (x.namesRead s).Nodup
  unknown : ∀ name ∈ x.namesRead s, s.get? name = none
  known : ∀ a s', (x s).2 = .ok (a, s') → ∀ name ∈ x.namesRead s, s'.get? name ≠ none
  stays : ∀ a s', (x s).2 = .ok (a, s') → s.Stays s'

namespace IsFresh

/-- A loader during which nothing happens is fresh when what is known stays so. -/
theorem silent {x : Loader α} (stays : ∀ a s', x s = .ok (a, s') → s.Stays s') :
    (silent x).IsFresh s :=
  ⟨.nil, fun _ mem => absurd mem List.not_mem_nil, fun _ _ _ _ mem => absurd mem List.not_mem_nil,
    stays⟩

/-- What a loader does from a state on decides whether it is fresh there. -/
theorem congr {x y : Traced α} (same : x s = y s) (h : y.IsFresh s) : x.IsFresh s := by
  have names : x.namesRead s = y.namesRead s := by rw [namesRead, same, namesRead]
  refine ⟨?_, ?_, ?_, ?_⟩
  · rw [names]
    exact h.distinct
  · rw [names]
    exact h.unknown
  · rw [names, same]
    exact h.known
  · rw [same]
    exact h.stays

/-- A loader that reads an unknown name and then faults is fresh. -/
theorem of_error {name : String} {fault : Fault} (new : s.get? name = none)
    (h : x s = ([.read name], .error fault)) : x.IsFresh s := by
  have names : x.namesRead s = [name] := by rw [namesRead, h]; rfl
  refine ⟨?_, ?_, ?_, ?_⟩
  · rw [names]
    exact List.nodup_singleton name
  · rw [names]
    exact fun read mem => List.mem_singleton.mp mem ▸ new
  · rw [h]
    exact fun _ _ result => by cases result
  · rw [h]
    exact fun _ _ result => by cases result

/-- One fresh loader and then another one are fresh: what the second one reads is unknown where it
starts, and what the first one read is known there. -/
theorem bind (h : x.IsFresh s) (next : ∀ a s', (x s).2 = .ok (a, s') → (f a).IsFresh s') :
    (x >>= f).IsFresh s := by
  rcases run : (x s).2 with fault | ⟨a, s'⟩
  · refine ⟨?_, ?_, ?_, ?_⟩
    · rw [namesRead_bind_of_error run]
      exact h.distinct
    · rw [namesRead_bind_of_error run]
      exact h.unknown
    · rw [bind_of_error run]
      exact fun _ _ result => by cases result
    · rw [bind_of_error run]
      exact fun _ _ result => by cases result
  · have rest := next a s' run
    have stays := h.stays a s' run
    refine ⟨?_, ?_, ?_, ?_⟩
    · rw [namesRead_bind_of_ok run, List.nodup_append]
      refine ⟨h.distinct, rest.distinct, ?_⟩
      rintro name first _ second rfl
      exact h.known a s' run name first (rest.unknown name second)
    · rw [namesRead_bind_of_ok run]
      intro name mem
      rcases List.mem_append.mp mem with first | second
      · exact h.unknown name first
      · exact stays.unknown (rest.unknown name second)
    · rw [namesRead_bind_of_ok run, bind_of_ok run]
      intro b s'' result name mem
      rcases List.mem_append.mp mem with first | second
      · intro absent
        exact h.known a s' run name first ((rest.stays b s'' result).unknown absent)
      · exact rest.known b s'' result name second
    · rw [bind_of_ok run]
      exact fun b s'' result => stays.trans (rest.stays b s'' result)

/-- An answer is fresh. -/
theorem answer (path : String) (found : Option NodeId) (s : Loaded) :
    (tell (.answer path found)).IsFresh s :=
  ⟨.nil, fun _ mem => absurd mem List.not_mem_nil, fun _ _ _ _ mem => absurd mem List.not_mem_nil,
    fun _ _ run => by cases run; exact .refl s⟩

end IsFresh

section Within

variable {name : String} {enter : Loaded → Loaded} {body : Traced α} {leave : α → Loaded → Loaded}

/-- A result within notes is one of the body, and the notes are made around it. -/
theorem exists_of_within
    (result : ((tell (.read name) >>= fun _ => within enter body leave) s).2 = .ok (a, s')) :
    ∃ between, (body (enter s)).2 = .ok (a, between) ∧ s' = leave a between := by
  rw [read_within] at result
  obtain ⟨⟨b, between⟩, run, same⟩ := map_eq_ok.mp result
  cases same
  exact ⟨between, run, rfl⟩

/-- Reading an unknown name and going on within it is fresh when the loader is fresh from there on,
and nothing else but the notes under the name changes. -/
theorem isFresh_within (new : s.get? name = none) (noted : (enter s).get? name ≠ none)
    (closed : ∀ a s, (leave a s).get? name ≠ none)
    (entered : ∀ other, name ≠ other → (enter s).get? other = s.get? other)
    (left : ∀ a s other, name ≠ other → (leave a s).get? other = s.get? other)
    (fresh : body.IsFresh (enter s)) :
    (tell (.read name) >>= fun _ => within enter body leave).IsFresh s := by
  have names : (tell (.read name) >>= fun _ => within enter body leave).namesRead s =
      name :: body.namesRead (enter s) := by
    rw [namesRead, read_within]
    rfl
  have inside : ∀ read ∈ body.namesRead (enter s), name ≠ read := by
    rintro read mem rfl
    exact noted (fresh.unknown name mem)
  refine ⟨?_, ?_, ?_, ?_⟩
  · rw [names]
    exact List.nodup_cons.mpr ⟨fun mem => inside name mem rfl, fresh.distinct⟩
  · rw [names]
    intro read mem
    rcases List.mem_cons.mp mem with rfl | later
    · exact new
    · rw [← entered read (inside read later)]
      exact fresh.unknown read later
  · rw [names]
    intro a s' result read mem
    obtain ⟨between, run, rfl⟩ := exists_of_within result
    rcases List.mem_cons.mp mem with rfl | later
    · exact closed a between
    · rw [left a between read (inside read later)]
      exact fresh.known a between run read later
  · intro a s' result other before found
    obtain ⟨between, run, rfl⟩ := exists_of_within result
    have apart : name ≠ other := by
      rintro rfl
      rw [new] at found
      cases found
    rw [left a between other apart]
    exact fresh.stays a between run other before ((entered other apart).trans found)

end Within

/-- A property of loaders from a state on that holds when nothing happens and what is known stays so,
and of one loader and then another one when it holds of both. -/
structure Composes (Q : ∀ {α : Type}, Traced α → Loaded → Prop) : Prop where
  silent : ∀ {α : Type} {x : Loader α} {s : Loaded},
    (∀ a s', x s = .ok (a, s') → s.Stays s') → Q (Traced.silent x) s
  bind : ∀ {α β : Type} {x : Traced α} {f : α → Traced β} {s : Loaded}, Q x s →
    (∀ a s', (x s).2 = .ok (a, s') → Q (f a) s') → Q (x >>= f) s

/-- Freshness composes. -/
theorem composes_isFresh : Composes IsFresh := ⟨.silent, .bind⟩

namespace Composes

variable {Q : ∀ {α : Type}, Traced α → Loaded → Prop} (composes : Composes Q)

include composes

/-- Returning a result has the property. -/
theorem pure (a : α) (s : Loaded) : Q (Pure.pure a : Traced α) s :=
  composes.silent fun _ _ run => by cases run; exact .refl s

/-- A computation that may fault has the property. -/
theorem lift (x : Except Fault α) (s : Loaded) : Q (Traced.silent (liftM x)) s :=
  composes.silent fun a s' run => by
    cases x with
    | error fault => cases run
    | ok b => cases run; exact .refl s

/-- Replacing the result keeps the property. -/
theorem map (h : Q x s) (f : α → β) : Q (f <$> x) s :=
  composes.bind h fun a s' _ => composes.pure (f a) s'

/-- Looking at the state and going on from it has the property when going on has it. -/
theorem get {f : Loaded → Traced β} (h : Q (f s) s) :
    Q (Traced.silent MonadState.get >>= f) s :=
  composes.bind (composes.silent fun _ _ run => by cases run; exact .refl s) fun _ _ run => by
    cases run
    exact h

/-- Resolving import paths has the property when the resolver has it. -/
theorem importAll {resolve : Resolver} (each : ∀ path s, Q (resolve path) s)
    (paths : List Json) : ∀ (imported : Imported) (s : Loaded),
      Q (Traced.importAll resolve paths imported) s := by
  induction paths with
  | nil => exact composes.pure
  | cons path rest ih =>
    intro imported s
    rw [Traced.importAll]
    split
    · refine composes.bind (each path s) fun found s' _ => ?_
      cases found with
      | none => exact ih imported s'
      | some id =>
        cases path with
        | str text => exact ih _ s'
        | _ => exact composes.silent fun _ _ run => by cases run
    · exact ih imported s

/-- Loading a document has the property when the resolver has it. -/
theorem load {resolve : Resolver} (each : ∀ path s, Q (resolve path) s) (value : Json)
    (s : Loaded) : Q (Traced.load resolve value) s := by
  refine composes.bind (composes.lift _ s) fun fields s _ => ?_
  refine composes.bind (composes.lift _ s) fun paths s _ => ?_
  refine composes.bind (composes.importAll each paths [] s) fun imported s _ => ?_
  refine composes.silent fun id s' run => ?_
  obtain ⟨document, -, run⟩ := Loader.lift_bind_eq_ok.mp run
  obtain ⟨_, _, ⟨⟩, run⟩ := Loader.bind_eq_ok.mp run
  obtain ⟨made, -, run⟩ := Loader.lift_bind_eq_ok.mp run
  cases run
  exact fun _ _ found => found

end Composes

section Attached

/-- From a state on, the imports of a path are answered with its grammar from the first time on that
they are answered with one: where it was known before, from the beginning. -/
structure IsSteady (x : Traced α) (s : Loaded) : Prop extends x.IsFresh s where
  steady : (x.answers s).Pairwise fun earlier later =>
    earlier.1 = later.1 → ∀ id, earlier.2 = some id → later.2 = some id
  given : ∀ answer ∈ x.answers s, ∀ id, s.get? answer.1 = some (some id) → answer.2 = some id
  noted : ∀ a s', (x s).2 = .ok (a, s') → ∀ answer ∈ x.answers s, ∀ id, answer.2 = some id →
    s'.get? answer.1 = some (some id)

/-- Steadiness composes. -/
theorem composes_isSteady : Composes IsSteady where
  silent := fun stays => ⟨.silent stays, .nil, fun _ mem => absurd mem List.not_mem_nil,
    fun _ _ _ _ mem => absurd mem List.not_mem_nil⟩
  bind := by
    intro α β x f s h next
    refine ⟨h.toIsFresh.bind fun a s' run => (next a s' run).toIsFresh, ?_, ?_, ?_⟩
    all_goals rcases run : (x s).2 with fault | ⟨a, s'⟩
    · rw [answers_bind_of_error run]
      exact h.steady
    · rw [answers_bind_of_ok run, List.pairwise_append]
      refine ⟨h.steady, (next a s' run).steady, fun earlier first later second same id found => ?_⟩
      refine (next a s' run).given later second id ?_
      exact same ▸ h.noted a s' run earlier first id found
    · rw [answers_bind_of_error run]
      exact h.given
    · rw [answers_bind_of_ok run]
      intro answer mem id known
      rcases List.mem_append.mp mem with first | second
      · exact h.given answer first id known
      · exact (next a s' run).given answer second id (h.stays a s' run _ _ known)
    · rw [bind_of_error run]
      exact fun _ _ result => by cases result
    · rw [answers_bind_of_ok run, bind_of_ok run]
      intro b s'' result answer mem id found
      rcases List.mem_append.mp mem with first | second
      · exact (next a s' run).stays b s'' result _ _ (h.noted a s' run answer first id found)
      · exact (next a s' run).noted b s'' result answer second id found

/-- An answer with the grammar that is known for the path, or with none where none is known, is
steady. -/
theorem isSteady_answer {path : String} {found : Option NodeId}
    (right : ∀ id, found = some id ↔ s.get? path = some (some id)) :
    (tell (.answer path found)).IsSteady s where
  toIsFresh := .answer path found s
  steady := List.pairwise_singleton _ _
  given := by
    intro answer mem id known
    obtain rfl := List.mem_singleton.mp mem
    exact (right id).mpr known
  noted := by
    intro _ _ run answer mem id given
    obtain rfl := List.mem_singleton.mp mem
    cases run
    exact (right id).mp given

variable {attached : Fields} {loadDocument : Json → Traced NodeId}

/-- A document is loaded steadily between the notes of its path. -/
theorem isSteady_within {path : String} {body : Traced NodeId} (new : s.get? path = none)
    (steady : body.IsSteady (s.note path none)) :
    (tell (.read path) >>= fun _ =>
      within (·.note path none) body fun id => (·.note path (some id))).IsSteady s := by
  have same : (tell (.read path) >>= fun _ =>
      within (·.note path none) body fun id => (·.note path (some id))).answers s =
      body.answers (s.note path none) := by
    rw [answers, read_within]
    rfl
  refine ⟨isFresh_within new ?_ ?_ ?_ ?_ steady.toIsFresh, ?_, ?_, ?_⟩
  · simp [Loaded.get?_note]
  · simp [Loaded.get?_note]
  · exact fun other apart => by rw [Loaded.get?_note, if_neg apart]
  · exact fun id s other apart => by rw [Loaded.get?_note, if_neg apart]
  · rw [same]
    exact steady.steady
  · rw [same]
    intro answer mem id known
    refine steady.given answer mem id ?_
    rw [Loaded.get?_note, if_neg, known]
    rintro rfl
    rw [new] at known
    cases known
  · rw [same]
    intro id s' result answer mem other found
    obtain ⟨between, run, rfl⟩ := exists_of_within result
    have noted := steady.noted id between run answer mem other found
    rw [Loaded.get?_note, if_neg, noted]
    -- While the document of the path is being loaded, the path has no grammar.
    rintro rfl
    have waiting := steady.stays id between run answer.1 none (by rw [Loaded.get?_note, if_pos rfl])
    rw [waiting] at noted
    cases noted

/-- What was found for a path that was not met before is noted under it. -/
theorem noted_of_attachedDocument {path : String} {found : Option NodeId}
    (run : (attachedDocument attached loadDocument path s).2 = .ok (found, s')) :
    s'.get? path = some found := by
  rw [attachedDocument] at run
  cases there : attached.get? path with
  | none =>
    rw [there] at run
    cases run
    rw [Loaded.get?_note, if_pos rfl]
  | some value =>
    rw [there] at run
    rcases made : ((tell (.read path) >>= fun _ => within (·.note path none) (loadDocument value)
        fun id => (·.note path (some id))) s).2 with fault | ⟨id, last⟩
    · have whole := congrArg Prod.snd (bind_of_error (f := fun id => Pure.pure (some id)) made)
      cases whole.symm.trans run
    · have whole := congrArg Prod.snd (bind_of_ok (f := fun id => Pure.pure (some id)) made)
      cases whole.symm.trans run
      obtain ⟨between, -, rfl⟩ := exists_of_within made
      rw [Loaded.get?_note, if_pos rfl]

/-- Finding a grammar among attached documents is steady when loading a document is. -/
theorem isSteady_attachedImport (attached : Fields)
    (steady : ∀ value s, (loadDocument value).IsSteady s) (path : Json) (s : Loaded) :
    (attachedImport attached loadDocument path).IsSteady s := by
  cases path with
  | str path =>
    refine composes_isSteady.get ?_
    cases known : s.get? path with
    | some found =>
      refine composes_isSteady.bind (composes_isSteady.pure found s) fun _ _ run => ?_
      cases run
      refine composes_isSteady.bind (isSteady_answer fun id => ?_) fun _ s' _ =>
        composes_isSteady.pure found s'
      simp [known]
    | none =>
      refine composes_isSteady.bind ?_ fun found s' run =>
        composes_isSteady.bind (isSteady_answer fun id => ?_) fun _ s' _ =>
          composes_isSteady.pure found s'
      · rw [Option.elim_none, attachedDocument]
        cases attached.get? path with
        | none =>
          refine composes_isSteady.bind (composes_isSteady.silent fun _ _ run => ?_) fun _ s' _ =>
            composes_isSteady.pure none s'
          cases run
          exact .note known none
        | some value => exact composes_isSteady.map (isSteady_within known (steady value _)) some
      · rw [noted_of_attachedDocument run, Option.some.injEq]
  | arr _ | obj _ => exact composes_isSteady.silent fun _ _ run => by cases run
  | _ => exact composes_isSteady.pure none s

/-- A document is loaded steadily with attached ones, to whatever depth. -/
theorem isSteady_loadAttachedTo (attached : Fields) (depth : Nat) (value : Json) (s : Loaded) :
    (loadAttachedTo attached depth value).IsSteady s := by
  induction depth generalizing value s with
  | zero => exact composes_isSteady.load (fun _ s => composes_isSteady.pure none s) value s
  | succ depth ih => exact composes_isSteady.load (isSteady_attachedImport attached ih) value s

end Attached

/-- A file whose name is unknown is loaded freshly when its imports are resolved so. -/
theorem isFresh_loadFileWith (tree : FileTree) {location : Location} {resolve : Resolver}
    (fresh : ∀ path s, (resolve path).IsFresh s) {s : Loaded}
    (new : s.get? (FileTree.nameOf location) = none) :
    (loadFileWith tree location resolve).IsFresh s := by
  cases read : Loader.readFile tree (FileTree.absolute location) with
  | error fault =>
    refine @IsFresh.of_error _ _ s _ fault new ?_
    rw [loadFileWith, read]
    rfl
  | ok value =>
    cases given : value.fields with
    | error fault =>
      refine @IsFresh.of_error _ _ s _ fault new ?_
      rw [loadFileWith, read]
      show (tell _ >>= fun _ => silent (liftM value.fields) >>= _) s = _
      rw [given]
      rfl
    | ok fields =>
      have whole : loadFileWith tree location resolve s =
          (tell (.read (FileTree.nameOf location)) >>= fun _ => within
            (Loaded.enterFile location fields) (load resolve value)
            (Loaded.leaveFile location)) s := by
        rw [loadFileWith, read]
        show (tell _ >>= fun _ => silent (liftM value.fields) >>= _) s = _
        rw [given]
        rfl
      refine IsFresh.congr whole (isFresh_within new ?_ ?_ ?_ ?_ (composes_isFresh.load fresh value _))
      · simp [Loaded.get?_enterFile]
      · simp [Loaded.get?_leaveFile]
      · exact fun other apart => by rw [Loaded.get?_enterFile, if_neg apart]
      · exact fun id s other apart => by rw [Loaded.get?_leaveFile, if_neg apart]

/-- Finding a grammar beside a file is fresh when loading a file with an unknown name is. -/
theorem isFresh_fileImport (tree : FileTree) (importer : Location)
    {loadFile : Location → Traced NodeId} (fresh : ∀ location s,
      s.get? (FileTree.nameOf location) = none → (loadFile location).IsFresh s)
    (path : Json) (s : Loaded) : (fileImport tree importer loadFile path).IsFresh s := by
  cases path with
  | str path =>
    refine (composes_isFresh.lift _ s).bind fun location s _ => composes_isFresh.get ?_
    cases new : s.get? (FileTree.nameOf location) with
    | some known => exact composes_isFresh.pure known s
    | none =>
      refine (composes_isFresh.lift _ s).bind fun present s' run => ?_
      have same : s' = s := by
        cases here : tree.contains (FileTree.absolute location) with
        | error fault =>
          rw [here] at run
          cases run
        | ok found =>
          rw [here] at run
          cases run
          rfl
      cases present with
      | true => exact composes_isFresh.map (fresh location s' (same ▸ new)) some
      | false => exact composes_isFresh.pure none s'
  | _ => exact .silent fun _ _ run => by cases run

/-- A file whose name is unknown is loaded freshly, to whatever depth. -/
theorem isFresh_loadFileTo (tree : FileTree) (depth : Nat) (location : Location) (s : Loaded)
    (new : s.get? (FileTree.nameOf location) = none) :
    (loadFileTo tree depth location).IsFresh s := by
  induction depth generalizing location s with
  | zero => exact isFresh_loadFileWith tree (fun _ s => composes_isFresh.pure none s) new
  | succ depth ih => exact isFresh_loadFileWith tree (isFresh_fileImport tree location ih) new

/-- A file is loaded freshly when nothing is known. -/
theorem isFresh_loadFile (tree : FileTree) (path : FilePath) :
    (loadFile tree path).IsFresh ⟨.empty, []⟩ := by
  refine IsFresh.bind (composes_isFresh.lift _ _) fun location s run => ?_
  cases resolved : tree.resolve path with
  | error fault =>
    rw [resolved] at run
    cases run
  | ok found =>
    rw [resolved] at run
    cases run
    exact isFresh_loadFileTo tree _ location _ rfl

end Traced
end GrammarChart
