import GrammarChart.Proofs.Diagram.Mirrors
import GrammarChart.Proofs.Document.Depth
import GrammarChart.Proofs.Document.Family

/-!
# Loaders in step

The loader of files and the loader of attached documents go through a family of documents in step
(`Family.InStep`). What both of them have loaded shows the same, what one of them has not met the
other one has not met either, and only the loader of files notes anything for a document while it is
being loaded. Such a document is not asked for, since no document of the family imports itself. So
one step of both loaders agrees (`Family.LoadInStep.import`), and so does a whole run of them, down
to every depth (`Family.loadInStep`).
-/

set_option autoImplicit false

namespace GrammarChart

open FileTree (nameOf absolute)

namespace Loader

variable {s : Loaded}

/-- A file that was not met before is loaded when it is there. -/
theorem unmetFile_of_contains {tree : FileTree} {loadFile : Location → Loader NodeId}
    {location : Location} {present : Bool}
    (contained : tree.contains (absolute location) = .ok present) :
    unmetFile tree loadFile location s = if present then
      (loadFile location s).map fun made => (some made.1, made.2) else .ok (none, s) := by
  rw [unmetFile, contained]
  cases present with
  | false => rfl
  | true =>
    show (loadFile location s >>= fun made => _) = _
    cases loadFile location s <;> rfl

/-- A document that was not met before is loaded between two notes. -/
theorem attachedDocument_of_get? {attached : Fields} {loadDocument : Json → Loader NodeId}
    {path : String} {value : Json} (found : attached.get? path = some value) :
    attachedDocument attached loadDocument path s =
      ((loadDocument value (s.note path none)).map fun made =>
        (made.1, made.2.note path (some made.1))).map fun made => (some made.1, made.2) := by
  rw [attachedDocument, found]
  show (loadDocument value (s.note path none) >>= fun made => _) = _
  cases loadDocument value (s.note path none) <;> rfl

/-- A path without an attached document is noted as one. -/
theorem attachedDocument_of_get?_eq_none {attached : Fields}
    {loadDocument : Json → Loader NodeId} {path : String} (absent : attached.get? path = none) :
    attachedDocument attached loadDocument path s = .ok (none, s.note path none) := by
  rw [attachedDocument, absent]
  rfl

end Loader

namespace Family

/-- What the loaders know of a stem: neither has met it, or there is no document of it, or both have
loaded its document. -/
inductive Knows (family : Family) (directory : Location) (R : Pairing) (s t : Loaded)
    (stem : String) : Prop where
  | unmet (file : s.get? (nameOf (fileAt directory stem)) = none)
      (path : t.get? (importPath stem) = none)
  | missing (foreign : stem ∉ family.documents.map Prod.fst)
      (file : s.get? (nameOf (fileAt directory stem)) = none)
      (path : t.get? (importPath stem) = some none)
  | loaded {g g' : NodeId} (pair : R g g')
      (file : s.get? (nameOf (fileAt directory stem)) = some (some g))
      (path : t.get? (importPath stem) = some (some g'))

/-- The loader of files is in the first state and that of attached documents in the second one, while
the documents of the given stems are being loaded. -/
structure InStep (family : Family) (directory : Location) (opened : List String) (R : Pairing)
    (s t : Loaded) : Prop where
  mirrors : Model.Mirrors R s.model t.model
  rooted : family.root.1 ∈ opened
  known : ∀ stem, IsStem stem → stem ∉ opened → family.Knows directory R s t stem

variable {family : Family} {tree : FileTree} {directory : Location} {opened : List String}
  {R R' : Pairing} {s t : Loaded} {stem importer : String} {fields : Fields}

/-- What is known of a stem is decided by the notes for it. -/
theorem Knows.congr (h : family.Knows directory R s t stem) {s' t' : Loaded}
    (file : s'.get? (nameOf (fileAt directory stem)) = s.get? (nameOf (fileAt directory stem)))
    (path : t'.get? (importPath stem) = t.get? (importPath stem)) :
    family.Knows directory R s' t' stem := by
  cases h with
  | unmet h k => exact .unmet (file.trans h) (path.trans k)
  | missing foreign h k => exact .missing foreign (file.trans h) (path.trans k)
  | loaded pair h k => exact .loaded pair (file.trans h) (path.trans k)

/-- What is known of a stem stays known when more grammars are paired. -/
theorem Knows.mono (h : family.Knows directory R s t stem) (more : R ≤ R') :
    family.Knows directory R' s t stem := by
  cases h with
  | unmet h k => exact .unmet h k
  | missing foreign h k => exact .missing foreign h k
  | loaded pair h k => exact .loaded (more _ _ pair) h k

namespace InStep

/-- The loaders start in step, with the document that is to be loaded. -/
theorem start (proper : FileTree.IsProper directory) (fields : Fields) :
    family.InStep directory [family.root.1] .none
      (Loaded.enterFile (fileAt directory family.root.1) fields ⟨.empty, []⟩) ⟨.empty, []⟩ where
  mirrors := Model.Mirrors.empty.standIn _ _
  rooted := List.mem_singleton_self _
  known := by
    intro stem isStem other
    refine .unmet ?_ rfl
    rw [Loaded.get?_enterFile, if_neg]
    · rfl
    · intro same
      refine other (List.mem_singleton.mpr (nameOf_fileAt_inj proper isStem ?_ same.symm))
      exact family.stems _ List.mem_cons_self

/-- A further document is opened. -/
theorem enter (h : family.InStep directory opened R s t) (proper : FileTree.IsProper directory)
    (isStem : IsStem stem) (fields : Fields) : family.InStep directory (stem :: opened) R
      (s.enterFile (fileAt directory stem) fields) (t.note (importPath stem) none) where
  mirrors := h.mirrors.standIn _ _
  rooted := List.mem_cons_of_mem _ h.rooted
  known := by
    intro other isStem' new
    rw [List.mem_cons, not_or] at new
    refine (h.known other isStem' new.2).congr ?_ ?_
    · rw [Loaded.get?_enterFile, if_neg fun same =>
        new.1 (nameOf_fileAt_inj proper isStem' isStem same.symm)]
    · rw [Loaded.get?_note, if_neg fun same => new.1 (importPath_inj same).symm]

/-- The document that was opened last is loaded. -/
theorem leave (h : family.InStep directory (stem :: opened) R s t)
    (proper : FileTree.IsProper directory) (rooted : family.root.1 ∈ opened) (isStem : IsStem stem)
    {g g' : NodeId} (pair : R g g') : family.InStep directory opened R
      (s.leaveFile (fileAt directory stem) g) (t.note (importPath stem) (some g')) where
  mirrors := h.mirrors.rename g _ _
  rooted := rooted
  known := by
    intro other isStem' closed
    by_cases same : other = stem
    · subst same
      refine .loaded pair ?_ ?_
      · rw [Loaded.get?_leaveFile, if_pos rfl]
      · rw [Loaded.get?_note, if_pos rfl]
    · refine (h.known other isStem' fun mem => ?_).congr ?_ ?_
      · exact (List.mem_cons.mp mem).elim same closed
      · rw [Loaded.get?_leaveFile, if_neg fun named =>
          same (nameOf_fileAt_inj proper isStem' isStem named.symm)]
      · rw [Loaded.get?_note, if_neg fun named => same (importPath_inj named).symm]

/-- A path is noted that leads to no document. -/
theorem noteMissing (h : family.InStep directory opened R s t)
    (foreign : stem ∉ family.documents.map Prod.fst)
    (new : s.get? (nameOf (fileAt directory stem)) = none) :
    family.InStep directory opened R s (t.note (importPath stem) none) where
  mirrors := h.mirrors
  rooted := h.rooted
  known := by
    intro other isStem closed
    by_cases same : other = stem
    · subst same
      refine .missing foreign new ?_
      rw [Loaded.get?_note, if_pos rfl]
    · refine (h.known other isStem closed).congr rfl ?_
      rw [Loaded.get?_note, if_neg fun named => same (importPath_inj named).symm]

/-- The same document is linked on both sides. -/
theorem link (h : family.InStep directory opened R s t) {made made' : Model × NodeId}
    (linked : Model.LinkedAlike R made made') :
    family.InStep directory opened (R.with made.2 made'.2) { s with model := made.1 }
      { t with model := made'.1 } where
  mirrors := linked
  rooted := h.rooted
  known := fun other isStem closed =>
    ((h.known other isStem closed).mono fun _ _ pair => .inl pair).congr rfl rfl

end InStep

/-- What both loaders have made is related, and they still are in step. What was paired before still
is. -/
def GoesOn {α β : Type} (family : Family) (directory : Location) (opened : List String)
    (R : Pairing) (S : Pairing → α → β → Prop) (made : α × Loaded) (made' : β × Loaded) : Prop :=
  ∃ R', R ≤ R' ∧ S R' made.1 made'.1 ∧ family.InStep directory opened R' made.2 made'.2

/-- Both loaders have made paired grammars. -/
abbrev MakesPair (family : Family) (directory : Location) (opened : List String) (R : Pairing) :
    NodeId × Loaded → NodeId × Loaded → Prop :=
  family.GoesOn directory opened R fun R' => R'

/-- What goes on from later pairs goes on from earlier ones. -/
theorem GoesOn.trans {α β : Type} {S : Pairing → α → β → Prop} {made : α × Loaded}
    {made' : β × Loaded} (more : R ≤ R') (h : family.GoesOn directory opened R' S made made') :
    family.GoesOn directory opened R S made made' := by
  obtain ⟨R'', further, related, step⟩ := h
  exact ⟨R'', more.trans further, related, step⟩

section Documents

variable {resolve resolve' : Resolver}

end Documents

/-- The loaders of files and of documents load the documents of the family in step: those which were
not met before, and which the documents that are being loaded import. -/
def LoadInStep (family : Family) (directory : Location) (loadFile : Location → Loader NodeId)
    (loadDocument : Json → Loader NodeId) : Prop :=
  ∀ stem fields opened R s t, (stem, fields) ∈ family.others → stem ∉ opened →
    (∀ other ∈ opened, Relation.TransGen (Imports family.documents) other stem) →
    family.InStep directory opened R s t →
    Agree (family.MakesPair directory opened R) (loadFile (fileAt directory stem) s)
      ((loadDocument (.obj fields) (t.note (importPath stem) none)).map fun made =>
        (made.1, made.2.note (importPath stem) (some made.1)))

/-- An import of the document that was opened last is found in step. -/
theorem LoadInStep.import {loadFile : Location → Loader NodeId}
    {loadDocument : Json → Loader NodeId} (h : family.LoadInStep directory loadFile loadDocument)
    (laid : family.LiesIn tree directory) (fits : family.FitsIn directory) (isStem : IsStem stem)
    (imports : Imports family.documents importer stem)
    (above : ∀ other ∈ opened,
      Relation.ReflTransGen (Imports family.documents) other importer)
    (step : family.InStep directory opened R s t) :
    Agree (family.GoesOn directory opened R Option.Rel)
      (Loader.fileImport tree (fileAt directory importer) loadFile (.str (importPath stem)) s)
      (Loader.attachedImport family.attached loadDocument (.str (importPath stem)) t) := by
  have path : ∀ other ∈ opened, Relation.TransGen (Imports family.documents) other stem :=
    fun other mem => Relation.TransGen.tail' (above other mem) imports
  -- A document that is being loaded would import itself.
  have closed : stem ∉ opened := fun mem => family.acyclic stem (path stem mem)
  have contained := laid.contains fits imports isStem
  rw [Loader.fileImport_str, laid.importLocation isStem importer, ok_bind,
    Loader.attachedImport_str]
  cases step.known stem isStem closed with
  | loaded pair file known =>
    rw [file, known]
    exact .ok ⟨R, le_refl R, .some pair, step⟩
  | missing foreign file known =>
    rw [file, known, Option.elim_none, Loader.unmetFile_of_contains contained,
      if_neg (by simpa using foreign)]
    exact .ok ⟨R, le_refl R, .none, step⟩
  | unmet file known =>
    rw [file, known, Option.elim_none, Option.elim_none, Loader.unmetFile_of_contains contained]
    by_cases mem : stem ∈ family.documents.map Prod.fst
    · obtain ⟨⟨_, fields⟩, inside, rfl⟩ := List.mem_map.mp mem
      -- The document that it all started with is still being loaded.
      have other : (_, fields) ∈ family.others :=
        (List.mem_cons.mp inside).resolve_left fun same => closed (same ▸ step.rooted)
      rw [if_pos (by simpa using mem), Loader.attachedDocument_of_get? (get?_attached other)]
      have loaded := h _ fields opened R s t other closed path step
      exact loaded.map fun made made' ⟨R', more, pair, step'⟩ => ⟨R', more, .some pair, step'⟩
    · have absent : stem ∉ family.others.map Prod.fst := fun inside =>
        mem (List.mem_cons_of_mem _ inside)
      rw [if_neg (by simpa using mem),
        Loader.attachedDocument_of_get?_eq_none (get?_attached_of_not_mem absent)]
      exact .ok ⟨R, le_refl R, .none, step.noteMissing mem file⟩

end Family
end GrammarChart
