import GrammarChart.Proofs.Document.Depth
import GrammarChart.Proofs.Service.Submissions

/-!
# Documents that are not imported

A document is loaded with the documents that its paths name, those that their paths name, and so on
(`Document.Reaches`), and with no others: attached documents that agree on these are loaded alike,
from every state (`Loader.loadAttached_congr`). So the service answers two submissions alike, and
leaves the same behind, when they differ only in documents that are not reached
(`Service.handle_of_sameReached`). Any objects can be attached, so a request stays a submission when
other ones are (`Request.submission?_of_reattaches`, `Service.handle_of_reattaches`).
-/

set_option autoImplicit false

namespace GrammarChart

namespace Document

/-- The document names a path to import. An empty path is passed over. -/
def Names (fields : Fields) (path : String) : Prop :=
  path ≠ "" ∧ ∃ paths, importPaths fields = .ok paths ∧ .str path ∈ paths

/-- A path is reached from a document among attached ones: the document names it, or a document that
is attached under a reached path does. -/
inductive Reaches (attached root : Fields) : String → Prop where
  | direct {path : String} : Names root path → Reaches attached root path
  | further {path other : String} {fields : Fields} : Reaches attached root path →
      attached.get? path = some (.obj fields) → Names fields other → Reaches attached root other

end Document

namespace Loader

variable {attached attached' : Fields}

/-- Resolvers that do the same for the paths of a list resolve the list in the same way. -/
theorem importAll_congr_of_mem {resolve resolve' : Resolver} {paths : List Json}
    (same : ∀ path ∈ paths, path.isPresent = true → resolve path = resolve' path) :
    ∀ imported, importAll resolve paths imported = importAll resolve' paths imported := by
  induction paths with
  | nil => exact fun _ => rfl
  | cons path rest ih =>
    intro imported
    obtain ⟨here, others⟩ := List.forall_mem_cons.mp same
    rw [importAll, importAll]
    split
    · next present =>
      rw [here present]
      refine bind_congr fun found => ?_
      cases found with
      | none => exact ih others imported
      | some id =>
        cases path with
        | str text => exact ih others _
        | _ => rfl
    · exact ih others imported

/-- Resolvers that do the same for what a document names load the document in the same way. -/
theorem load_congr_of_names {resolve resolve' : Resolver} {fields : Fields}
    (named : ∀ path, Document.Names fields path → resolve (.str path) = resolve' (.str path))
    (unnamed : ∀ path, (∀ text, path ≠ .str text) → resolve path = resolve' path) :
    load resolve (.obj fields) = load resolve' (.obj fields) := by
  funext s
  unfold load
  rw [lift_bind, lift_bind]
  cases isGrammar : Document.fieldsOf (.obj fields) with
  | error fault => rfl
  | ok given =>
    obtain rfl := eq_of_fieldsOf isGrammar
    rw [ok_bind, ok_bind, lift_bind, lift_bind]
    cases listed : Document.importPaths given with
    | error fault => rfl
    | ok paths =>
      have same : ∀ path ∈ paths, path.isPresent = true → resolve path = resolve' path := by
        intro path mem present
        cases path with
        | str text =>
          refine named text ⟨?_, paths, listed, mem⟩
          rintro rfl
          cases present
        | _ => exact unnamed _ fun _ => nofun
      rw [ok_bind, ok_bind, importAll_congr_of_mem same]

/-- What is no object names nothing, and no resolver is asked when it is loaded. -/
theorem load_of_not_object {value : Json} (other : ∀ fields, value ≠ .obj fields)
    (resolve resolve' : Resolver) : load resolve value = load resolve' value := by
  have refused : Document.fieldsOf value = .error .noField := by
    cases value <;> first | rfl | exact absurd rfl (other _)
  unfold load
  rw [refused]
  rfl

/-- Attached documents that are the same under a path, and loaded in the same way, are found in the
same way under it. -/
theorem attachedImport_congr_of_get? {loadDocument loadDocument' : Json → Loader NodeId}
    {path : String} (same : attached.get? path = attached'.get? path)
    (loads : ∀ value, attached.get? path = some value → loadDocument value = loadDocument' value) :
    attachedImport attached loadDocument (.str path) =
      attachedImport attached' loadDocument' (.str path) := by
  funext s
  rw [attachedImport_str, attachedImport_str, attachedDocument, attachedDocument, ← same]
  cases found : attached.get? path with
  | none => rfl
  | some value => simp only [loads value found]

/-- What is no text is looked up among no documents. -/
theorem attachedImport_of_not_text {loadDocument : Json → Loader NodeId} {path : Json}
    (other : ∀ text, path ≠ .str text) : attachedImport attached loadDocument path =
      if path.isAtom then pure none else throw .wrongType := by
  cases path with
  | str text => exact absurd rfl (other text)
  | _ => rfl

/-- A document that names reached paths only is loaded in the same way, to the same depth, among
attached documents that are the same under the reached paths. -/
theorem loadAttachedTo_congr {root : Fields}
    (same : ∀ path, Document.Reaches attached root path →
      attached.get? path = attached'.get? path) (depth : Nat) : ∀ {fields : Fields},
      (∀ path, Document.Names fields path → Document.Reaches attached root path) →
      loadAttachedTo attached depth (.obj fields) =
        loadAttachedTo attached' depth (.obj fields) := by
  induction depth with
  | zero =>
    intro fields inside
    rw [loadAttachedTo, loadAttachedTo]
  | succ depth ih =>
    intro fields inside
    rw [loadAttachedTo, loadAttachedTo]
    refine load_congr_of_names (fun path named => ?_) fun path other => ?_
    · have reached := inside path named
      refine attachedImport_congr_of_get? (same path reached) fun value found => ?_
      by_cases isObject : ∃ inner, value = .obj inner
      · obtain ⟨inner, rfl⟩ := isObject
        exact ih fun other named' => .further reached found named'
      · have other : ∀ inner, value ≠ .obj inner := fun inner h => isObject ⟨inner, h⟩
        cases depth with
        | zero => rw [loadAttachedTo, loadAttachedTo]
        | succ depth =>
          rw [loadAttachedTo, loadAttachedTo]
          exact load_of_not_object other _ _
    · rw [attachedImport_of_not_text other, attachedImport_of_not_text other]

/-- Attached documents that are the same under all paths that a document reaches are loaded with it
in the same way. -/
theorem loadAttached_congr {root : Fields}
    (same : ∀ path, Document.Reaches attached root path →
      attached.get? path = attached'.get? path) :
    loadAttached attached (.obj root) = loadAttached attached' (.obj root) := by
  -- There may be more documents on one side. The depth does not matter beyond that.
  let depth := attached.length + attached'.length + 1
  have deep : ∀ {attached : Fields}, attached.length < depth → ∀ s,
      loadAttached attached (.obj root) s = loadAttachedTo attached depth (.obj root) s := by
    intro attached more s
    rw [loadAttachedTo_eq_loadAttachedFrom, loadAttachedFrom_eq _ more, loadAttached]
  funext s
  rw [deep (by omega), deep (by omega), loadAttachedTo_congr same depth fun _ => .direct]

end Loader

/-- Two submissions are the same up to attached documents that are not reached. -/
structure Submission.SameReached (submission other : Submission) : Prop where
  address : submission.address = other.address
  grammar : submission.grammar = other.grammar
  withImports : submission.withImports = other.withImports
  attached : ∀ path, Document.Reaches submission.attached submission.grammar path →
    submission.attached.get? path = other.attached.get? path

namespace Service

/-- Submissions that are the same up to documents that are not reached are taken alike. -/
theorem submit_of_sameReached {submission other : Submission} (same : submission.SameReached other)
    (service : Service) (tree : FileTree) (now : String) :
    service.submit tree now submission = service.submit tree now other := by
  obtain ⟨address, grammar, attached, withImports⟩ := submission
  obtain ⟨address', grammar', attached', withImports'⟩ := other
  obtain ⟨rfl, rfl, rfl, same⟩ := same
  -- Apart from loading, a submission is asked for its address and its choice only.
  rw [submit, submit, Loader.loadAttached_congr same]
  rfl

/-- Two requests that post submissions which are the same up to documents that are not reached are
answered alike. -/
theorem handle_of_sameReached {request request' : Request} {submission submission' : Submission}
    (posts : request.submission? = some submission)
    (posts' : request'.submission? = some submission')
    (same : submission.SameReached submission') (service : Service) (tree : FileTree)
    (now : String) : service.handle tree now request = service.handle tree now request' := by
  rw [handle_of_submission? posts, handle_of_submission? posts',
    submit_of_sameReached same service tree now]

end Service

/-- The value in the body of a request, where it can be read. -/
def Request.value? (request : Request) : Option Json :=
  (Submission.textOf (request.body.getD "")).bind fun text =>
    (Json.read (String.ofList text)).toOption

/-- The other request is the same, except that the object in its body attaches the given
documents. -/
structure Request.Reattaches (request other : Request) (attached : Fields) : Prop where
  method : other.method = request.method
  target : other.target = request.target
  bodies : ∃ fields fields', request.value? = some (.obj fields) ∧
    other.value? = some (.obj fields') ∧
    (∀ key, key ≠ "imports" → Fields.get? fields' key = Fields.get? fields key) ∧
    Submission.attached? (Fields.get? fields' "imports") = some attached

/-- The written form of a value is taken as it is when its octets are not those of wider units. -/
theorem Submission.textOf_indented {value : Json}
    (narrow : Text.Encoding.detect (value.indented 0).toUTF8.toList = .octets) :
    textOf (value.indented 0) = some (value.indented 0).toList := by
  obtain ⟨c, start, -, -, noMark⟩ := Json.starts_indented value 0
  obtain ⟨others, text⟩ := List.head?_eq_some_iff.mp start
  rw [textOf]
  simp only [narrow, text]
  split
  · next same => exact absurd (List.cons.inj same).1 noMark
  · rfl
  · next wide _ => exact absurd rfl wide

/-- The submission in the body of a request is the one that its value describes. -/
theorem Request.toOption_ofBody (request : Request) :
    (Submission.ofBody request.body).toOption = request.value?.bind Submission.ofJson? := by
  unfold Submission.ofBody value?
  cases Submission.textOf (request.body.getD "") with
  | none => rfl
  | some text =>
    rw [Option.bind_some]
    dsimp only
    cases Json.read (String.ofList text) with
    | ok value =>
      dsimp only
      cases described : Submission.ofJson? value with
      | none => exact described.symm
      | some submission => exact described.symm
    | error fault => cases fault <;> rfl

/-- An object with the same fields that attaches other documents describes the submission with
these. -/
theorem Submission.ofJson?_of_attached {fields fields' attached : Fields} {submission : Submission}
    (described : ofJson? (.obj fields) = some submission)
    (others : ∀ key, key ≠ "imports" → Fields.get? fields' key = Fields.get? fields key)
    (given : attached? (Fields.get? fields' "imports") = some attached) :
    ofJson? (.obj fields') = some { submission with attached := attached } := by
  simp only [ofJson?, Option.bind_eq_bind, others "uri" (by decide), others "grammar" (by decide),
    others "include_imports" (by decide), given] at described ⊢
  obtain ⟨uri, isAddress, described⟩ := Option.bind_eq_some_iff.mp described
  rw [isAddress, Option.bind_some]
  split at described
  · obtain ⟨document, isGrammar, described⟩ := Option.bind_eq_some_iff.mp described
    rw [isGrammar, Option.bind_some]
    split at described
    · obtain ⟨_, -, described⟩ := Option.bind_eq_some_iff.mp described
      rw [Option.bind_some]
      generalize Fields.get? fields "include_imports" = choice at described ⊢
      cases choice <;>
      · obtain ⟨withImports, chosen, last⟩ := Option.bind_eq_some_iff.mp described
        cases last
        exact Option.bind_eq_some_iff.mpr ⟨withImports, chosen, rfl⟩
    · cases described
  · cases described

/-- A request that attaches other documents posts the submission with these. -/
theorem Request.submission?_of_reattaches {request other : Request} {attached : Fields}
    {submission : Submission} (posts : request.submission? = some submission)
    (reattaches : request.Reattaches other attached) :
    other.submission? = some { submission with attached := attached } := by
  obtain ⟨method, target, fields, fields', value, value', others, given⟩ := reattaches
  unfold submission? at posts ⊢
  rw [toOption_ofBody, value, Option.bind_some] at posts
  rw [toOption_ofBody, value', Option.bind_some, target, method]
  split at posts
  · split at posts
    · next isPost =>
      rw [if_pos isPost]
      exact Submission.ofJson?_of_attached posts others given
    · cases posts
  · cases posts

namespace Service

/-- **Documents that are not reached do not matter.** A request posts a submission, and another one
attaches documents that are the same under the paths that the posted grammar reaches; under all
other paths documents may be left out, added or replaced by any objects. Then the other request
posts a submission as well, and the service answers both alike, with the same notes, and leaves the
same store and the same files behind. -/
theorem handle_of_reattaches {request other : Request} {submission : Submission}
    {attached : Fields} (posts : request.submission? = some submission)
    (reattaches : request.Reattaches other attached)
    (same : ∀ path, Document.Reaches submission.attached submission.grammar path →
      submission.attached.get? path = attached.get? path)
    (service : Service) (tree : FileTree) (now : String) :
    other.submission? = some { submission with attached := attached } ∧
      service.handle tree now other = service.handle tree now request := by
  have posts' := Request.submission?_of_reattaches posts reattaches
  have alike : submission.SameReached { submission with attached := attached } :=
    ⟨rfl, rfl, rfl, same⟩
  exact ⟨posts', (handle_of_sameReached posts posts' alike service tree now).symm⟩

/-- The body of a request with a document that imports another one. -/
def importingBody (attached : Fields) : Json := .obj [("uri", .str "a"),
  ("grammar", .obj [("imports", .arr [.obj [("path", .str "e")]])]), ("imports", .obj attached)]

/-- A request with a document that imports another one, among attached documents. -/
def importingPost (attached : Fields) : Request :=
  ⟨"POST", "/api/diagrams", some ((importingBody attached).indented 0)⟩

/-- The imported document. -/
def importedOnly : Fields := [("e", .obj [])]

/-- The imported document behind a further one of the same stem, which is no grammar. -/
def importedAndFurther : Fields := [("x/e", .obj [("$type", .str "Model")]), ("e", .obj [])]

/-- The further document does not change the answer. -/
theorem handle_of_reattaches_further :
    let request := importingPost importedOnly
    let other := importingPost importedAndFurther
    ∃ submission, request.submission? = some submission ∧
      request.Reattaches other importedAndFurther ∧
      (∀ path, Document.Reaches submission.attached submission.grammar path →
        submission.attached.get? path = importedAndFurther.get? path) ∧
      ∀ (service : Service) (tree : FileTree) (now : String),
        other.submission? = some { submission with attached := importedAndFurther } ∧
          service.handle tree now other = service.handle tree now request := by
  intro request other
  have proper : ∀ attached ∈ [importedOnly, importedAndFurther],
      (importingBody attached).IsWritable ∧ (importingBody attached).IsExact := by
    simp [importingBody, importedOnly, importedAndFurther, Fields.keys, Json.IsWritable,
      Json.fieldsWritable, Json.areWritable, Json.IsExact, Json.fieldsExact, Json.areExact]
  have narrow : ∀ attached ∈ [importedOnly, importedAndFurther],
      Text.Encoding.detect ((importingBody attached).indented 0).toUTF8.toList = .octets := by
    decide +kernel
  -- Both bodies are read as they were written.
  have reads : ∀ attached ∈ [importedOnly, importedAndFurther],
      (importingPost attached).value? = some (importingBody attached) := by
    intro attached mem
    obtain ⟨writable, exact'⟩ := proper attached mem
    rw [Request.value?, importingPost, Option.getD_some,
      Submission.textOf_indented (narrow attached mem), Option.bind_some, String.ofList_toList,
      Json.read_indented writable, Json.readBack_eq_self _ exact']
    rfl
  have value : request.value? = some (importingBody importedOnly) := reads _ (by simp)
  have value' : other.value? = some (importingBody importedAndFurther) := reads _ (by simp)
  have route : Route.ofTarget request.target = .ok (some .diagrams) :=
    Route.ofTarget_of_toOption (by decide +kernel)
  have posts : request.submission? = some
      ⟨"a", [("imports", .arr [.obj [("path", .str "e")]])], importedOnly, true⟩ := by
    rw [Request.submission?, route, Request.toOption_ofBody, value]
    rfl
  have method : ∀ attached, (importingPost attached).method = "POST" := fun _ => rfl
  have target : ∀ attached, (importingPost attached).target = "/api/diagrams" := fun _ => rfl
  have reattaches : request.Reattaches other importedAndFurther := by
    refine ⟨(method _).trans (method _).symm, (target _).trans (target _).symm, _, _, value, value',
      fun key different => ?_, rfl⟩
    simp [Fields.get?, different.symm]
  have same : ∀ path, Document.Reaches importedOnly
      [("imports", .arr [.obj [("path", .str "e")]])] path →
      importedOnly.get? path = importedAndFurther.get? path := by
    intro path reached
    suffices only : path = "e" by
      rw [only]
      rfl
    induction reached with
    | direct names =>
      obtain ⟨-, paths, listed, mem⟩ := names
      cases listed
      simpa [Fields.getD, Fields.get?] using mem
    | further _ found names earlier =>
      subst earlier
      cases found
      obtain ⟨-, paths, listed, mem⟩ := names
      cases listed
      cases mem
  exact ⟨_, posts, reattaches, same, handle_of_reattaches posts reattaches same⟩

end Service
end GrammarChart
