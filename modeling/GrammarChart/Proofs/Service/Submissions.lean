import Mathlib
import GrammarChart.Proofs.Document.Binding
import GrammarChart.Proofs.Document.Runs
import GrammarChart.Proofs.Store.Archive
import GrammarChart.Service.Basic

/-!
# What comes of a submission

A submission either has a drawing or not (`Submission.drawing?`). Without one the service and the
files stay as they are and no diagram is shown (`Service.submit_of_drawing?_eq_none`); with one the
drawing is stored, and then it is shown unless the name of the grammar cannot be
(`Service.submit_of_keeps`). A request that posts no submission changes nothing
(`Service.handle_of_submission?_eq_none`). The name of the grammar is the one that the submission
gives (`Submission.name_of_run`), so an entry with it can be written and read again.
-/

set_option autoImplicit false

namespace GrammarChart

/-- What is drawn of a submission: a diagram, and the number of its rules. -/
structure Drawing where
  diagram : String
  rules : Nat

/-- The text in a field of the object that a response shows. -/
def Response.field? (response : Response) (key : String) : Option String :=
  match response.status, response.body with
  | 200, .json (.obj fields) => (Fields.get? fields key).bind Json.text?
  | _, _ => none

/-- The submission that a request posts, if it posts one. -/
def Request.submission? (request : Request) : Option Submission :=
  match Route.ofTarget request.target with
  | .ok (some .diagrams) =>
    if request.method = "POST" then (Submission.ofBody request.body).toOption else none
  | _ => none

/-- A route that is found is the route of the target. -/
theorem Route.ofTarget_of_toOption {target : String} {route : Option Route}
    (h : (ofTarget target).toOption = some route) : ofTarget target = .ok route := by
  cases found : ofTarget target with
  | error fault => rw [found] at h; cases h
  | ok given => rw [found] at h; rw [← Option.some.inj h]

/-- The request asks for the diagram of a name. -/
structure Request.AsksFor (request : Request) (name : String) : Prop where
  method : request.method = "GET"
  route : Route.ofTarget request.target = .ok (some (.diagram name))

namespace Submission

/-- The name of the document. -/
def name (submission : Submission) : String :=
  DocumentName.ofAddress submission.address

/-- The name of the grammar. -/
def grammarName (submission : Submission) : Json :=
  (submission.grammar.getD "name" .null).orElse (.str "")

/-- The name of the grammar can be shown to a client. -/
def IsShowable (submission : Submission) : Prop :=
  submission.grammarName.shown.hasUnboundedNumber = false

/-- The drawing of the submission, unless it stops on the way or the grammar has errors. -/
def drawing? (verbose : Bool) (submission : Submission) : Option Drawing :=
  match Loader.run (Loader.loadAttached submission.attached (.obj submission.grammar)) with
  | .error _ => none
  | .ok (m, id) =>
    match (m.compileGrammar verbose submission.withImports id .idle).result with
    | .ok (some diagram) =>
      match m.collectRules id submission.withImports with
      | .ok rules => some ⟨diagram, rules.length⟩
      | .error _ => none
    | _ => none

/-- What is stored of the submission with its drawing. -/
def filed (submission : Submission) (drawing : Drawing) : Filing :=
  submission.filing submission.grammarName drawing.diagram drawing.rules

theorem isName_name (submission : Submission) : DocumentName.IsName submission.name :=
  ⟨submission.address, rfl⟩

section Name

variable {submission : Submission}

/-- A grammar that was loaded from an object has the name that the object gives. -/
theorem name_of_load {resolve : Resolver} {fields : Fields} {s s' : Loaded} {id : NodeId}
    (loaded : Loader.load resolve (.obj fields) s = .ok (id, s')) :
    ((s'.model.grammar? id).bind (·.name.value?)).getD .null =
      (fields.getD "name" .null).orElse (.str "") := by
  obtain ⟨fields', paths, found, between, document, model, isGrammar, -, -, read, linked, rfl⟩ :=
    Loader.exists_of_load loaded
  obtain rfl := Loader.eq_of_fieldsOf isGrammar
  obtain ⟨rules, interfaces, types, diagnostics, grammar, -⟩ :=
    (Document.isLinked_of_link linked).stands
  have named : document.name = (fields'.getD "name" .null).orElse (.str "") := by
    unfold Document.ofFields at read
    simp only [bind_eq_ok] at read
    obtain ⟨_, -, _, -, _, -, _, -, _, -, _, -, _, -, _, -, last⟩ := read
    cases last
    rfl
  rw [show ({ between with model := model } : Loaded).model = model from rfl, grammar]
  exact named

/-- The name of the grammar that is loaded for a submission. -/
theorem name_of_run {m : Model} {id : NodeId}
    (run : Loader.run (Loader.loadAttached submission.attached (.obj submission.grammar)) =
      .ok (m, id)) :
    ((m.grammar? id).bind (·.name.value?)).getD .null = submission.grammarName := by
  obtain ⟨⟨made, s⟩, loaded, last⟩ := bind_eq_ok.mp run
  cases last
  exact name_of_load loaded

end Name

section Body

variable {submission : Submission}

/-- The grammar of a submission is an object that was read. -/
theorem exists_of_ofBody {body : Option String} (h : ofBody body = .ok submission) :
    ∃ text fields, Json.read text = .ok (.obj fields) ∧
      Fields.get? fields "grammar" = some (.obj submission.grammar) := by
  unfold ofBody at h
  split at h
  · cases h
  · next text _ =>
    split at h
    · next value read =>
      split at h
      · next described =>
        cases h
        cases value with
        | obj fields =>
          unfold ofJson? at described
          simp only [Option.bind_eq_bind, Option.bind_eq_some_iff] at described
          obtain ⟨address, -, described⟩ := described
          split at described
          · simp only [Option.bind_eq_some_iff] at described
            obtain ⟨grammar, found, described⟩ := described
            split at described
            · simp only [Option.bind_eq_some_iff] at described
              obtain ⟨attached, -, described⟩ := described
              split at described <;>
              · obtain ⟨withImports, -, last⟩ := Option.bind_eq_some_iff.mp described
                cases last
                exact ⟨_, fields, read, found⟩
            · cases described
          · cases described
        | _ => cases described
      · cases h
    · cases h
    · cases h

/-- The name of the grammar in a body can be written and read again. -/
theorem isWritable_grammarName {body : Option String} (h : ofBody body = .ok submission) :
    submission.grammarName.IsWritable := by
  obtain ⟨text, fields, read, found⟩ := exists_of_ofBody h
  have grammar : (Json.obj submission.grammar).IsWritable :=
    Json.isWritable_of_get? (Json.isWritable_of_read read).2 found
  have name : (submission.grammar.getD "name" .null).IsWritable := by
    unfold Fields.getD
    cases given : submission.grammar.get? "name" with
    | none => trivial
    | some value => exact Json.isWritable_of_get? grammar.2 given
  unfold grammarName Json.orElse
  split
  · exact name
  · trivial

/-- The name of the grammar in a request can be written and read again. -/
theorem isWritable_of_submission? {request : Request} (h : request.submission? = some submission) :
    submission.grammarName.IsWritable := by
  unfold Request.submission? at h
  split at h
  · split at h
    · cases body : ofBody request.body with
      | error problem => rw [body] at h; cases h
      | ok given =>
        rw [body] at h
        cases h
        exact isWritable_grammarName body
    · cases h
  · cases h

end Body

end Submission

namespace Response

theorem field?_of_status_ne {response : Response} (failed : response.status ≠ 200) (key : String) :
    response.field? key = none := by
  unfold field?
  split
  · contradiction
  · rfl

/-- A list that is shown has no fields. -/
theorem field?_ofJson_arr (items : List Json) (key : String) :
    (ofJson (.arr items)).field? key = none := by
  unfold ofJson
  split <;> rfl

end Response

namespace Service

variable {service : Service} {tree : FileTree} {now : String} {submission : Submission}
  {drawing : Drawing}

theorem status_refuse_ne (submission : Submission) (fault : Fault) :
    (refuse submission fault).2.status ≠ 200 := by
  unfold refuse
  split
  · exact (by decide : 500 ≠ 200)
  · split
    · exact (by decide : 400 ≠ 200)
    · exact (by decide : 500 ≠ 200)

section Description

theorem shown_description (submission : Submission) (grammar : Json) (diagram : String) :
    (description submission grammar (.str diagram)).shown =
      description submission grammar.shown (.str diagram) := by
  simp only [description, Json.shown, Json.shownFields]
  rw [if_neg (by simp), if_neg (by simp), if_neg (by simp), if_neg (by simp)]

/-- The description of a diagram cannot be shown when the name of the grammar cannot. -/
theorem hasUnboundedNumber_description (submission : Submission) (grammar : Json)
    (diagram : String) : (description submission grammar (.str diagram)).hasUnboundedNumber =
      grammar.hasUnboundedNumber := by
  simp [description, Json.hasUnboundedNumber, Json.hasUnboundedNumber.anyField]

/-- The response that shows what was stored of a submission. -/
def confirmation (submission : Submission) (drawing : Drawing) : Response :=
  .ofJson (description submission submission.grammarName (.str drawing.diagram)).shown

/-- A submission whose grammar has a name that can be shown is answered with its diagram. -/
theorem confirmation_of_isShowable (h : submission.IsShowable) :
    confirmation submission drawing =
      ⟨200, .json (description submission submission.grammarName.shown (.str drawing.diagram))⟩ := by
  unfold confirmation Response.ofJson
  rw [shown_description, hasUnboundedNumber_description, h]
  rfl

theorem confirmation_of_not_isShowable (h : ¬ submission.IsShowable) :
    confirmation submission drawing = .internalError := by
  unfold confirmation Response.ofJson
  rw [shown_description, hasUnboundedNumber_description,
    if_pos (by simpa [Submission.IsShowable] using h)]

/-- A response that confirms with a diagram shows that of the drawing, under the name of the
document. -/
theorem fields_of_confirmation {diagram : String}
    (h : (confirmation submission drawing).field? "diagram" = some diagram) :
    submission.IsShowable ∧ drawing.diagram = diagram ∧
      (confirmation submission drawing).field? "name" = some submission.name := by
  by_cases shows : submission.IsShowable
  · rw [confirmation_of_isShowable shows] at h ⊢
    exact ⟨shows, Option.some.inj h, rfl⟩
  · rw [confirmation_of_not_isShowable shows] at h
    cases h

end Description

/-- A submission without a drawing leaves everything as it was, and is not answered with a
diagram. -/
theorem submit_of_drawing?_eq_none (tree : FileTree) (now : String)
    (h : submission.drawing? service.verbose = none) :
    (service.submit tree now submission).service = service ∧
      (service.submit tree now submission).tree = tree ∧
      (service.submit tree now submission).response.field? "diagram" = none := by
  unfold Submission.drawing? at h
  unfold submit
  cases run : (Loader.loadAttached submission.attached (.obj submission.grammar)).run with
  | error fault =>
    exact ⟨rfl, rfl, Response.field?_of_status_ne (status_refuse_ne submission fault) _⟩
  | ok loaded =>
    obtain ⟨m, id⟩ := loaded
    rw [run] at h
    dsimp only at h ⊢
    unfold draw
    dsimp only
    cases compiled : (m.compileGrammar service.verbose submission.withImports id .idle).result with
    | error fault =>
      exact ⟨rfl, rfl, Response.field?_of_status_ne (status_refuse_ne submission fault) _⟩
    | ok diagram =>
      cases diagram with
      | none =>
        refine ⟨rfl, rfl, ?_⟩
        show (Response.ofJson _).field? _ = none
        unfold Response.ofJson
        split <;> rfl
      | some diagram =>
        rw [compiled] at h
        dsimp only at h ⊢
        cases collected : m.collectRules id submission.withImports with
        | error fault => exact ⟨rfl, rfl, rfl⟩
        | ok rules =>
          rw [collected] at h
          cases h

/-- A submission with a drawing is stored with it. -/
theorem submit_of_drawing?_eq_some (tree : FileTree) (now : String)
    (h : submission.drawing? service.verbose = some drawing) :
    ∃ notes, service.submit tree now submission =
      { service.keep tree now submission submission.grammarName drawing.diagram drawing.rules with
        notes := notes } := by
  unfold Submission.drawing? at h
  unfold submit
  cases run : (Loader.loadAttached submission.attached (.obj submission.grammar)).run with
  | error fault =>
    rw [run] at h
    cases h
  | ok loaded =>
    obtain ⟨m, id⟩ := loaded
    rw [run] at h
    dsimp only at h ⊢
    split at h
    · next diagram compiled =>
      split at h
      · next rules collected =>
        cases h
        unfold draw
        dsimp only
        rw [Submission.name_of_run run, compiled]
        dsimp only
        rw [collected]
        exact ⟨_, rfl⟩
      · cases h
    · cases h

/-- A request that posts a submission submits it. -/
theorem handle_of_submission? {request : Request} (h : request.submission? = some submission) :
    service.handle tree now request = .ok (service.submit tree now submission) := by
  unfold Request.submission? at h
  split at h
  · next route =>
    split at h
    · next post =>
      cases body : Submission.ofBody request.body with
      | error problem => rw [body] at h; cases h
      | ok given =>
        rw [body] at h
        cases h
        rw [handle, route, ok_bind, handleOn, post, body]
        rfl
    · cases h
  · cases h

/-- What is only there to be read is answered without fields, unless it is a value. -/
theorem field?_serve (service : Service) (tree : FileTree) (method : String) (body : Body)
    (other : ∀ value, body ≠ .json value) (key : String) :
    (service.serve tree method body).response.field? key = none := by
  unfold serve
  dsimp only [answer]
  split
  · unfold Response.field?
    split
    · next same => exact absurd same (other _)
    · rfl
  · rfl

/-- The response that shows one diagram has no fields. -/
theorem field?_diagram (service : Service) (tree : FileTree) (name key : String) :
    (service.diagram tree name).field? key = none := by
  unfold diagram
  dsimp only
  split
  · rfl
  · rfl
  · rfl
  · split <;> rfl

/-- The response that lists the stored diagrams has no fields. -/
theorem field?_listing (service : Service) (key : String) : service.listing.field? key = none := by
  unfold listing
  split
  · rfl
  · exact Response.field?_ofJson_arr _ _

/-- The response to a body that is no submission has no fields. -/
theorem field?_rejection (problem : BadBody) (key : String) :
    (rejection problem).field? key = none := by
  unfold rejection
  split
  · rfl
  · split <;> rfl

/-- A request that posts no submission changes nothing, and shows no diagram beside other fields. -/
theorem handle_of_submission?_eq_none {request : Request} (h : request.submission? = none)
    {exchange : Exchange} (handled : service.handle tree now request = .ok exchange) :
    exchange.service = service ∧ exchange.tree = tree ∧
      exchange.response.field? "diagram" = none := by
  unfold Request.submission? at h
  obtain ⟨route, isRoute, last⟩ := bind_eq_ok.mp handled
  rw [isRoute] at h
  cases last
  cases route with
  | none => exact ⟨rfl, rfl, rfl⟩
  | some route =>
    cases route with
    | page => exact ⟨rfl, rfl, field?_serve service tree _ .page (fun _ => nofun) _⟩
    | schema => exact ⟨rfl, rfl, field?_serve service tree _ .schema (fun _ => nofun) _⟩
    | diagram name =>
      unfold handleOn
      dsimp only
      split
      · exact ⟨rfl, rfl, field?_diagram service tree name _⟩
      · exact ⟨rfl, rfl, rfl⟩
    | diagrams =>
      unfold handleOn
      dsimp only at h ⊢
      split
      · exact ⟨rfl, rfl, field?_listing service _⟩
      · next post =>
        rw [if_pos post] at h
        split
        · exact ⟨rfl, rfl, field?_rejection _ _⟩
        · next given =>
          rw [given] at h
          cases h
      · exact ⟨rfl, rfl, rfl⟩

section Storing

open FileTree Store

variable {directory : FilePath} {location : Location} {held saved : Fields}
  {texts : String → Option String}

/-- Where the files can be written, a submission with a drawing is stored and confirmed. -/
theorem submit_of_keeps (now : String)
    (drawn : submission.drawing? service.verbose = some drawing)
    (holds : service.store = holding directory held)
    (keeps : Keeps tree directory location saved texts)
    (fits : Fits directory (DocumentName.fileName submission.name))
    (fits' : Fits directory stateFileName) (writable : (Json.obj held).IsWritable)
    (name : submission.grammarName.IsWritable)
    (short : ¬ Text.Numeral.IsOverlong drawing.rules) :
    let held' := held.insert submission.name ((submission.filed drawing).entry now)
    ∃ after notes, service.submit tree now submission =
        ⟨{ service with store := holding directory held' }, after, notes,
          confirmation submission drawing⟩ ∧
      (Json.obj held').IsWritable ∧
      Keeps after directory location (Json.readBackFields held')
        (Function.update texts submission.name (some drawing.diagram)) := by
  intro held'
  have writable' : (Json.obj held').IsWritable :=
    Json.isWritable_insert writable _ (isWritable_entry name short)
  obtain ⟨after, put, keeps'⟩ := keeps.put submission.isName_name fits fits' writable'
  obtain ⟨notes, submitted⟩ := submit_of_drawing?_eq_some tree now drawn
  refine ⟨after, notes, ?_, writable', keeps'⟩
  have filed : service.store.put tree
      (submission.filing submission.grammarName drawing.diagram drawing.rules) now =
        ⟨holding directory held', after, .ok ((submission.filed drawing).entry now)⟩ := by
    rw [holds]
    exact put
  rw [submitted]
  unfold keep
  rw [filed]
  rfl

end Storing

end Service

end GrammarChart
