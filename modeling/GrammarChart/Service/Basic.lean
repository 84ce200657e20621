import GrammarChart.Diagram.Compilation
import GrammarChart.Document.Loading
import GrammarChart.Service.Route
import GrammarChart.Service.Submission
import GrammarChart.Settings.Settings
import GrammarChart.Store.Basic
import GrammarChart.Store.DocumentName

/-!
# The diagram service

The service takes documents, draws them, keeps the latest diagram of each document in a store, and
serves the diagrams. It is a machine whose state is the service and the files: a request leads to a
new state, a response and notes on what was done. A fault of the input is told to the client; any
other fault is an internal error, of which the client learns nothing but that.
-/

set_option autoImplicit false

namespace GrammarChart

/-- A request: its method, its target, and its body if it has one. -/
structure Request where
  method : String
  target : String
  body : Option String

/-- The body of a response: a value, a text, a page on the service or its formal description. -/
inductive Body where
  | json (value : Json)
  | text (text : String)
  | page
  | schema

/-- The media type of a body. -/
def Body.mediaType : Body → String
  | .json _ => "application/json"
  | .text _ => "text/plain; charset=utf-8"
  | .page => "text/html; charset=utf-8"
  | .schema => "application/json"

/-- A response. -/
structure Response where
  status : Nat
  body : Body

namespace Response

/-- The response to a request that cannot be answered for a reason. -/
def refusal (status : Nat) (detail : String) : Response :=
  ⟨status, .json (.obj [("detail", .str detail)])⟩

/-- The response to a request that stopped by an unexpected fault. -/
def internalError : Response :=
  ⟨500, .text "Internal Server Error"⟩

/-- The response that shows a value. A number without a numeral cannot be shown. -/
def ofJson (value : Json) : Response :=
  if value.hasUnboundedNumber then internalError else ⟨200, .json value⟩

end Response

mutual

/-- The value as it is shown to clients: fields whose names start with `_sa` are left out. -/
def Json.shown : Json → Json
  | .arr items => .arr (shownItems items)
  | .obj fields => .obj (shownFields fields)
  | value => value

/-- The items of a list as they are shown. -/
def Json.shownItems : List Json → List Json
  | [] => []
  | value :: rest => value.shown :: shownItems rest

/-- The fields of an object as they are shown. -/
def Json.shownFields : List (String × Json) → List (String × Json)
  | [] => []
  | (key, value) :: rest =>
    if "_sa".toList.isPrefixOf key.toList then shownFields rest
    else (key, value.shown) :: shownFields rest

end

/-- The service: whether it tells what it is doing, and its store. -/
structure Service where
  verbose : Bool
  store : Store

/-- What came of a request: the state afterwards, the notes and the response. -/
structure Exchange where
  service : Service
  tree : FileTree
  notes : List String
  response : Response

/-- What is stored of a submission. -/
def Submission.filing (submission : Submission) (grammar : Json) (diagram : String) (rules : Nat) :
    Filing :=
  { name := .str (DocumentName.ofAddress submission.address)
    address := .str submission.address
    diagram := .str diagram
    grammar := grammar
    rules := .int rules }

namespace Service

/-- Starts a service. -/
def start (settings : Settings) (tree : FileTree) : Except Fault Service := do
  return ⟨settings.verbose, ← Store.openAt tree settings.outputDirectory⟩

/-- The note on the start. -/
def startNote (service : Service) : String :=
  "[app] Diagrams stored in " ++ service.store.directory.text

/-- Stops a service: its state is saved. -/
def stop (service : Service) (tree : FileTree) : FileTree × Option Fault :=
  service.store.save tree

/-- The note on the stop. -/
def stopNote : String := "[app] Shutdown complete"

/-- The description of a diagram in a response. -/
def description (submission : Submission) (grammar diagram : Json) : Json :=
  .obj [("uri", .str submission.address),
    ("name", .str (DocumentName.ofAddress submission.address)), ("grammar", grammar),
    ("diagram", diagram)]

/-- A response that leaves the state alone. -/
def answer (service : Service) (tree : FileTree) (notes : List String) (response : Response) :
    Exchange :=
  ⟨service, tree, notes, response⟩

/-- The response to a submission that stopped by a fault, with the note on it. -/
def refuse (submission : Submission) (fault : Fault) : List String × Response :=
  match fault with
  | .violation _ =>
    (["[app] Internal error for " ++ submission.address ++ ": " ++ fault.message],
      .refusal 500 fault.message)
  | fault =>
    if fault.isInputFault then ([], .refusal 400 fault.message) else ([], .internalError)

/-- Stores the diagram of a submission. -/
def keep (service : Service) (tree : FileTree) (now : String) (submission : Submission)
    (grammar : Json) (diagram : String) (rules : Nat) : Exchange :=
  let filed := service.store.put tree (submission.filing grammar diagram rules) now
  let service := { service with store := filed.store }
  match filed.result with
  | .error _ => service.answer filed.tree [] .internalError
  | .ok _ =>
    service.answer filed.tree
      ["[app] Diagram for " ++ submission.address ++ " -> " ++
        (service.store.diagramPath (.str (DocumentName.ofAddress submission.address))).text]
      (.ofJson (description submission grammar (.str diagram)).shown)

/-- Draws the grammar of a submission, and stores the diagram if there is one. -/
def draw (service : Service) (tree : FileTree) (now : String) (submission : Submission)
    (m : Model) (id : NodeId) : Exchange :=
  let compiled := m.compileGrammar service.verbose submission.withImports id .idle
  let name := ((m.grammar? id).bind (·.name.value?)).getD .null
  match compiled.result with
  | .error fault =>
    let (notes, response) := refuse submission fault
    service.answer tree (compiled.notes ++ notes) response
  | .ok none =>
    service.answer tree
      (compiled.notes ++ ["[app] " ++ submission.address ++ " has errors, no diagram"])
      (.ofJson (description submission name .null))
  | .ok (some diagram) =>
    match m.collectRules id submission.withImports with
    | .error _ => service.answer tree compiled.notes .internalError
    | .ok rules =>
      let kept := service.keep tree now submission name diagram rules.length
      { kept with notes := compiled.notes ++ kept.notes }

/-- Takes a submission. -/
def submit (service : Service) (tree : FileTree) (now : String) (submission : Submission) :
    Exchange :=
  match Loader.run (Loader.loadAttached submission.attached (.obj submission.grammar)) with
  | .error fault =>
    let (notes, response) := refuse submission fault
    service.answer tree notes response
  | .ok (m, id) => service.draw tree now submission m id

/-- The response that lists the stored diagrams. -/
def listing (service : Service) : Response :=
  match service.store.entries with
  | .error _ => .internalError
  | .ok entries => .ofJson (Json.arr entries).shown

/-- The response that shows one diagram. A diagram without an entry is not shown. -/
def diagram (service : Service) (tree : FileTree) (name : String) : Response :=
  let missing : Response := .refusal 404 "Diagram not found"
  match service.store.get? (.str name) with
  | .error _ => .internalError
  | .ok none | .ok (some .null) => missing
  | .ok (some _) =>
    match service.store.readDiagram tree (.str name) with
    | .error _ => .internalError
    | .ok none => missing
    | .ok (some text) => ⟨200, .text text⟩

/-- The response to a body that is no submission. It shows what was wrong with it. -/
def rejection : BadBody → Response
  | .unreadable => .refusal 400 "There was an error parsing the body"
  | .invalid wrong =>
    if (Json.arr wrong).shown.hasUnboundedNumber then .internalError
    else .refusal 422 "Invalid submission"

/-- Answers a request for something that is only there to be read. -/
def serve (service : Service) (tree : FileTree) (method : String) (body : Body) : Exchange :=
  service.answer tree [] (if method = "GET" ∨ method = "HEAD" then ⟨200, body⟩
    else .refusal 405 "Method Not Allowed")

/-- Answers a request on a route. -/
def handleOn (service : Service) (tree : FileTree) (now : String) (request : Request) :
    Option Route → Exchange
  | none => service.answer tree [] (.refusal 404 "Not Found")
  | some .page => service.serve tree request.method .page
  | some .schema => service.serve tree request.method .schema
  | some .diagrams =>
    match request.method with
    | "GET" => service.answer tree [] service.listing
    | "POST" =>
      match Submission.ofBody request.body with
      | .error problem => service.answer tree [] (rejection problem)
      | .ok submission => service.submit tree now submission
    | _ => service.answer tree [] (.refusal 405 "Method Not Allowed")
  | some (.diagram name) =>
    if request.method = "GET" then service.answer tree [] (service.diagram tree name)
    else service.answer tree [] (.refusal 405 "Method Not Allowed")

/-- Answers a request that arrives at the given time, unless its target is no address. -/
def handle (service : Service) (tree : FileTree) (now : String) (request : Request) :
    Except Fault Exchange := do
  return service.handleOn tree now request (← Route.ofTarget request.target)

end Service
end GrammarChart
