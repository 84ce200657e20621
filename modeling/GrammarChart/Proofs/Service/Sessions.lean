import Mathlib
import GrammarChart.Proofs.Service.Submissions

/-!
# Sessions of the service

A service that starts in an empty directory takes requests and is stopped and started again between
them. What was stored last under each name can be told from the events alone (`latest`), and the
store with its files keeps in step with that (`Serves`): a request that arrives (`Serves.take`) and
a restart (`Serves.restart`) lead from one such state to the next. The diagram that a request was
answered with is therefore served until the next submission of a document with the same name, with
its line ends unified (`diagram_served_until_next`).
-/

set_option autoImplicit false

namespace GrammarChart

open FileTree Store

/-- A request with the time at which it arrives. -/
structure Arrival where
  request : Request
  now : String

/-- What happens to a service: a request arrives, or the service is stopped and started again. -/
inductive SessionEvent where
  | arrives (arrival : Arrival)
  | restart

/-- A service that is running, and the files. -/
structure Running where
  service : Service
  tree : FileTree

/-- A drawing that was stored: with its submission and the time at which that arrived. -/
structure Stored where
  submission : Submission
  drawing : Drawing
  now : String

/-- The entry of a stored drawing. -/
def Stored.entry (stored : Stored) : Json :=
  (stored.submission.filed stored.drawing).entry stored.now

/-- The response to a request, and what is running afterwards. A request whose target is no address
is not sent. -/
def Running.take (state : Running) (arrival : Arrival) : Option Response × Running :=
  match state.service.handle state.tree arrival.now arrival.request with
  | .ok exchange => (some exchange.response, ⟨exchange.service, exchange.tree⟩)
  | .error _ => (none, state)

/-- What is running after a stop and a start. -/
def Running.restart (settings : Settings) (state : Running) : Except Fault Running :=
  match state.service.stop state.tree with
  | (tree, none) => do return ⟨← Service.start settings tree, tree⟩
  | (_, some fault) => .error fault

namespace SessionEvent

/-- The response to what happens, if there is one, and what is running afterwards. -/
def run (settings : Settings) (state : Running) :
    SessionEvent → Except Fault (Option Response × Running)
  | .arrives arrival => .ok (state.take arrival)
  | .restart => (state.restart settings).map (none, ·)

/-- The responses to a list of events. -/
def runFrom (settings : Settings) (state : Running) : List SessionEvent →
    Except Fault (List (Option Response))
  | [] => .ok []
  | event :: rest => do
    let (response, state) ← event.run settings state
    let responses ← runFrom settings state rest
    return response :: responses

end SessionEvent

/-- The responses of a service that is started with the given files. -/
def session (settings : Settings) (tree : FileTree) (events : List SessionEvent) :
    Except Fault (List (Option Response)) := do
  SessionEvent.runFrom settings ⟨← Service.start settings tree, tree⟩ events

section Storing

/-- What is stored when a request arrives. -/
def Arrival.stored? (verbose : Bool) (arrival : Arrival) : Option Stored :=
  arrival.request.submission?.bind fun submission =>
    (submission.drawing? verbose).map fun drawing => ⟨submission, drawing, arrival.now⟩

/-- The submission that an event brings. -/
def SessionEvent.submission? : SessionEvent → Option Submission
  | .arrives arrival => arrival.request.submission?
  | .restart => none

/-- What an event stores. -/
def SessionEvent.stored? (verbose : Bool) : SessionEvent → Option Stored
  | .arrives arrival => arrival.stored? verbose
  | .restart => none

/-- What was stored last under a name. -/
def latest (verbose : Bool) : List SessionEvent → String → Option Stored
  | [], _ => none
  | event :: rest, name =>
    (latest verbose rest name).or
      ((event.stored? verbose).filter fun stored => stored.submission.name = name)

/-- The file operations that an event leads to succeed: the name of the document leads to a file in
the directory, and the number of its rules has a numeral that can be read again. -/
def SessionEvent.Succeeds (settings : Settings) (event : SessionEvent) : Prop :=
  ∀ submission, event.submission? = some submission →
    Fits settings.outputDirectory (DocumentName.fileName submission.name) ∧
      ∀ drawing, submission.drawing? settings.verbose = some drawing →
        ¬ Text.Numeral.IsOverlong drawing.rules

variable {verbose : Bool} {events before after : List SessionEvent} {arrival : Arrival}
  {stored : Stored}

theorem latest_append (before after : List SessionEvent) (name : String) :
    latest verbose (before ++ after) name =
      (latest verbose after name).or (latest verbose before name) := by
  induction before with
  | nil => simp [latest]
  | cons event rest ih => simp [latest, ih, Option.or_assoc]

theorem latest_concat (event : SessionEvent) (name : String) :
    latest verbose (events ++ [event]) name =
      ((event.stored? verbose).filter fun stored => stored.submission.name = name).or
        (latest verbose events name) := by
  rw [latest_append]
  simp [latest]

/-- An event that stores nothing leaves what was stored last. -/
theorem latest_concat_of_stored?_eq_none (events : List SessionEvent) (event : SessionEvent)
    (h : event.stored? verbose = none) :
    latest verbose (events ++ [event]) = latest verbose events := by
  funext name
  simp [latest_concat, h]

/-- An event that stores something stores it under the name of its document. -/
theorem latest_concat_of_stored? (events : List SessionEvent) (event : SessionEvent)
    (h : event.stored? verbose = some stored) :
    latest verbose (events ++ [event]) =
      Function.update (latest verbose events) stored.submission.name (some stored) := by
  funext name
  rw [latest_concat, h]
  by_cases same : name = stored.submission.name
  · subst same
    simp [Option.filter]
  · rw [Function.update_of_ne same]
    simp [Option.filter, Ne.symm same]

/-- What is stored comes from a submission. -/
theorem Arrival.submission?_of_stored? (h : arrival.stored? verbose = some stored) :
    arrival.request.submission? = some stored.submission ∧
      stored.submission.drawing? verbose = some stored.drawing ∧ stored.now = arrival.now := by
  obtain ⟨submission, posted, drawn⟩ := Option.bind_eq_some_iff.mp h
  obtain ⟨drawing, isDrawn, rfl⟩ := Option.map_eq_some_iff.mp drawn
  exact ⟨posted, isDrawn, rfl⟩

/-- Nothing is stored under a name of which no document was submitted. -/
theorem latest_eq_none {name : String}
    (h : ∀ event ∈ events, event.submission?.map Submission.name ≠ some name) :
    latest verbose events name = none := by
  induction events with
  | nil => rfl
  | cons event rest ih =>
    rw [List.forall_mem_cons] at h
    rw [latest, ih h.2, Option.none_or, Option.filter_eq_none_iff]
    intro stored isStored
    cases event with
    | restart => cases isStored
    | arrives arrival =>
      have posted := (Arrival.submission?_of_stored? isStored).1
      have different := h.1
      rw [SessionEvent.submission?, posted] at different
      simpa using different

end Storing

/-- The entries in memory, or in the state file, are those of what was stored last under each name:
each is an object that is in the given relation to what was stored. -/
structure Ledger (P : Stored → Json → Prop) (last : String → Option Stored) (held : Fields) :
    Prop where
  writable : (Json.obj held).IsWritable
  absent : ∀ name, last name = none → held.get? name = none
  present : ∀ name stored, last name = some stored →
    ∃ fields, held.get? name = some (.obj fields) ∧ P stored (.obj fields)

namespace Ledger

variable {P Q : Stored → Json → Prop} {last : String → Option Stored} {held : Fields}

theorem empty : Ledger P (fun _ => none) [] :=
  ⟨Json.isWritable_empty, fun _ _ => rfl, fun _ _ none => nomatch none⟩

/-- A drawing that is stored takes the place of the entry under its name. -/
theorem insert (h : Ledger P last held) {stored : Stored} (new : P stored stored.entry)
    (writable : (Json.obj (held.insert stored.submission.name stored.entry)).IsWritable) :
    Ledger P (Function.update last stored.submission.name (some stored))
      (held.insert stored.submission.name stored.entry) where
  writable := writable
  absent := by
    intro name none
    by_cases same : stored.submission.name = name
    · subst same
      rw [Function.update_self] at none
      cases none
    · rw [Function.update_of_ne (Ne.symm same)] at none
      rw [Fields.get?_insert, if_neg same]
      exact h.absent name none
  present := by
    intro name other here
    by_cases same : stored.submission.name = name
    · subst same
      rw [Function.update_self, Option.some.injEq] at here
      subst here
      rw [Fields.get?_insert, if_pos rfl]
      exact ⟨_, rfl, new⟩
    · rw [Function.update_of_ne (Ne.symm same)] at here
      rw [Fields.get?_insert, if_neg same]
      exact h.present name other here

/-- What is read of the written entries are entries of the same names. -/
theorem readBack (h : Ledger P last held) :
    Ledger (fun _ _ => True) last (Json.readBackFields held) where
  writable := Json.isWritable_readBack _ h.writable
  absent := by
    intro name none
    rw [Json.get?_readBackFields, h.absent name none]
    rfl
  present := by
    intro name stored here
    obtain ⟨fields, found, -⟩ := h.present name stored here
    refine ⟨Json.readBackFields fields, ?_, trivial⟩
    rw [Json.get?_readBackFields, found]
    rfl

end Ledger

/-- The service and its files are in step with what was stored: the entries in memory are in the
given relation to it, the state file has entries of the same names, and there is a file for each
diagram. -/
structure Serves (P : Stored → Json → Prop) (settings : Settings) (location : Location)
    (events : List SessionEvent) (state : Running) : Prop where
  verbose : state.service.verbose = settings.verbose
  store : ∃ held saved, state.service.store = holding settings.outputDirectory held ∧
    Ledger P (latest settings.verbose events) held ∧
    Ledger (fun _ _ => True) (latest settings.verbose events) saved ∧
    Keeps state.tree settings.outputDirectory location saved fun name =>
      (latest settings.verbose events name).map (·.drawing.diagram)

namespace Serves

variable {P : Stored → Json → Prop} {settings : Settings} {location : Location}
  {events : List SessionEvent} {state : Running} {arrival : Arrival} {stored : Stored} {tree : FileTree}

/-- A service starts in an empty directory with nothing stored. -/
theorem start (empty : IsEmptyDirectoryAt tree settings.outputDirectory location)
    (fits : Fits settings.outputDirectory stateFileName) : ∃ service,
      Service.start settings tree = .ok service ∧
        Serves P settings location [] ⟨service, tree⟩ := by
  have keeps := Keeps.empty empty
  refine ⟨⟨settings.verbose, holding settings.outputDirectory []⟩, ?_, rfl, [], [], rfl,
    Ledger.empty, Ledger.empty, keeps⟩
  rw [Service.start, keeps.openAt fits]
  rfl

/-- A request that stores nothing changes nothing, and shows no diagram beside other fields. -/
theorem take_of_stored?_eq_none (h : Serves P settings location events state)
    (nothing : arrival.stored? settings.verbose = none) :
    (state.take arrival).2 = state ∧
      ∀ response, (state.take arrival).1 = some response → response.field? "diagram" = none := by
  rw [← h.verbose] at nothing
  unfold Running.take
  cases posted : arrival.request.submission? with
  | none =>
    cases handled : state.service.handle state.tree arrival.now arrival.request with
    | error fault => exact ⟨rfl, nofun⟩
    | ok exchange =>
      obtain ⟨service, tree, plain⟩ := Service.handle_of_submission?_eq_none posted handled
      refine ⟨?_, fun response same => Option.some.inj same ▸ plain⟩
      dsimp only
      rw [service, tree]
  | some submission =>
    have undrawn : submission.drawing? state.service.verbose = none := by
      rw [Arrival.stored?, posted] at nothing
      simpa using nothing
    obtain ⟨service, tree, plain⟩ := Service.submit_of_drawing?_eq_none state.tree
      arrival.now undrawn
    rw [Service.handle_of_submission? posted]
    refine ⟨?_, fun response same => Option.some.inj same ▸ plain⟩
    dsimp only
    rw [service, tree]

/-- A request that stores something is confirmed, and what is running is in step with what was
stored. -/
theorem take_of_stored? (h : Serves P settings location events state)
    (fits : Fits settings.outputDirectory stateFileName)
    (succeeds : (SessionEvent.arrives arrival).Succeeds settings)
    (isStored : arrival.stored? settings.verbose = some stored) (new : P stored stored.entry) :
    (state.take arrival).1 = some (Service.confirmation stored.submission stored.drawing) ∧
      Serves P settings location (events ++ [.arrives arrival]) (state.take arrival).2 := by
  obtain ⟨posted, drawn, now⟩ := Arrival.submission?_of_stored? isStored
  obtain ⟨fits', short⟩ := succeeds _ posted
  obtain ⟨held, saved, store, ledger, -, keeps⟩ := h.store
  have name := Submission.isWritable_of_submission? posted
  have drawn' := drawn
  rw [← h.verbose] at drawn'
  obtain ⟨after, notes, submitted, writable, keeps'⟩ := Service.submit_of_keeps
    arrival.now drawn' store keeps fits' fits ledger.writable name (short _ drawn)
  have entry : (stored.submission.filed stored.drawing).entry arrival.now = stored.entry := by
    rw [Stored.entry, now]
  rw [entry] at submitted writable keeps'
  have same := latest_concat_of_stored? events (.arrives arrival) isStored
  have more := ledger.insert new writable
  have texts : Function.update
      (fun name => (latest settings.verbose events name).map (·.drawing.diagram))
      stored.submission.name (some stored.drawing.diagram) = fun name =>
        (latest settings.verbose (events ++ [.arrives arrival]) name).map (·.drawing.diagram) := by
    funext name
    rw [same]
    by_cases here : name = stored.submission.name
    · subst here
      simp
    · simp [Function.update_of_ne here]
  rw [texts] at keeps'
  rw [← same] at more
  unfold Running.take
  rw [Service.handle_of_submission? posted, submitted]
  exact ⟨rfl, h.verbose, _, _, rfl, more, more.readBack, keeps'⟩

/-- A request that arrives leads from a state in step with what was stored to the next one. -/
theorem take (h : Serves P settings location events state)
    (fits : Fits settings.outputDirectory stateFileName)
    (succeeds : (SessionEvent.arrives arrival).Succeeds settings)
    (new : ∀ stored, P stored stored.entry) :
    Serves P settings location (events ++ [.arrives arrival]) (state.take arrival).2 := by
  cases isStored : arrival.stored? settings.verbose with
  | some stored => exact (h.take_of_stored? fits succeeds isStored (new stored)).2
  | none =>
    obtain ⟨verbose, store⟩ := h
    have same := latest_concat_of_stored?_eq_none events (.arrives arrival) isStored
    rw [(take_of_stored?_eq_none ⟨verbose, store⟩ isStored).1]
    refine ⟨verbose, ?_⟩
    rw [same]
    exact store

/-- A service that is stopped and started again has entries of the same names. -/
theorem restart (h : Serves P settings location events state)
    (fits : Fits settings.outputDirectory stateFileName) : ∃ state',
      state.restart settings = .ok state' ∧
        Serves (fun _ _ => True) settings location (events ++ [.restart]) state' := by
  obtain ⟨held, saved, store, ledger, -, keeps⟩ := h.store
  obtain ⟨after, stopped, keeps'⟩ := keeps.save ledger.writable fits
  have same := @latest_concat_of_stored?_eq_none settings.verbose events .restart rfl
  refine ⟨⟨⟨settings.verbose, holding settings.outputDirectory (Json.readBackFields held)⟩,
    after⟩, ?_, rfl, Json.readBackFields held, Json.readBackFields held, rfl, ?_⟩
  · rw [Running.restart, Service.stop, store, stopped]
    dsimp only
    rw [Service.start, keeps'.openAt fits]
    rfl
  · rw [same]
    exact ⟨ledger.readBack, ledger.readBack, keeps'⟩

/-- Any event leads from a state in step with what was stored to the next one. -/
theorem run (h : Serves (fun _ _ => True) settings location events state)
    (fits : Fits settings.outputDirectory stateFileName) {event : SessionEvent}
    (succeeds : event.Succeeds settings) : ∃ response state',
      event.run settings state = .ok (response, state') ∧
        Serves (fun _ _ => True) settings location (events ++ [event]) state' := by
  cases event with
  | arrives arrival => exact ⟨_, _, rfl, h.take fits succeeds fun _ => trivial⟩
  | restart =>
    obtain ⟨state', restarted, serves⟩ := h.restart fits
    refine ⟨none, state', ?_, serves⟩
    rw [SessionEvent.run, restarted]
    rfl

/-- A list of events leads from a state in step with what was stored to another one, whatever
happens next. -/
theorem runFrom (fits : Fits settings.outputDirectory stateFileName) {events before : List SessionEvent}
    {state : Running} (h : Serves (fun _ _ => True) settings location before state)
    (succeed : ∀ event ∈ events, event.Succeeds settings) : ∃ responses state',
      responses.length = events.length ∧
      (∀ after, SessionEvent.runFrom settings state (events ++ after) =
        (SessionEvent.runFrom settings state' after).map (responses ++ ·)) ∧
      Serves (fun _ _ => True) settings location (before ++ events) state' := by
  induction events generalizing before state with
  | nil =>
    refine ⟨[], state, rfl, fun after => ?_, by simpa using h⟩
    cases run : SessionEvent.runFrom settings state after with
    | error fault => simp [run, Except.map]
    | ok responses => simp [run, Except.map]
  | cons event rest ih =>
    rw [List.forall_mem_cons] at succeed
    obtain ⟨response, between, ran, next⟩ := h.run fits succeed.1
    obtain ⟨responses, state', length, later, serves⟩ := ih next succeed.2
    refine ⟨response :: responses, state', by simp [length], fun after => ?_, by simpa using serves⟩
    rw [List.cons_append, SessionEvent.runFrom, ran, ok_bind]
    dsimp only
    rw [later after]
    cases SessionEvent.runFrom settings state' after <;> rfl

/-- A request for a diagram is answered with the one that was stored last under the name. -/
theorem take_of_asksFor (h : Serves P settings location events state) {name : String}
    (asks : arrival.request.AsksFor name) (last : latest settings.verbose events name = some stored)
    (named : DocumentName.IsName name)
    (fits : Fits settings.outputDirectory (DocumentName.fileName name)) :
    state.take arrival =
      (some ⟨200, .text (Text.unifyLineEnds stored.drawing.diagram)⟩, state) := by
  obtain ⟨held, saved, store, ledger, -, keeps⟩ := h.store
  obtain ⟨fields, found, -⟩ := ledger.present name stored last
  have served : state.service.diagram state.tree name =
      ⟨200, .text (Text.unifyLineEnds stored.drawing.diagram)⟩ := by
    unfold Service.diagram
    rw [store, get?_holding, found]
    dsimp only
    rw [keeps.readDiagram named fits, last]
    rfl
  rw [Running.take, Service.handle, asks.route, ok_bind]
  dsimp only [pure, Except.pure]
  rw [Service.handleOn, if_pos asks.method, served]
  rfl

end Serves

section Main

variable {settings : Settings} {location : Location} {tree : FileTree}

/-- What a request was answered with is what was stored: a response that shows a diagram confirms
the drawing that was stored when the request arrived. -/
theorem Serves.stored?_of_field? {P : Stored → Json → Prop} {events : List SessionEvent}
    {state : Running} {arrival : Arrival} (h : Serves P settings location events state)
    (fits : Fits settings.outputDirectory stateFileName)
    (succeeds : (SessionEvent.arrives arrival).Succeeds settings)
    (new : ∀ stored, P stored stored.entry)
    {response : Response} (answered : (state.take arrival).1 = some response) {diagram : String}
    (shows : response.field? "diagram" = some diagram) : ∃ stored,
      arrival.stored? settings.verbose = some stored ∧ stored.drawing.diagram = diagram ∧
        response.field? "name" = some stored.submission.name := by
  cases isStored : arrival.stored? settings.verbose with
  | none =>
    have plain := (h.take_of_stored?_eq_none isStored).2 response answered
    rw [plain] at shows
    cases shows
  | some stored =>
    obtain ⟨confirmed, -⟩ := h.take_of_stored? fits succeeds isStored (new stored)
    rw [confirmed, Option.some.injEq] at answered
    subst answered
    obtain ⟨-, same, name⟩ := Service.fields_of_confirmation shows
    exact ⟨stored, rfl, same, name⟩

/-- The diagram that a request was answered with is served under its name, with its line ends
unified, until a document with the same name is submitted, whatever else happens and however often
the service is started again. It is served as it is exactly when it has no carriage return. -/
theorem diagram_served_until_next
    (empty : IsEmptyDirectoryAt tree settings.outputDirectory location)
    (fits : Fits settings.outputDirectory stateFileName) {before between : List SessionEvent}
    {post get : Arrival} {name : String}
    (succeed : ∀ event ∈ before ++ .arrives post :: between, event.Succeeds settings)
    (others : ∀ event ∈ between, event.submission?.map Submission.name ≠ some name)
    (asks : get.request.AsksFor name) : ∃ responses,
      session settings tree (before ++ .arrives post :: (between ++ [.arrives get])) =
        .ok responses ∧
      ∀ response diagram, responses[before.length]? = some (some response) →
        response.field? "name" = some name → response.field? "diagram" = some diagram →
          responses.getLast? = some (some ⟨200, .text (Text.unifyLineEnds diagram)⟩) ∧
            (Text.unifyLineEnds diagram = diagram ↔ '\r' ∉ diagram.toList) := by
  rw [List.forall_mem_append, List.forall_mem_cons] at succeed
  obtain ⟨first, post', rest⟩ := succeed
  obtain ⟨service, started, serves⟩ := Serves.start (P := fun _ _ => True) empty fits
  obtain ⟨early, state, length, later, serves⟩ := serves.runFrom fits first
  obtain ⟨late, last, -, later', serves'⟩ :=
    (serves.take fits post' fun _ => trivial).runFrom fits rest
  have ran : session settings tree (before ++ .arrives post :: (between ++ [.arrives get])) =
      .ok (early ++ (state.take post).1 :: (late ++ [(last.take get).1])) := by
    rw [session, started, ok_bind, later, SessionEvent.runFrom, SessionEvent.run, ok_bind]
    dsimp only
    rw [later']
    rfl
  refine ⟨_, ran, fun response diagram answered named shows => ?_⟩
  rw [← length, List.getElem?_append_right (Nat.le_refl _), Nat.sub_self, List.getElem?_cons_zero,
    Option.some.injEq] at answered
  obtain ⟨stored, isStored, rfl, isNamed⟩ :=
    serves.stored?_of_field? fits post' (fun _ => trivial) answered shows
  obtain rfl : stored.submission.name = name := Option.some.inj (isNamed.symm.trans named)
  have isLast : latest settings.verbose ([] ++ before ++ [.arrives post] ++ between)
      stored.submission.name = some stored := by
    rw [latest_append, latest_eq_none others, Option.none_or,
      latest_concat_of_stored? _ (.arrives post) isStored, Function.update_self]
  obtain ⟨fits', -⟩ := post' _ (Arrival.submission?_of_stored? isStored).1
  have served := serves'.take_of_asksFor asks isLast stored.submission.isName_name fits'
  refine ⟨?_, Text.unifyLineEnds_eq_self_iff _⟩
  rw [served, ← List.cons_append, ← List.append_assoc, List.getLast?_concat]

/-- A rule is submitted, and its diagram is asked for after the service was started again. -/
theorem diagram_served_until_next_restarted :
    let settings : Settings := ⟨.ofText "out", "plantuml", 60, false⟩
    let body := "\x7b\"uri\": \"a\", \"grammar\": \x7b\"rules\": [\x7b\"$type\": \"ParserRule\", " ++
      "\"name\": \"A\"\x7d]\x7d, \"include_imports\": false\x7d"
    let post : Arrival := ⟨⟨"POST", "/api/diagrams", some body⟩, "now"⟩
    let name := DocumentName.ofAddress "a"
    let get : Arrival := ⟨⟨"GET", "/api/diagrams/" ++ name, none⟩, "later"⟩
    Fits settings.outputDirectory stateFileName ∧
      (∀ event ∈ [SessionEvent.arrives post, .restart], event.Succeeds settings) ∧
      get.request.AsksFor name ∧
      ∃ responses,
        session settings withOutput [.arrives post, .restart, .arrives get] = .ok responses ∧
        responses.getLast? = some (some ⟨200, .text "@startuml\n@enduml\n"⟩) := by
  intro settings body post name get
  have empty : IsEmptyDirectoryAt withOutput settings.outputDirectory ["out"] :=
    isEmptyDirectoryAt_withOutput
  have fits : Fits settings.outputDirectory stateFileName := by decide +kernel
  have fits' : Fits settings.outputDirectory (DocumentName.fileName name) := by decide +kernel
  have facts : post.request.submission?.map (fun submission => (submission.address,
      (submission.drawing? false).map fun drawing => (drawing.diagram, drawing.rules),
      submission.grammarName.shown.hasUnboundedNumber)) =
        some ("a", some ("@startuml\n@enduml\n", 1), false) := by decide +kernel
  obtain ⟨submission, posted, facts⟩ := Option.map_eq_some_iff.mp facts
  simp only [Prod.mk.injEq] at facts
  obtain ⟨address, drawn, shows⟩ := facts
  obtain ⟨drawing, drawn, same⟩ := Option.map_eq_some_iff.mp drawn
  simp only [Prod.mk.injEq] at same
  obtain ⟨diagram, rules⟩ := same
  have named : submission.name = name := by rw [Submission.name, address]
  have isStored : post.stored? settings.verbose = some ⟨submission, drawing, "now"⟩ := by
    rw [Arrival.stored?, posted, Option.bind_some, drawn]
    rfl
  have succeed : ∀ event ∈ [SessionEvent.arrives post, .restart], event.Succeeds settings := by
    refine List.forall_mem_cons.mpr ⟨fun other isOther => ?_, ?_⟩
    swap
    · rw [List.forall_mem_singleton]
      intro other none
      cases none
    obtain rfl : submission = other := Option.some.inj (posted.symm.trans isOther)
    refine ⟨named ▸ fits', fun other isOther => ?_⟩
    obtain rfl : drawing = other := Option.some.inj (drawn.symm.trans isOther)
    rw [rules]
    decide +kernel
  have asks : get.request.AsksFor name := ⟨rfl, Route.ofTarget_of_toOption (by decide +kernel)⟩
  obtain ⟨responses, ran, served⟩ := @diagram_served_until_next _ _ _ empty fits []
    [.restart] _ _ _ succeed (by simp [SessionEvent.submission?]) asks
  obtain ⟨service, started, serves⟩ := Serves.start (P := fun _ _ => True) empty fits
  obtain ⟨confirmed, -⟩ :=
    serves.take_of_stored? fits (succeed _ List.mem_cons_self) isStored trivial
  rw [Service.confirmation_of_isShowable shows] at confirmed
  have first : responses[0]? = some (Running.take ⟨service, withOutput⟩ post).1 := by
    rw [session, started, ok_bind, List.nil_append, SessionEvent.runFrom, SessionEvent.run,
      ok_bind] at ran
    obtain ⟨rest, -, same⟩ := bind_eq_ok.mp ran
    cases same
    rfl
  rw [confirmed] at first
  have last := (served _ drawing.diagram first (congrArg some named) rfl).1
  have plain : Text.unifyLineEnds "@startuml\n@enduml\n" = "@startuml\n@enduml\n" := by
    decide +kernel
  rw [diagram, plain] at last
  exact ⟨fits, succeed, asks, responses, ran, last⟩

end Main

end GrammarChart
