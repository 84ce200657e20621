import GrammarChart.Proofs.Diagram.Sketches

/-!
# Runs of a writer

What a writer answers depends on the calls since the last start of a document, and only on those
that it accepted: `Writer.stateAfter` is the writer that they lead to. A call takes it to the one
after a history with one more entry (`Writer.run_stateAfter`), so by induction a run ends with it
(`Writer.run_eq_stateAfter`), and `Writer.answers_of_run` reads off what can be seen of it.
-/

set_option autoImplicit false

namespace GrammarChart

namespace Writer

/-- What can be asked of a writer. -/
inductive Call where
  | reset
  | append (fragment : String)
  | finish
  | text
  deriving DecidableEq, Repr

/-- The writer after a call, and what the call answers. A call that faults leaves the writer as it
was. -/
def Call.run : Call → Writer → Writer × Except Fault (Option String)
  | .reset, writer => (writer.reset, .ok none)
  | .append fragment, writer =>
    match writer.append (.str fragment) with
    | .ok longer => (longer, .ok none)
    | .error fault => (writer, .error fault)
  | .finish, writer =>
    match writer.finish with
    | .ok closed => (closed, closed.text.map some)
    | .error fault => (writer, .error fault)
  | .text, writer => (writer, writer.text.map some)

/-- A call with what it answered. -/
structure Entry where
  call : Call
  answer : Except Fault (Option String)

/-- The writer after calls, and the history of them. -/
def run (writer : Writer) : List Call → Writer × List Entry
  | [] => (writer, [])
  | call :: rest =>
    let (next, answer) := call.run writer
    let (last, later) := run next rest
    (last, ⟨call, answer⟩ :: later)

/-- The entries after the last start of a document, if there was one. -/
def sinceReset (history : List Entry) : Option (List Entry) :=
  history.foldl (fun since entry =>
    if entry.call = .reset then some [] else since.map (· ++ [entry])) none

/-- The fragment that an entry added, if it is an accepted addition. -/
def Entry.added? (entry : Entry) : Option String :=
  match entry.call, entry.answer with
  | .append fragment, .ok _ => some fragment
  | _, _ => none

/-- The entry closed the document. -/
def Entry.closes (entry : Entry) : Bool :=
  match entry.call, entry.answer with
  | .finish, .ok _ => true
  | _, _ => false

/-- What a history has written since the last start of a document. -/
def written (history : List Entry) : String :=
  match sinceReset history with
  | none => ""
  | some since => opening ++ String.join (since.filterMap Entry.added?) ++
      if since.any Entry.closes then closing else ""

/-- Why a history allows no text to be added, if it does not. -/
def refusal? (history : List Entry) : Option Violation :=
  match sinceReset history with
  | none => some .notStarted
  | some since => if since.any Entry.closes then some .alreadyFinished else none

/-- What a call answers after a history. -/
def answerAfter (history : List Entry) : Call → Except Fault (Option String)
  | .reset => .ok none
  | .append _ => (refusal? history).elim (.ok none) fun violation => .error (.violation violation)
  | .finish => (refusal? history).elim (.ok (some (written history ++ closing))) fun violation =>
      .error (.violation violation)
  | .text => .ok (some (written history))

/-- The writer that a history leads to. -/
def stateAfter (history : List Entry) : Writer :=
  match sinceReset history with
  | none => .idle
  | some since =>
    let fragments := (since.filterMap Entry.added?).map Json.str
    if since.any Entry.closes then .finished fragments else .writing fragments

variable {history : List Entry}

/-- A start is the last start when nothing comes after it. -/
theorem sinceReset_concat_reset (history : List Entry) (answer : Except Fault (Option String)) :
    sinceReset (history ++ [⟨.reset, answer⟩]) = some [] := by
  rw [sinceReset, List.foldl_concat, if_pos rfl]

/-- Every other call comes after the last start. -/
theorem sinceReset_concat {call : Call} (other : call ≠ .reset)
    (answer : Except Fault (Option String)) : sinceReset (history ++ [⟨call, answer⟩]) =
      (sinceReset history).map (· ++ [⟨call, answer⟩]) := by
  rw [sinceReset, List.foldl_concat, if_neg other]
  rfl

/-- What the writer after a history has written. -/
theorem text_stateAfter (history : List Entry) :
    (stateAfter history).text = .ok (written history) := by
  rw [stateAfter, written]
  cases sinceReset history with
  | none => rfl
  | some since =>
    dsimp only
    split
    · rw [text, joined_texts]
      rfl
    · rw [text, joined_texts, String.append_empty]
      rfl

/-- A history has not started a document, or it is within the last one, or it has closed it. -/
theorem stateAfter_cases (history : List Entry) :
    (sinceReset history = none ∧ stateAfter history = .idle ∧
      refusal? history = some .notStarted) ∨
    (∃ since, sinceReset history = some since ∧ since.any Entry.closes = false ∧
      stateAfter history = .writing ((since.filterMap Entry.added?).map Json.str) ∧
      refusal? history = none) ∨
    ∃ since, sinceReset history = some since ∧ since.any Entry.closes = true ∧
      stateAfter history = .finished ((since.filterMap Entry.added?).map Json.str) ∧
      refusal? history = some .alreadyFinished := by
  cases started : sinceReset history with
  | none => exact .inl ⟨rfl, by rw [stateAfter, started], by rw [refusal?, started]⟩
  | some since =>
    cases closed : since.any Entry.closes with
    | false =>
      refine .inr (.inl ⟨since, rfl, closed, ?_, ?_⟩)
      · simp [stateAfter, started, closed]
      · simp [refusal?, started, closed]
    | true =>
      refine .inr (.inr ⟨since, rfl, closed, ?_, ?_⟩)
      · simp [stateAfter, started, closed]
      · simp [refusal?, started, closed]

/-- A call of the writer after a history is answered as the history says. -/
theorem answer_stateAfter (history : List Entry) (call : Call) :
    (call.run (stateAfter history)).2 = answerAfter history call := by
  have shown := text_stateAfter history
  cases call with
  | reset => rfl
  | text =>
    rw [Call.run, shown]
    rfl
  | append fragment =>
    rw [answerAfter]
    rcases stateAfter_cases history with
      ⟨-, state, refuses⟩ | ⟨since, -, -, state, refuses⟩ | ⟨since, -, -, state, refuses⟩ <;>
      rw [state, refuses] <;> rfl
  | finish =>
    rw [answerAfter]
    rcases stateAfter_cases history with
      ⟨-, state, refuses⟩ | ⟨since, -, -, state, refuses⟩ | ⟨since, -, -, state, refuses⟩
    · rw [state, refuses]
      rfl
    · have closes : (stateAfter history).finish =
          .ok (.finished ((since.filterMap Entry.added?).map Json.str)) := by
        rw [state, finish]
      rw [Call.run, closes, refuses]
      dsimp only
      rw [text_finish closes, shown]
      rfl
    · rw [state, refuses]
      rfl

/-- A call takes the writer after a history to the one after the history with its entry. -/
theorem run_stateAfter (history : List Entry) (call : Call) :
    (call.run (stateAfter history)).1 =
      stateAfter (history ++ [⟨call, answerAfter history call⟩]) := by
  -- A start forgets the history; every other call adds its entry to what came since the last one.
  by_cases starts : call = .reset
  · subst starts
    show Writer.writing [] = stateAfter _
    rw [stateAfter, sinceReset_concat_reset]
    rfl
  · rcases stateAfter_cases history with
      ⟨started, state, refuses⟩ | ⟨since, started, closed, state, refuses⟩ |
      ⟨since, started, closed, state, refuses⟩
    · rw [state, stateAfter, sinceReset_concat starts, started]
      cases call with
      | reset => exact absurd rfl starts
      | _ => rfl
    all_goals
      rw [state, stateAfter, sinceReset_concat starts, started]
      cases call with
      | reset => exact absurd rfl starts
      | append fragment =>
        simp [Call.run, append, answerAfter, refuses, closed, Entry.added?, Entry.closes]
      | finish =>
        simp [Call.run, finish, answerAfter, refuses, closed, Entry.added?, Entry.closes]
      | text => simp [Call.run, closed, Entry.added?, Entry.closes]

/-- A run that starts from the writer after a history ends with the writer after the whole history. -/
theorem run_eq_stateAfter (calls : List Call) (before : List Entry) :
    (run (stateAfter before) calls).1 =
      stateAfter (before ++ (run (stateAfter before) calls).2) := by
  -- The run goes over the calls from the front while the history grows at its end.
  induction calls generalizing before with
  | nil => rw [run, List.append_nil]
  | cons call rest ih =>
    have step := run_stateAfter before call
    have answer := answer_stateAfter before call
    have later := ih (before ++ [⟨call, answerAfter before call⟩])
    rw [← step, List.append_assoc] at later
    rw [← answer] at later
    exact later

/-- The history has the calls in order. -/
theorem map_call_run (writer : Writer) (calls : List Call) :
    (run writer calls).2.map Entry.call = calls := by
  induction calls generalizing writer with
  | nil => rfl
  | cons call rest ih => exact congrArg (call :: ·) (ih (call.run writer).1)

/-- Calls in a row lead where the later ones lead after the earlier ones. -/
theorem fst_run_append (writer : Writer) (first second : List Call) :
    (run writer (first ++ second)).1 = (run (run writer first).1 second).1 := by
  induction first generalizing writer with
  | nil => rfl
  | cons call rest ih => exact ih (call.run writer).1

/-- A document takes every fragment that is added. -/
theorem fst_run_appends (before : List Json) (texts : List String) :
    (run (.writing before) (texts.map .append)).1 = .writing (before ++ texts.map .str) := by
  induction texts generalizing before with
  | nil => simp [run]
  | cons text rest ih =>
    have later := ih (before ++ [.str text])
    rwa [List.append_assoc] at later

/-- A call that faults leaves the writer as it was. -/
theorem fst_run_of_fault {call : Call} {fault : Fault}
    (faults : answerAfter history call = .error fault) :
    (call.run (stateAfter history)).1 = stateAfter history := by
  cases call with
  | reset | text => cases faults
  | append fragment | finish =>
    rcases stateAfter_cases history with
      ⟨-, state, -⟩ | ⟨since, -, -, -, refuses⟩ | ⟨since, -, -, state, -⟩
    · rw [state]
      rfl
    · rw [answerAfter, refuses] at faults
      cases faults
    · rw [state]
      rfl

end Writer

/-- A compilation starts a document, adds its texts and, without a fault, closes it. -/
theorem Model.exists_run_of_compileRules (m : Model) (verbose : Bool) (rules : List Item)
    (writer : Writer) : ∃ calls,
      (writer.run calls).1 = (m.compileRules verbose rules writer).writer := by
  let texts := (m.compilationOutputs verbose rules).items.filterMap Output.fragment?
  have added : (writer.run (.reset :: texts.map .append)).1 = .writing (texts.map .str) :=
    Writer.fst_run_appends [] texts
  simp only [compileRules, Writer.reset, Writer.appendAll_writing, Option.none_or]
  cases (m.compilationOutputs verbose rules).fault with
  | some fault => exact ⟨_, added⟩
  | none =>
    refine ⟨(.reset :: texts.map .append) ++ [.finish], ?_⟩
    rw [Writer.fst_run_append, added]
    rfl

namespace Writer

/-- Whatever was asked of a writer before, its text is what was written since the last start, and it
answers the next call as its history says. A call that faults leaves it as it was. A compilation
with it is one with a writer that was never used; it leaves the text that it gives in the writer,
and a writer that further calls lead to. -/
theorem answers_of_run {calls : List Call} {writer : Writer} {history : List Entry}
    (ran : run .idle calls = (writer, history)) :
    history.map Entry.call = calls ∧ writer.text = .ok (written history) ∧
    (∀ call, (call.run writer).2 = answerAfter history call) ∧
    (∀ (call : Call) fault, (call.run writer).2 = .error fault → (call.run writer).1 = writer) ∧
    ∀ (m : Model) (verbose : Bool) (rules : List Item),
      m.compileRules verbose rules writer = m.compileRules verbose rules .idle ∧
      (∀ text, (m.compileRules verbose rules writer).result = .ok text →
        (m.compileRules verbose rules writer).writer.text = .ok text) ∧
      ∃ more, (run .idle (calls ++ more)).1 = (m.compileRules verbose rules writer).writer := by
  have reached : writer = stateAfter history := by
    have last := run_eq_stateAfter calls []
    rw [show stateAfter [] = .idle from rfl, ran] at last
    exact last
  have listed := map_call_run .idle calls
  rw [ran] at listed
  refine ⟨listed, ?_, ?_, ?_, ?_⟩
  · rw [reached, text_stateAfter]
  · intro call
    rw [reached, answer_stateAfter]
  · intro call fault faults
    rw [reached, answer_stateAfter] at faults
    rw [reached, fst_run_of_fault faults]
  · intro m verbose rules
    refine ⟨rfl, fun text => Model.text_of_result_compileRules, ?_⟩
    obtain ⟨more, leads⟩ := m.exists_run_of_compileRules verbose rules writer
    exact ⟨more, by rw [fst_run_append, ran, leads]⟩

/-- A fragment that comes after the end of a document is refused, and a new start discards the
document. -/
theorem answers_of_run_restarted : ∃ writer history,
    run .idle [.reset, .append "a", .finish, .append "b", .reset, .append "c"] =
      (writer, history) ∧
    history.map (fun entry => entry.answer.isOk) = [true, true, true, false, true, true] ∧
    writer.text = .ok "@startuml\nc" := by
  obtain ⟨-, shown, -⟩ := answers_of_run (show run .idle
    [.reset, .append "a", .finish, .append "b", .reset, .append "c"] = (_, _) from rfl)
  exact ⟨_, _, rfl, rfl, shown.trans rfl⟩

end Writer

end GrammarChart
