import GrammarChart.Fault

/-!
# Diagram writers

A writer collects the fragments of one document between an opening and a closing line. Text is
added only between the start and the end of a document; starting anew discards what was written.
`appendAll_writing` and `text_finish` are the laws of a document's life.
-/

set_option autoImplicit false

namespace GrammarChart

/-- A writer before its first document, in one, or after one. The fragments are those added since
the opening line; one that is no text spoils the document, but not before it is asked for. -/
inductive Writer where
  | idle
  | writing (fragments : List Json)
  | finished (fragments : List Json)
  deriving Repr

namespace Writer

/-- The first line of every document. -/
def opening : String := "@startuml\n"

/-- The last line of every finished document. -/
def closing : String := "@enduml\n"

/-- Starts a document. -/
def reset (_ : Writer) : Writer := .writing []

/-- Adds a fragment as it is. -/
def append : Writer → Json → Except Fault Writer
  | .idle, _ => .error (.violation .notStarted)
  | .writing fragments, fragment => .ok (.writing (fragments ++ [fragment]))
  | .finished _, _ => .error (.violation .alreadyFinished)

/-- Adds fragments up to the first that is refused; none is refused after the first one was
added. -/
def appendAll (writer : Writer) : List String → Writer × Option Fault
  | [] => (writer, none)
  | fragment :: rest =>
    match writer.append (.str fragment) with
    | .ok writer => appendAll writer rest
    | .error fault => (writer, some fault)

/-- The text of fragments in order; all of them have to be texts. -/
def joined (fragments : List Json) : Except Fault String :=
  match fragments.mapM Json.text? with
  | some texts => .ok (String.join texts)
  | none => .error .wrongType

/-- What was written so far. -/
def text : Writer → Except Fault String
  | .idle => .ok ""
  | .writing fragments => do return opening ++ (← joined fragments)
  | .finished fragments => do return opening ++ (← joined fragments) ++ closing

/-- Closes the document. -/
def finish : Writer → Except Fault Writer
  | .idle => .error (.violation .notStarted)
  | .writing fragments => .ok (.finished fragments)
  | .finished _ => .error (.violation .alreadyFinished)

/-- A document takes every fragment. -/
theorem appendAll_writing (before : List Json) (added : List String) :
    (Writer.writing before).appendAll added =
      (.writing (before ++ added.map Json.str), none) := by
  induction added generalizing before with
  | nil => simp [appendAll]
  | cons fragment rest ih => simp [appendAll, append, ih]

/-- Fragments that are texts are joined. -/
theorem joined_texts (texts : List String) :
    joined (texts.map Json.str) = .ok (String.join texts) := by
  have all : (texts.map Json.str).mapM Json.text? = some texts := by
    induction texts with
    | nil => rfl
    | cons text rest ih => simp [ih, Json.text?]
  simp [joined, all]

/-- A finished document ends with the closing line and is otherwise what was written. -/
theorem text_finish {writer closed : Writer} (h : writer.finish = .ok closed) :
    closed.text = writer.text.map (· ++ closing) := by
  cases writer with
  | idle => simp [finish] at h
  | finished _ => simp [finish] at h
  | writing fragments =>
    simp only [finish, Except.ok.injEq] at h
    subst h
    cases hf : joined fragments <;> simp [text, hf] <;> rfl

end Writer
end GrammarChart
