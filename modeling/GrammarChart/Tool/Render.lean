import GrammarChart.Decimal.Shortest
import GrammarChart.Files.FileTree
import GrammarChart.Json.Display
import GrammarChart.Tool.Words
import GrammarChart.Text.Blank
import GrammarChart.Text.Lines

/-!
# Rendering

Hands a saved diagram to a drawing tool. The tool is named by a command line, which is continued by
the format and the path of the diagram. What the system makes of the command is an outcome; a
missing tool, a tool that takes too long and a tool that fails are answers and not faults.
-/

set_option autoImplicit false

namespace GrammarChart.Tool

/-- The formats that can be asked for. -/
def formats : List String := ["png", "svg", "txt"]

/-- The path of the picture that the tool draws. -/
def renderedPath (diagram : FilePath) (format : Json) : Except Fault FilePath :=
  match diagram.withSuffix ("." ++ format.display) with
  | .ok path => .ok path
  | .error fault => .error (.badPath fault)

/-- How a command ends: after some milliseconds, with a status and with what it wrote, never, or
before it is started. -/
inductive Ending where
  | finished (status : Int) (output errors : List UInt8) (milliseconds : Nat)
  | endless
  | refused (problem : FileProblem)

/-- What the system makes of a command: how it ends, and the files that it leaves. -/
structure Outcome where
  tree : FileTree
  ending : Ending

/-- The seconds that a command may take: any number of them, or as many as a place on the line of
numbers tells. -/
inductive TimeLimit where
  | unlimited
  | upTo (place : Binary64.Place)
  deriving DecidableEq, Repr

namespace TimeLimit

/-- The most milliseconds that the clock can count. -/
def maxCounted : Nat := 9223372036854

/-- The most milliseconds that the system can wait. -/
def maxWaited : Nat := 2147483647

/-- The place lies beyond a number of milliseconds. -/
def isBeyond (milliseconds : Nat) : Binary64.Place → Bool
  | .units count => (milliseconds * twoTo 1074 : Nat) < 1000 * count
  | .highest => true
  | _ => false

/-- The limit at a place, unless the system cannot keep it. -/
def ofPlace (place : Binary64.Place) : Except Fault TimeLimit :=
  if place = .highest then .error (.badTime .infinite)
  else if isBeyond maxCounted place then .error (.badTime .beyondClock)
  else if isBeyond maxWaited place then .error (.badTime .beyondWait)
  else .ok (.upTo place)

/-- The limit of a whole number of seconds. -/
def ofInt (seconds : Int) : Except Fault TimeLimit :=
  if (Binary64.ofRatio (seconds < 0) seconds.natAbs 1).isFinite then ofPlace (.ofInt seconds)
  else .error (.badTime .beyondReal)

/-- The limit that a value stands for. Without a value there is none. -/
def ofJson : Json → Except Fault TimeLimit
  | .null => .ok .unlimited
  | .real x => ofPlace x.place
  | value =>
    match value.wholeNumber? with
    | some seconds => ofInt seconds
    | none => .error .wrongType

/-- A command that takes the given number of milliseconds, or for ever, takes too long. Without
any time, every command does. -/
def isExceededBy (limit : TimeLimit) (milliseconds : Option Nat) : Bool :=
  match limit with
  | .unlimited => false
  | .upTo place =>
    !(Binary64.Place.ofInt 0).below place ||
      match milliseconds with
      | some milliseconds => place.below (Binary64.ofRatio false milliseconds 1000).place
      | none => true

end TimeLimit

/-- Runs a command, given by its words, on files. -/
abbrev Runner := FileTree → List String → Outcome

/-- The answer to a rendering: the path of the picture, or the reason why there is none. -/
inductive Answer where
  | drawn (picture : FilePath)
  | failed (reason : String)

/-- Whether a picture was drawn. -/
def Answer.isDrawn : Answer → Bool
  | .drawn _ => true
  | .failed _ => false

/-- The text of an answer. -/
def Answer.text : Answer → String
  | .drawn picture => picture.text
  | .failed reason => reason

/-- The text that a command wrote. -/
def outputText (bytes : List UInt8) : Except Fault String :=
  match Text.Utf8.decode bytes with
  | .ok text => .ok (Text.unifyLineEnds text)
  | .error fault => .error (.undecodable fault)

/-- The longest reason that is passed on from a command. -/
def maxReasonLength : Nat := 500

/-- The reason for the failure of a command that wrote the given texts. -/
def failureReason (output errors : String) : String :=
  let told := if errors ≠ "" then errors else if output ≠ "" then output else "Unknown error"
  String.ofList ((Text.trim told).toList.take maxReasonLength)

/-- The answer to a rendering that took longer than it may. -/
def tooLong (limit : Json) : Answer :=
  .failed ("PlantUML timed out after " ++ limit.display ++ "s")

/-- The answer to a rendering of a diagram by a command whose words start with the given name. -/
def answerOf (diagram format : Json) (name : String) (limit : Json) :
    Ending → Except Fault Answer
  | .refused .notFound => .ok (.failed ("PlantUML executable not found: " ++ name))
  | .refused problem => .error (.file problem name)
  | .endless => do
    discard (TimeLimit.ofJson limit)
    return tooLong limit
  | .finished status output errors milliseconds => do
    if (← TimeLimit.ofJson limit).isExceededBy milliseconds then return tooLong limit
    let output ← outputText output
    let errors ← outputText errors
    if status ≠ 0 then return .failed ("PlantUML failed: " ++ failureReason output errors)
    match diagram with
    | .str path => return .drawn (← renderedPath (.ofText path) format)
    | _ => throw .wrongType

/-- The words of a command. Only a text has words. -/
def commandWords : Json → Except Fault (List String)
  | .str command => splitWords command
  | .null => .ok []
  | _ => .error .noField

/-- The value is one of the formats. -/
def isFormat (value : Json) : Bool :=
  formats.any value.isText

/-- A rendering: the files that it leaves and its answer. -/
structure Rendering where
  tree : FileTree
  answer : Except Fault Answer

/-- The words that a diagram is rendered by in a format. -/
def renderingWords (diagram format command : Json) : Except Fault (List String) := do
  let words ← commandWords command
  let words := words ++ ["-t" ++ format.display, diagram.display]
  if words.any (·.toList.contains '\x00') then throw .nullCharacter
  return words

/-- Renders a diagram in a format by a command within a limit. -/
def render (run : Runner) (tree : FileTree) (diagram format command limit : Json) : Rendering :=
  if !isFormat format then
    ⟨tree, .ok (.failed ("Unsupported output format: " ++ format.display))⟩
  else match renderingWords diagram format command with
    | .error fault => ⟨tree, .error fault⟩
    | .ok words =>
      let outcome := run tree words
      ⟨outcome.tree, answerOf diagram format (words.headD "") limit outcome.ending⟩

end GrammarChart.Tool
