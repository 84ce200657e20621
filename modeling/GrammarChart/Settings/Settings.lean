import GrammarChart.Settings.Environment
import GrammarChart.Text.Numeral

/-!
# Settings

The settings of the program, read from environment variables with a default for each one.
-/

set_option autoImplicit false

namespace GrammarChart

/-- What the environment decides: where diagrams are stored, the command of the drawing tool and
how many seconds it may take, and whether to tell what is being done. -/
structure Settings where
  outputDirectory : FilePath
  toolCommand : String
  toolTimeout : Int
  verbose : Bool

namespace Settings

/-- The words that switch a setting on, in any case and between blanks. -/
def switchWords : List String := ["1", "true", "yes", "on"]

/-- The text switches a setting on. -/
def isOn (text : String) : Bool :=
  switchWords.contains (Text.trim text).toLower

/-- The names of the variables. -/
def variableNames : List String :=
  ["GRAMMAR_UML_OUTPUT_DIR", "PLANTUML_CMD", "PLANTUML_TIMEOUT", "GRAMMAR_UML_VERBOSE"]

/-- Reads a whole number. -/
def readNumber (text : String) : Except Fault Int :=
  match Text.Numeral.readInt text with
  | .ok n => .ok n
  | .error .malformed => .error (.notANumber text)
  | .error (.tooLong digits) => .error (.numeralTooLong digits)

/-- The settings of an environment. -/
def ofEnvironment (env : Environment) : Except Fault Settings := do
  let get (name default : String) : String := (env.get? name).getD default
  let timeout ← readNumber (get "PLANTUML_TIMEOUT" "60")
  return {
    outputDirectory := .ofText (get "GRAMMAR_UML_OUTPUT_DIR" "uml")
    toolCommand := get "PLANTUML_CMD" "plantuml"
    toolTimeout := timeout
    verbose := isOn (get "GRAMMAR_UML_VERBOSE" "") }

end Settings
end GrammarChart
