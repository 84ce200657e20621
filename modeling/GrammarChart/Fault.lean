import GrammarChart.Json.Reader
import GrammarChart.Json.Display
import GrammarChart.Files.FilePath
import GrammarChart.Text.Utf8

/-!
# Faults

Everything that can stop an operation of the library, as causes; `Fault.message` is the wording.
`Fault.isInputFault` picks the faults that a command or a request reports as bad input.
-/

set_option autoImplicit false

namespace GrammarChart

/-- Why the file system refuses an access. -/
inductive FileProblem where
  | notFound
  | permissionDenied
  | alreadyExists
  | notADirectory
  | isADirectory
  | nameTooLong
  deriving DecidableEq, Repr

/-- The number of the problem in the tables of the operating system. -/
def FileProblem.number : FileProblem → Nat
  | .notFound => 2
  | .permissionDenied => 13
  | .alreadyExists => 17
  | .notADirectory => 20
  | .isADirectory => 21
  | .nameTooLong => 36

/-- The wording of the problem. -/
def FileProblem.message : FileProblem → String
  | .notFound => "No such file or directory"
  | .permissionDenied => "Permission denied"
  | .alreadyExists => "File exists"
  | .notADirectory => "Not a directory"
  | .isADirectory => "Is a directory"
  | .nameTooLong => "File name too long"

/-- A broken rule of the element model or of the diagram writer. -/
inductive Violation where
  /-- No pass knows elements of this kind. -/
  | unsupportedElement (kind : String)
  /-- The element stands outside every rule. -/
  | uncontained (kind : String)
  /-- Elements of this kind draw no arrow. -/
  | noArrow (kind : String)
  /-- Text was added to a writer that was never started. -/
  | notStarted
  /-- Text was added to a finished document. -/
  | alreadyFinished
  deriving DecidableEq, Repr

/-- The wording of a violation. -/
def Violation.message : Violation → String
  | .unsupportedElement kind => "Unsupported grammar element: " ++ kind
  | .uncontained kind => kind ++ " is not contained in any rule"
  | .noArrow kind => "No arrow kind for " ++ kind
  | .notStarted => "DiagramWriter.append called before reset"
  | .alreadyFinished => "DiagramWriter.append called after finish"

/-- Why a number of seconds is no time limit. -/
inductive TimeProblem where
  /-- It is beyond every number of the format for numbers with a fraction. -/
  | beyondReal
  /-- It is infinite. -/
  | infinite
  /-- It is beyond what the clock can count. -/
  | beyondClock
  /-- It is beyond what the system can wait. -/
  | beyondWait
  deriving DecidableEq, Repr

/-- The wording of the problem. -/
def TimeProblem.message : TimeProblem → String
  | .beyondReal => "int too large to convert to float"
  | .infinite => "cannot convert float infinity to integer"
  | .beyondClock => "timestamp too large to convert to C _PyTime_t"
  | .beyondWait => "timeout is too large"

/-- Why the target of a request is no address. -/
inductive AddressProblem where
  | tooLong
  | unprintable (c : Char) (position : Nat)
  /-- Four numbers that are no address of a host. -/
  | badQuad (host : String)
  /-- A text in brackets that is no address of a host. -/
  | badBrackets (host : String)
  /-- A name beyond the basic block that no host can have. -/
  | badName (host : String)
  | badPort (port : String)
  | twoSlashes
  | colon
  deriving DecidableEq, Repr

/-- The wording of the problem. -/
def AddressProblem.message : AddressProblem → String
  | .tooLong => "URL too long"
  | .unprintable c position =>
    "Invalid non-printable ASCII character in URL, " ++ Text.quoted c.toString ++
      " at position " ++ toString position ++ "."
  | .badQuad host => "Invalid IPv4 address: " ++ Text.quoted host
  | .badBrackets host => "Invalid IPv6 address: " ++ Text.quoted host
  | .badName host => "Invalid IDNA hostname: " ++ Text.quoted host
  | .badPort port => "Invalid port: " ++ Text.quoted port
  | .twoSlashes => "Relative URLs cannot have a path starting with \x27//\x27"
  | .colon => "Relative URLs cannot have a path starting with \x27:\x27"

/-- Why an operation stopped. -/
inductive Fault where
  /-- A field or an operation was asked of a value that has none. -/
  | noField
  /-- A value of the wrong type was iterated, indexed, joined or put into a set. -/
  | wrongType
  /-- An item was put into a list at an index that the list does not have. -/
  | noItem
  /-- A field that has to be there is missing. -/
  | missingKey (key : String)
  /-- The document is of another kind. -/
  | notAGrammar (kind : Json)
  /-- A rule is of no known kind. -/
  | unsupportedRule (kind : Json)
  /-- An element is of no known kind. -/
  | unsupportedElement (kind : Json)
  /-- A numeral is too long to convert. -/
  | numeralTooLong (digits : Nat)
  /-- A text that should be a whole number is none. -/
  | notANumber (text : String)
  /-- A text for the system has a null character. -/
  | nullCharacter
  /-- A variable of the environment cannot have this name. -/
  | badVariableName
  /-- A path has no version with the suffix asked for. -/
  | badPath (fault : FilePath.Fault)
  /-- A quotation in a command line is not closed. -/
  | openQuotation
  /-- A command line ends in an escape. -/
  | openEscape
  /-- A number of seconds is no time limit. -/
  | badTime (problem : TimeProblem)
  /-- The target of a request is no address. -/
  | badAddress (problem : AddressProblem)
  /-- A number of a response has no standard numeral. -/
  | unboundedNumber
  /-- A text is no written value. -/
  | malformed (what : Json.Problem) (line column offset : Nat)
  /-- Octets are no text. -/
  | undecodable (fault : Text.Utf8.Fault)
  /-- The file system refused an access. -/
  | file (problem : FileProblem) (path : String)
  /-- A rule of the element model or of the writer is broken. -/
  | violation (what : Violation)

namespace Fault

/-- The fault of a text that cannot be read as a value. -/
def ofReadFault : Json.ReadFault → Fault
  | .malformed what line column offset => .malformed what line column offset
  | .numeralTooLong digits => .numeralTooLong digits

/-- The fault that a path with the wrong name or suffix raises. -/
def pathMessage : FilePath.Fault → String
  | .emptyName path => "PosixPath(" ++ Text.quoted path.text ++ ") has an empty name"
  | .badSuffix suffix => "Invalid suffix " ++ Text.quoted suffix

/-- A byte as two digits in base sixteen. -/
def byteText (byte : UInt8) : String :=
  "0x" ++ String.ofList (Text.hexDigits 2 byte.toNat)

/-- The wording for octets that are no text. -/
def undecodableMessage (fault : Text.Utf8.Fault) : String :=
  let place := toString fault.position
  let subject :=
    if fault.count = 1 then "byte " ++ byteText fault.byte ++ " in position " ++ place
    else "bytes in position " ++ place ++ "-" ++ toString (fault.position + fault.count - 1)
  "'utf-8' codec can't decode " ++ subject ++ ": " ++ fault.reason.message

/-- The wording of a fault. Values of the wrong type have none of their own. -/
def message : Fault → String
  | .noField => ""
  | .wrongType => ""
  | .noItem => "list assignment index out of range"
  | .missingKey key => Text.quoted key
  | .notAGrammar kind => "Expected a Grammar document, got " ++ kind.quoted
  | .unsupportedRule kind => "Unsupported rule type: " ++ kind.quoted
  | .unsupportedElement kind => "Unsupported grammar element: " ++ kind.quoted
  | .numeralTooLong digits =>
    "Exceeds the limit (" ++ toString Text.Numeral.maxDigits ++
      " digits) for integer string conversion: value has " ++ toString digits ++
      " digits; use sys.set_int_max_str_digits() to increase the limit"
  | .notANumber text =>
    "invalid literal for int() with base 10: " ++
      String.ofList ((Text.quoted text).toList.take 200)
  | .nullCharacter => "embedded null byte"
  | .badVariableName => "illegal environment variable name"
  | .badPath fault => pathMessage fault
  | .openQuotation => "No closing quotation"
  | .openEscape => "No escaped character"
  | .badTime problem => problem.message
  | .badAddress problem => problem.message
  | .unboundedNumber => "Out of range float values are not JSON compliant"
  | .malformed what line column offset =>
    what.message ++ ": line " ++ toString line ++ " column " ++ toString column ++
      " (char " ++ toString offset ++ ")"
  | .undecodable fault => undecodableMessage fault
  | .file problem path =>
    "[Errno " ++ toString problem.number ++ "] " ++ problem.message ++ ": " ++ Text.quoted path
  | .violation what => what.message

/-- The faults of the input itself: it cannot be read, or it asks for what does not exist. -/
def isInputFault : Fault → Bool
  | .notAGrammar _ | .unsupportedRule _ | .unsupportedElement _ | .numeralTooLong _
  | .notANumber _ | .nullCharacter | .badVariableName | .badPath _ | .openQuotation | .openEscape
  | .unboundedNumber
  | .malformed .. | .undecodable _ => true
  | _ => false

/-- The faults that the file system raises. -/
def isFileFault : Fault → Bool
  | .file .. => true
  | _ => false

end Fault
end GrammarChart
