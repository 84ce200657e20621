import GrammarChart.Json.Reader
import GrammarChart.Json.Value
import GrammarChart.Text.Wide

/-!
# Submissions

A submission hands a document to the service: its address, the document, the documents that it may
import, and whether the rules of imported documents are to be drawn. It is read from the body of a
request, which is an object with a field for each of them.
-/

set_option autoImplicit false

namespace GrammarChart

/-- A document that is handed to the service. -/
structure Submission where
  address : String
  grammar : Fields
  attached : Fields
  withImports : Bool

/-- Why the body of a request is no submission: it is no value at all, or not one of the right
form, because of some values in it. -/
inductive BadBody where
  | unreadable
  | invalid (wrong : List Json)
  deriving Repr

namespace Submission

/-- The words for a truth value, in any case. -/
def truthWords : List (String × Bool) :=
  [("1", true), ("on", true), ("t", true), ("true", true), ("y", true), ("yes", true),
    ("0", false), ("off", false), ("f", false), ("false", false), ("n", false), ("no", false)]

/-- The truth value that a value stands for: one and zero and some words do. -/
def truth? : Json → Option Bool
  | .bool b => some b
  | .str word => truthWords.lookup word.toLower
  | value =>
    if value.sameAtom (.int 0) then some false
    else if value.sameAtom (.int 1) then some true
    else none

/-- The value is an object. -/
def isObject : Json → Bool
  | .obj _ => true
  | _ => false

/-- The attached documents, each of which is an object. -/
def attached? : Option Json → Option Fields
  | none => some []
  | some (.obj fields) => if fields.all (isObject ·.2) then some fields else none
  | some _ => none

/-- The submission that a value describes. -/
def ofJson? : Json → Option Submission
  | .obj fields => do
    let .str address ← Fields.get? fields "uri" | none
    let .obj grammar ← Fields.get? fields "grammar" | none
    let attached ← attached? (Fields.get? fields "imports")
    let withImports ← match Fields.get? fields "include_imports" with
      | none => some true
      | some value => truth? value
    return ⟨address, grammar, attached, withImports⟩
  | _ => none

/-- The values that keep the value of a field from being what it has to be. A field that is missing
is the fault of the whole object. -/
def wrongIn (fields : Fields) (key : String) (wrong : Json → List Json) : List Json :=
  match Fields.get? fields key with
  | some value => wrong value
  | none => [.obj fields]

/-- The values that are no attached documents. -/
def wrongAttached : Json → List Json
  | .obj fields => (fields.map Prod.snd).filter fun value => !isObject value
  | value => [value]

/-- The values that keep a value from describing a submission. A body of null counts as missing. -/
def wrongParts : Json → List Json
  | .null => []
  | .obj fields =>
    wrongIn fields "uri" (fun value => if value.text?.isSome then [] else [value]) ++
      wrongIn fields "grammar" (fun value => if isObject value then [] else [value]) ++
      ((Fields.get? fields "imports").map wrongAttached).getD [] ++
      (((Fields.get? fields "include_imports").toList).filter fun value => (truth? value).isNone)
  | value => [value]

/-- The text of a body, in any encoding of texts. Only a text of octets may start with a mark of
byte order. -/
def textOf (body : String) : Option (List Char) :=
  let octets := body.toUTF8.toList
  match Text.Encoding.detect octets, body.toList with
  | .octets, '\uFEFF' :: rest => some rest
  | .octets, all => some all
  | encoding, _ => encoding.decode octets

/-- Reads the submission in the body of a request. A request without a body has none. -/
def ofBody (body : Option String) : Except BadBody Submission :=
  match textOf (body.getD "") with
  | none => .error .unreadable
  | some text =>
    match Json.read (String.ofList text) with
    | .ok value =>
      match ofJson? value with
      | some submission => .ok submission
      | none => .error (.invalid (wrongParts value))
    | .error (.malformed ..) => .error (.invalid [])
    | .error _ => .error .unreadable

end Submission
end GrammarChart
