import GrammarChart.Document.Basic

/-!
# Reading documents

Builds the trees of a document from the value that was written for it. Fields that may be missing
have their defaults, fields that hold names, marks and the like keep whatever was written, and the
first part that cannot be read stops the reading.
-/

set_option autoImplicit false

namespace GrammarChart

namespace Fields

/-- The value of a field, or a default. -/
def getD (fields : Fields) (key : String) (default : Json) : Json :=
  (fields.get? key).getD default

/-- The value of a field that has to be there. -/
def require (fields : Fields) (key : String) : Except Fault Json :=
  match fields.get? key with
  | some value => .ok value
  | none => .error (.missingKey key)

/-- Whether a field is present. -/
def flag (fields : Fields) (key : String) : Bool :=
  (fields.getD key (.bool false)).isPresent

/-- The name in a field that holds a name or an object with one. -/
def inferredName (fields : Fields) (key : String) : Json :=
  match fields.getD key .null with
  | .obj inner => Fields.getD inner "name" .null
  | value => value

end Fields

/-- The last name of an address. -/
def lastName (address : String) : String :=
  String.ofList (address.toList.reverse.takeWhile (· != '/')).reverse

/-- Reads a reference; null is none. Without a text of its own a reference is shown as the last
name of its address. -/
def Reference.ofJson (value : Json) : Except Fault (Option Reference) :=
  match value with
  | .null => .ok none
  | value => do
    let fields ← value.fields
    let shown := fields.getD "$refText" .null
    let address := fields.getD "$ref" (.str "")
    if shown.isPresent then return some ⟨shown, some address⟩
    else match address with
      | .str text => return some ⟨.str (lastName text), some address⟩
      | _ => throw .noField

/-- A reference that may be missing. -/
def Reference.orMissing (reference : Option Reference) : Reference :=
  reference.getD .missing

/-- A value is smaller than an object that holds it. -/
theorem sizeOf_field_lt {fields : Fields} {key : String} {value : Json}
    (h : fields.get? key = some value) : sizeOf value < sizeOf (Json.obj fields) := by
  have := Fields.sizeOf_get? h
  simp only [Json.obj.sizeOf_spec]
  omega

mutual

/-- Reads an element. -/
def Element.ofJson (value : Json) : Except Fault Element :=
  match value with
  | .obj fields =>
    let kind := Fields.getD fields "$type" .null
    let mark := Fields.getD fields "cardinality" .null
    match kind with
    | .str "Keyword" => .ok (.keyword (Fields.getD fields "value" (.str "")) mark)
    | .str "RuleCall" => do
      let rule ← Reference.ofJson (Fields.getD fields "rule" .null)
      return .ruleCall (Reference.orMissing rule) mark
    | .str "CrossReference" => do
      let type ← Reference.ofJson (Fields.getD fields "type" .null)
      match _h : Fields.get? fields "terminal" with
      | none => return .crossReference (Reference.orMissing type) none mark
      | some terminal =>
        if terminal.isPresent then
          let terminal ← Element.ofJson terminal
          return .crossReference (Reference.orMissing type) (some terminal) mark
        else return .crossReference (Reference.orMissing type) none mark
    | .str "Assignment" => do
      let feature ← Fields.require fields "feature"
      let operator := Fields.getD fields "operator" (.str "=")
      match _h : Fields.get? fields "terminal" with
      | none => throw (.missingKey "terminal")
      | some terminal => return .assignment feature operator (← Element.ofJson terminal) mark
    | .str "Alternatives" =>
      match _h : Fields.get? fields "elements" with
      | none => .ok (.alternatives [] mark)
      | some elements => do return .alternatives (← Element.membersOfJson elements) mark
    | .str "Group" =>
      match _h : Fields.get? fields "elements" with
      | none => .ok (.group [] mark)
      | some elements => do return .group (← Element.membersOfJson elements) mark
    | .str "UnorderedGroup" =>
      match _h : Fields.get? fields "elements" with
      | none => .ok (.group [] mark)
      | some elements => do return .group (← Element.membersOfJson elements) mark
    | .str "Action" => do
      let type ← Reference.ofJson (Fields.getD fields "type" .null)
      return .action type (Fields.inferredName fields "inferredType")
        (Fields.getD fields "feature" .null) (Fields.getD fields "operator" .null) mark
    | kind => .error (.unsupportedElement kind)
  | _ => .error .noField
termination_by sizeOf value
decreasing_by
  all_goals exact sizeOf_field_lt (by assumption)

/-- Reads the members of a group or of alternatives. Only a list can have members; of anything
else that can be gone through, no item is an element. -/
def Element.membersOfJson (value : Json) : Except Fault (List Element) :=
  match value with
  | .arr items => Element.listOfJson items
  | value => do
    if (← value.items).isEmpty then return [] else throw .noField
termination_by sizeOf value
decreasing_by
  simp only [Json.arr.sizeOf_spec]; omega

/-- Reads elements in order. -/
def Element.listOfJson (values : List Json) : Except Fault (List Element) :=
  match values with
  | [] => .ok []
  | value :: rest => do
    let element ← Element.ofJson value
    let elements ← Element.listOfJson rest
    return element :: elements
termination_by sizeOf values
decreasing_by
  all_goals simp only [List.cons.sizeOf_spec]; omega

end

/-- Reads a rule. -/
def Rule.ofJson (value : Json) : Except Fault Rule := do
  let fields ← value.fields
  match fields.getD "$type" .null with
  | .str "TerminalRule" => do
    let definition := (fields.getD "definition" .null).orElse (.obj [])
    let name ← fields.require "name"
    let inner ← definition.fields
    return .terminal name (inner.getD "regex" .null) (fields.flag "hidden") (fields.flag "fragment")
  | .str "ParserRule" => do
    let definition := fields.getD "definition" .null
    let name ← fields.require "name"
    let body ← if definition.isPresent then (Element.ofJson definition).map some else pure none
    return .parser name body (fields.inferredName "inferredType") (fields.flag "entry")
      (fields.flag "fragment")
  | kind => throw (.unsupportedRule kind)

/-- Reads a declaration. -/
def Declaration.ofJson (value : Json) : Except Fault Declaration :=
  match value with
  | .obj fields => do
    return ⟨← Fields.require fields "name", Fields.getD fields "$type" (.str "Interface")⟩
  | _ => .error .wrongType

/-- Reads a diagnostic. -/
def Diagnostic.ofJson (value : Json) : Except Fault Diagnostic := do
  let fields ← value.fields
  return ⟨fields.getD "severity" .null, fields.getD "message" (.str "")⟩

namespace Document

/-- The items of a field that may be missing. -/
def itemsOf (fields : Fields) (key : String) : Except Fault (List Json) :=
  (fields.getD key (.arr [])).items

/-- The fields of a document. A document that says what it is has to say that it is a grammar. -/
def fieldsOf (value : Json) : Except Fault Fields := do
  let fields ← value.fields
  match fields.get? "$type" with
  | none => return fields
  | some (.str "Grammar") => return fields
  | some kind => throw (.notAGrammar kind)

/-- The paths that a document imports, in order. An import is an object with a path, or any other
value, whose text is the path. -/
def importPaths (fields : Fields) : Except Fault (List Json) := do
  let entries ← itemsOf fields "imports"
  return entries.map fun entry =>
    match entry with
    | .obj inner => Fields.getD inner "path" (.str "")
    | entry => .str entry.display

/-- Reads a document, its imports apart. -/
def ofFields (fields : Fields) : Except Fault Document := do
  let rules ← (← itemsOf fields "rules").mapM Rule.ofJson
  let interfaceItems ← itemsOf fields "interfaces"
  let typeItems ← itemsOf fields "types"
  let interfaces ← interfaceItems.mapM Declaration.ofJson
  let types ← typeItems.mapM Declaration.ofJson
  let diagnostics ← (← itemsOf fields "diagnostics").mapM Diagnostic.ofJson
  return ⟨(fields.getD "name" .null).orElse (.str ""), rules, interfaces, types, diagnostics⟩

end Document
end GrammarChart
