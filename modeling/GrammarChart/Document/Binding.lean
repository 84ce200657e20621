import GrammarChart.Document.Reading
import GrammarChart.Document.Planting
import GrammarChart.Text.WordCharacter
import GrammarChart.Files.FilePath

/-!
# Binding references

An address is a path into the document it stands in, or into an imported one that is named before
a hash mark. A path into the own document leads from field to field of the written value and may
end at any node; a path into another document names a rule or a declaration by its index. An
address that leads nowhere leaves its reference unresolved.
-/

set_option autoImplicit false

namespace GrammarChart

/-- The grammars that a document imports, by the stems of the paths it imports them with. -/
abbrev Imported := List (String × NodeId)

/-- Notes a grammar under a stem, in the place of an earlier one. -/
def Imported.insert : Imported → String → NodeId → Imported
  | [], stem, id => [(stem, id)]
  | (s, g) :: rest, stem, id =>
    if s = stem then (s, id) :: rest else (s, g) :: Imported.insert rest stem id

/-- The grammar that was imported under a stem. -/
def Imported.get? : Imported → String → Option NodeId
  | [], _ => none
  | (s, g) :: rest, stem => if s = stem then some g else Imported.get? rest stem

/-- A part of a path into a document: a field, and the digits of an index into it. -/
structure Segment where
  name : List Char
  index : Option (List Nat)

namespace Segment

/-- The end of a segment, which may be a line end. -/
def isEnd (rest : List Char) : Bool :=
  rest.isEmpty || rest == ['\n']

/-- The digits of an index that ends the text. -/
def indexOf (text : List Char) : Option (List Nat) :=
  let digits := text.takeWhile Text.isDigit
  if !digits.isEmpty && isEnd (text.dropWhile Text.isDigit) then
    some (digits.filterMap Text.digitValue?)
  else none

/-- Reads a segment: a name of word characters, and an index after an at sign. -/
def ofText (text : List Char) : Option Segment :=
  let name := text.takeWhile Text.isWordCharacter
  let rest := text.dropWhile Text.isWordCharacter
  if name.isEmpty then none
  else if isEnd rest then some ⟨name, none⟩
  else match rest with
    | '@' :: digits => (indexOf digits).map fun index => ⟨name, some index⟩
    | _ => none

end Segment

/-- The number that the digits of an index spell. -/
def indexNumber (digits : List Nat) : Except Fault Nat :=
  match Text.Numeral.convert digits with
  | .ok n => .ok n
  | .error _ => .error (.numeralTooLong digits.length)

/-- Follows a path from a value that stands at a position: the position it leads to, if an object
stands there. -/
def Json.follow (position : Position) (value : Json) :
    List (List Char) → Except Fault (Option Position)
  | [] =>
    match value with
    | .obj _ => .ok (some position)
    | _ => .ok none
  | text :: rest =>
    match Segment.ofText text, value with
    | some ⟨name, none⟩, .obj fields =>
      let key := String.ofList name
      Json.follow (position ++ [.field key]) (Fields.getD fields key .null) rest
    | some ⟨name, some digits⟩, .obj fields => do
      let key := String.ofList name
      let index ← indexNumber digits
      match Fields.getD fields key .null with
      | .arr items =>
        match items[index]? with
        | some item => Json.follow (position ++ [.field key, .item index]) item rest
        | none => return none
      | _ => return none
    | _, _ => .ok none

/-- The segments of a path. -/
def segments (path : List Char) : List (List Char) :=
  (path.splitOn '/').filter fun segment => !segment.isEmpty

/-- The lists of a document that a path from another document can index. -/
def indexedLists : List String := ["rules", "interfaces", "types"]

/-- Reads a path into another document: the list and the digits of the index. -/
def outsidePath? (path : List Char) : Option (String × List Nat) :=
  indexedLists.findSome? fun list =>
    let start := '/' :: list.toList ++ ['@']
    if start.isPrefixOf path then
      (Segment.indexOf (path.drop start.length)).map (list, ·)
    else none

namespace Model

/-- The node is a declared type of a kind. -/
def isTypeOfKind (m : Model) (kind : String) (id : NodeId) : Bool :=
  match m.shape? id with
  | some (.typeDeclaration _ k) => k.isText kind
  | _ => false

/-- The nodes that stand in a place for a list of nodes. -/
def nodesIn (place : Item) : List NodeId :=
  match place.items with
  | .ok items => items.filterMap Item.node?
  | .error _ => []

/-- The nodes of a grammar in the list that a path names. -/
def indexedNodes (m : Model) (grammar : Grammar) (list : String) : List NodeId :=
  if list = "rules" then nodesIn grammar.rules
  else if list = "interfaces" then (nodesIn grammar.types).filter (m.isTypeOfKind "Interface")
  else (nodesIn grammar.types).filter (m.isTypeOfKind "Type")

/-- The nodes in the place of a list of nodes are its members. -/
@[simp] theorem nodesIn_ofNodes (ids : List NodeId) : nodesIn (.ofNodes ids) = ids := by
  simp [nodesIn, Function.comp_def, Item.node?]

/-- The node of an imported grammar that a path leads to. -/
def outsideNode (m : Model) (imported : Imported) (document path : List Char) :
    Except Fault (Option NodeId) :=
  match (imported.get? (FilePath.ofText (String.ofList document)).stem).bind m.grammar? with
  | none => .ok none
  | some grammar =>
    match outsidePath? path with
    | none => .ok none
    | some (list, digits) => do
      let index ← indexNumber digits
      return (m.indexedNodes grammar list)[index]?

end Model

namespace Planting

/-- The node that an address leads to. -/
def nodeAt (p : Planting) (imported : Imported) (fields : Fields) (address : Json) :
    Except Fault (Option NodeId) :=
  match address with
  | .str text =>
    let document := text.toList.takeWhile (· != '#')
    let path := (text.toList.dropWhile (· != '#')).drop 1
    if document.isEmpty then
      (Json.follow [] (.obj fields) (segments path)).map fun position => position.bind p.place?
    else p.model.outsideNode imported document path
  | _ => .error .noField

/-- Binds references in order. The addresses are looked up in the nodes of the planting, which
binding leaves alone. -/
def bindAll (p : Planting) (imported : Imported) (fields : Fields) (model : Model) :
    List (NodeId × Json) → Except Fault Model
  | [] => .ok model
  | (link, address) :: rest => do
    match ← p.nodeAt imported fields address with
    | some target => bindAll p imported fields (model.bind link (.node target)) rest
    | none => bindAll p imported fields model rest

end Planting

/-- Makes the linked grammar of a document whose written fields are given. -/
def Document.link (document : Document) (fields : Fields) (imported : Imported) (model : Model) :
    Except Fault (Model × NodeId) := do
  let (p, id) := document.plant model (imported.map Prod.snd)
  let model ← p.bindAll imported fields p.model p.pending
  return (model, id)

end GrammarChart
