import GrammarChart.Fault

/-!
# Items

What stands in a place of a model: a value as it comes in a document, a node of the model, or a
list of such things. A loaded model has nodes in all places where nodes belong; a model that is
built by hand may have anything there, and whoever goes through it meets the fault that an item of
the wrong sort raises.
-/

set_option autoImplicit false

namespace GrammarChart

namespace Json

/-- The fields of an object; any other value has none to ask for. -/
def fields : Json → Except Fault Fields
  | .obj fields => .ok fields
  | _ => .error .noField

/-- The items of a value that can be gone through: a list has its items, an object the names of
its fields, and a text its characters. -/
def items : Json → Except Fault (List Json)
  | .arr items => .ok items
  | .obj fields => .ok (fields.map fun field => .str field.1)
  | .str text => .ok (text.toList.map fun c => .str c.toString)
  | _ => .error .wrongType

/-- What messages call a value. -/
def kindName : Json → String
  | .null => "NoneType"
  | .bool _ => "bool"
  | .int _ => "int"
  | .real _ => "float"
  | .str _ => "str"
  | .arr _ => "list"
  | .obj _ => "dict"

end Json

/-- The number of a node of a model. -/
structure NodeId where
  index : Nat
  deriving DecidableEq, Repr, Inhabited

/-- What stands in a place of a model. -/
inductive Item where
  | value (value : Json)
  | node (id : NodeId)
  | list (items : List Item)
  deriving Repr, Inhabited

namespace Item

/-- The item of a place in which nothing stands. -/
def nothing : Item := .value .null

/-- The item that denies. -/
def no : Item := .value (.bool false)

/-- The list of the given nodes. -/
def ofNodes (ids : List NodeId) : Item := .list (ids.map .node)

/-- Nothing stands in the place. -/
def isNothing : Item → Bool
  | .value .null => true
  | _ => false

/-- The node that stands in the place. -/
def node? : Item → Option NodeId
  | .node id => some id
  | _ => none

/-- The items of an item that can be gone through. -/
def items : Item → Except Fault (List Item)
  | .list members => .ok members
  | .value v => v.items.map (·.map .value)
  | .node _ => .error .wrongType

/-- A list of nodes is gone through node by node. -/
@[simp] theorem items_ofNodes (ids : List NodeId) : (ofNodes ids).items = .ok (ids.map .node) := rfl

/-- A node is something. -/
@[simp] theorem isNothing_node (id : NodeId) : (Item.node id).isNothing = false := rfl

/-- The value that stands in the place. -/
def value? : Item → Option Json
  | .value v => some v
  | _ => none

/-- The text that stands in the place. -/
def text? (item : Item) : Option String :=
  item.value?.bind Json.text?

/-- An item is present when its value is, and a list when it is not empty. -/
def isPresent : Item → Bool
  | .value v => v.isPresent
  | .node _ => true
  | .list members => !members.isEmpty

/-- The item, or the replacement when it is not present. -/
def orElse (item replacement : Item) : Item :=
  if item.isPresent then item else replacement

/-- The item is the given text. -/
def isText : Item → String → Bool
  | .value v, text => v.isText text
  | _, _ => false

/-- Equality of members of a set: values are compared as values, and a node equals only itself. -/
def sameAtom : Item → Item → Bool
  | .value v, .value w => v.sameAtom w
  | .node id, .node other => id == other
  | _, _ => false

mutual

/-- The quoted form of an item, with the given form for nodes. -/
def quotedWith (ofNode : NodeId → String) : Item → String
  | .value v => v.quoted
  | .node id => ofNode id
  | .list members => "[" ++ ", ".intercalate (quotedAllWith ofNode members) ++ "]"

/-- The quoted forms of the members of a list. -/
def quotedAllWith (ofNode : NodeId → String) : List Item → List String
  | [] => []
  | item :: rest => item.quotedWith ofNode :: quotedAllWith ofNode rest

end

/-- Two texts are the same atom exactly when they are equal. -/
@[simp] theorem sameAtom_str (s t : String) :
    (Item.value (.str s)).sameAtom (.value (.str t)) = (s == t) := rfl

end Item

/-- Parts of nodes by name. -/
abbrev Parts := List (String × Item)

/-- Puts a part in the place of the one of its name, or behind all others. -/
def Parts.insert : Parts → String → Item → Parts
  | [], name, item => [(name, item)]
  | (n, i) :: rest, name, item =>
    if n = name then (n, item) :: rest else (n, i) :: Parts.insert rest name item

end GrammarChart
