import GrammarChart.Model.Basic

/-!
# Documents

A document is a grammar as it is written: its rules, declarations and diagnostics as trees, with
references that still are addresses. Linking it makes the nodes of a model out of it.
-/

set_option autoImplicit false

namespace GrammarChart

/-- A reference as written: the text that is shown for it, and the address that it is bound by,
unless it is missing altogether. -/
structure Reference where
  text : Json
  address : Option Json
  deriving Repr

/-- The reference of an element that names nothing. -/
def Reference.missing : Reference := ⟨.str "", none⟩

/-- An element of a rule body as written. -/
inductive Element where
  | keyword (value mark : Json)
  | ruleCall (rule : Reference) (mark : Json)
  | crossReference (type : Reference) (terminal : Option Element) (mark : Json)
  | assignment (feature operator : Json) (terminal : Element) (mark : Json)
  | alternatives (elements : List Element) (mark : Json)
  | group (elements : List Element) (mark : Json)
  | action (type : Option Reference) (inferredType feature operator mark : Json)
  deriving Repr, Inhabited

/-- A rule as written. -/
inductive Rule where
  | parser (name : Json) (definition : Option Element) (inferredType : Json)
      (entry fragment : Bool)
  | terminal (name regex : Json) (hidden fragment : Bool)
  deriving Repr, Inhabited

/-- An interface or a type as written. -/
structure Declaration where
  name : Json
  kind : Json
  deriving Repr, Inhabited

/-- A message that comes with a document. -/
structure Diagnostic where
  severity : Json
  message : Json
  deriving Repr

/-- A grammar as written, its imports apart. -/
structure Document where
  name : Json
  rules : List Rule
  interfaces : List Declaration
  types : List Declaration
  diagnostics : List Diagnostic
  deriving Repr

/-- A step from a value to a part of it. -/
inductive Step where
  | field (name : String)
  | item (index : Nat)
  deriving DecidableEq, Repr

/-- The way from a document to a part of it. -/
abbrev Position := List Step

end GrammarChart
