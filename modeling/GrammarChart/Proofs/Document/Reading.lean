import GrammarChart.Document.Reading
import GrammarChart.Proofs.Emissions

/-!
# Reading

What an object is read as, by what it says that it is. The fields that hold elements have to be
readable in turn; every other field has the value that is written, or its default.
-/

set_option autoImplicit false

namespace GrammarChart

namespace Element

variable {fields : Fields}

attribute [local simp] Element.ofJson Element.membersOfJson

/-- An object that says that it is a keyword is read as one. -/
theorem ofJson_keyword (kind : fields.getD "$type" .null = .str "Keyword") :
    Element.ofJson (.obj fields) =
      .ok (.keyword (fields.getD "value" (.str "")) (fields.getD "cardinality" .null)) := by
  simp [kind]

/-- An object that says that it is a rule call is read as one. -/
theorem ofJson_ruleCall (kind : fields.getD "$type" .null = .str "RuleCall")
    {rule : Option Reference} (read : Reference.ofJson (fields.getD "rule" .null) = .ok rule) :
    Element.ofJson (.obj fields) =
      .ok (.ruleCall (Reference.orMissing rule) (fields.getD "cardinality" .null)) := by
  rw [Element.ofJson, kind]
  change Reference.ofJson (fields.getD "rule" .null) >>= _ = _
  rw [read]
  rfl

/-- An object that says that it is a cross-reference and has no terminal is read as one. -/
theorem ofJson_crossReference_none
    (kind : fields.getD "$type" .null = .str "CrossReference")
    {type : Option Reference} (read : Reference.ofJson (fields.getD "type" .null) = .ok type)
    (absent : fields.get? "terminal" = none) :
    Element.ofJson (.obj fields) =
      .ok (.crossReference (Reference.orMissing type) none (fields.getD "cardinality" .null)) := by
  rw [Element.ofJson, kind]
  change Reference.ofJson (fields.getD "type" .null) >>= _ = _
  rw [read, ok_bind]
  split
  · rfl
  · next found =>
    rw [absent] at found
    cases found

/-- An object that says that it is a cross-reference and has a terminal is read as one. -/
theorem ofJson_crossReference_some
    (kind : fields.getD "$type" .null = .str "CrossReference")
    {type : Option Reference} (read : Reference.ofJson (fields.getD "type" .null) = .ok type)
    {value : Json} (given : fields.get? "terminal" = some value) (present : value.isPresent = true)
    {terminal : Element} (below : Element.ofJson value = .ok terminal) :
    Element.ofJson (.obj fields) = .ok (.crossReference (Reference.orMissing type) (some terminal)
      (fields.getD "cardinality" .null)) := by
  rw [Element.ofJson, kind]
  change Reference.ofJson (fields.getD "type" .null) >>= _ = _
  rw [read, ok_bind]
  split
  · next found =>
    rw [given] at found
    cases found
  · next found =>
    rw [given, Option.some.injEq] at found
    subst found
    rw [if_pos present, below]
    rfl

/-- An object that says that it is an assignment is read as one. -/
theorem ofJson_assignment (kind : fields.getD "$type" .null = .str "Assignment")
    {feature : Json} (named : fields.get? "feature" = some feature) {value : Json}
    (given : fields.get? "terminal" = some value) {terminal : Element}
    (below : Element.ofJson value = .ok terminal) :
    Element.ofJson (.obj fields) = .ok (.assignment feature (fields.getD "operator" (.str "="))
      terminal (fields.getD "cardinality" .null)) := by
  have required : fields.require "feature" = .ok feature := by rw [Fields.require, named]
  rw [Element.ofJson, kind]
  change fields.require "feature" >>= _ = _
  rw [required, ok_bind]
  split
  · next found =>
    rw [given] at found
    cases found
  · next found =>
    rw [given, Option.some.injEq] at found
    subst found
    rw [below]
    rfl

/-- An object that says that it is alternatives is read as the ones that it lists. -/
theorem ofJson_alternatives (kind : fields.getD "$type" .null = .str "Alternatives")
    {values : List Json} (given : fields.get? "elements" = some (.arr values))
    {elements : List Element} (below : Element.listOfJson values = .ok elements) :
    Element.ofJson (.obj fields) =
      .ok (.alternatives elements (fields.getD "cardinality" .null)) := by
  rw [Element.ofJson]
  simp only [kind]
  split
  · next found =>
    rw [given] at found
    cases found
  · next found =>
    rw [given, Option.some.injEq] at found
    subst found
    rw [Element.membersOfJson, below]
    rfl

/-- An object that says that it is a group is read as the elements that it lists. -/
theorem ofJson_group (kind : fields.getD "$type" .null = .str "Group")
    {values : List Json} (given : fields.get? "elements" = some (.arr values))
    {elements : List Element} (below : Element.listOfJson values = .ok elements) :
    Element.ofJson (.obj fields) = .ok (.group elements (fields.getD "cardinality" .null)) := by
  rw [Element.ofJson]
  simp only [kind]
  split
  · next found =>
    rw [given] at found
    cases found
  · next found =>
    rw [given, Option.some.injEq] at found
    subst found
    rw [Element.membersOfJson, below]
    rfl

/-- An object that says that it is an action is read as one. -/
theorem ofJson_action (kind : fields.getD "$type" .null = .str "Action")
    {type : Option Reference} (read : Reference.ofJson (fields.getD "type" .null) = .ok type) :
    Element.ofJson (.obj fields) = .ok (.action type (fields.inferredName "inferredType")
      (fields.getD "feature" .null) (fields.getD "operator" .null)
      (fields.getD "cardinality" .null)) := by
  rw [Element.ofJson, kind]
  change Reference.ofJson (fields.getD "type" .null) >>= _ = _
  rw [read]
  rfl

end Element

end GrammarChart
