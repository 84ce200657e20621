import GrammarChart.Proofs.Document.Planting
import GrammarChart.Proofs.Document.Reading
import GrammarChart.Proofs.Document.References
import GrammarChart.Proofs.Endings
import GrammarChart.Proofs.Model.Inheritance

/-!
# Shapes of documents

A written document has its shape (`Fields.IsDocument`) when every object in it has the fields that
are read, with values of the kinds that are read: names are texts, lists are lists, and a reference
has an address that is a text. A `Form` says what is true of all addresses, and whether there may be
parts of unknown kinds. A document of this shape is read as trees whose names are texts
(`Document.IsTyped`); the only faults are those of the parts of unknown kinds
(`Document.ends_ofFields`). A value of another shape stops the reading with one of three faults, or
with one of a part of unknown kind (`Document.readsOn_ofFields`).
-/

set_option autoImplicit false

namespace GrammarChart

/-- What a document has to keep to: whether it may have parts of unknown kinds, and what is true of
all its addresses. -/
structure Form where
  lax : Prop
  refers : String → Prop

/-- The faults of reading a document of the form: those of parts of unknown kinds. -/
def Form.Refuses (form : Form) (fault : Fault) : Prop :=
  form.lax ∧ fault.isInputFault = true

namespace Json

/-- The value is a text. -/
def IsText (value : Json) : Prop := ∃ text, value = .str text

/-- The value is a text, or it counts as missing. -/
def IsTextIfPresent (value : Json) : Prop := value.isPresent = true → value.IsText

/-- The value is null, or an object with an address that is a text; a missing address is empty. -/
def IsReference (form : Form) (value : Json) : Prop :=
  value = .null ∨ ∃ fields : Fields, value = .obj fields ∧
    ∃ text, fields.getD "$ref" (.str "") = .str text ∧ form.refers text

/-- The kinds of elements. -/
def elementKinds : List String :=
  ["Keyword", "RuleCall", "CrossReference", "Assignment", "Alternatives", "Group",
    "UnorderedGroup", "Action"]

/-- The kinds of elements that have members. -/
def compoundKinds : List String := ["Alternatives", "Group", "UnorderedGroup"]

/-- The kinds of rules. -/
def ruleKinds : List String := ["TerminalRule", "ParserRule"]

/-- The value has the shape of an element. -/
inductive IsElement (form : Form) : Json → Prop where
  | keyword {fields : Fields} (kind : fields.getD "$type" .null = .str "Keyword") :
      IsElement form (.obj fields)
  | ruleCall {fields : Fields} (kind : fields.getD "$type" .null = .str "RuleCall")
      (rule : (fields.getD "rule" .null).IsReference form) : IsElement form (.obj fields)
  | crossReference {fields : Fields} (kind : fields.getD "$type" .null = .str "CrossReference")
      (type : (fields.getD "type" .null).IsReference form)
      (terminal : ∀ value, fields.get? "terminal" = some value → value.isPresent = true →
        IsElement form value) : IsElement form (.obj fields)
  | assignment {fields : Fields} (kind : fields.getD "$type" .null = .str "Assignment")
      {feature terminal : Json} (named : fields.get? "feature" = some feature)
      (given : fields.get? "terminal" = some terminal) (below : IsElement form terminal) :
      IsElement form (.obj fields)
  | compound {fields : Fields} {kind : String}
      (isCompound : kind ∈ compoundKinds)
      (kind : fields.getD "$type" .null = .str kind) {items : List Json}
      (listed : fields.getD "elements" (.arr []) = .arr items)
      (below : ∀ item ∈ items, IsElement form item) : IsElement form (.obj fields)
  | action {fields : Fields} (kind : fields.getD "$type" .null = .str "Action")
      (type : (fields.getD "type" .null).IsReference form)
      (made : (fields.inferredName "inferredType").IsTextIfPresent) : IsElement form (.obj fields)
  /-- A form that is lax allows elements of unknown kinds. -/
  | unknown (lax : form.lax) {fields : Fields}
      (kind : ∀ kind ∈ elementKinds, fields.getD "$type" .null ≠ .str kind) :
      IsElement form (.obj fields)

/-- The value has the shape of a rule. -/
inductive IsRule (form : Form) : Json → Prop where
  | parser {fields : Fields} (kind : fields.getD "$type" .null = .str "ParserRule") {name : String}
      (named : fields.get? "name" = some (.str name))
      (definition : (fields.getD "definition" .null).isPresent = true →
        (fields.getD "definition" .null).IsElement form) : IsRule form (.obj fields)
  | terminal {fields : Fields} (kind : fields.getD "$type" .null = .str "TerminalRule")
      {name : String} (named : fields.get? "name" = some (.str name))
      (definition : (fields.getD "definition" .null).isPresent = true →
        ∃ inner, fields.getD "definition" .null = .obj inner) : IsRule form (.obj fields)
  /-- A form that is lax allows rules of unknown kinds. -/
  | unknown (lax : form.lax) {fields : Fields}
      (kind : ∀ kind ∈ ruleKinds, fields.getD "$type" .null ≠ .str kind) :
      IsRule form (.obj fields)

/-- The value has the shape of a declaration. -/
def IsDeclaration (value : Json) : Prop :=
  ∃ (fields : Fields) (name : String), value = .obj fields ∧
    fields.get? "name" = some (.str name)

/-- The value has the shape of an import: an object with the path, or any other value, which is the
path itself. -/
def IsImport (value : Json) : Prop :=
  ∀ fields : Fields, value = .obj fields → (fields.getD "path" (.str "")).IsTextIfPresent

end Json

/-- The field has a list of values that are all good, unless it is missing. -/
def Fields.Lists (fields : Fields) (key : String) (good : Json → Prop) : Prop :=
  ∃ items, fields.getD key (.arr []) = .arr items ∧ ∀ item ∈ items, good item

/-- The fields have the shape of a document. -/
structure Fields.IsDocument (form : Form) (fields : Fields) : Prop where
  kind : form.lax ∨ fields.getD "$type" (.str "Grammar") = .str "Grammar"
  imports : fields.Lists "imports" Json.IsImport
  rules : fields.Lists "rules" (Json.IsRule form)
  interfaces : fields.Lists "interfaces" Json.IsDeclaration
  types : fields.Lists "types" Json.IsDeclaration
  diagnostics : fields.Lists "diagnostics" fun value => ∃ inner, value = .obj inner

/-- The value has the shape of a document. -/
def Json.IsDocument (form : Form) (value : Json) : Prop :=
  ∃ fields, value = .obj fields ∧ Fields.IsDocument form fields

/-- The address of the reference is a text of which something is true, unless it is missing. -/
def Reference.IsTyped (refers : String → Prop) (reference : Reference) : Prop :=
  ∀ address ∈ reference.address, ∃ text, address = .str text ∧ refers text

/-- The name of the type that an action makes by itself is a text, unless it counts as missing. -/
def Phrase.MakesText {ρ : Type} : Phrase Json ρ → Prop
  | .action _ inferredType _ _ _ => ∀ name ∈ inferredType, name.IsTextIfPresent
  | _ => True

/-- The addresses in an element are texts, and so are the names of the types that its actions make. -/
structure Element.IsTyped (refers : String → Prop) (element : Element) : Prop where
  references : ∀ reference ∈ element.references, reference.IsTyped refers
  made : ∀ b ∈ element.phrase.elements, b.MakesText

/-- The elements of the body of a rule, with all that is below them. -/
def Production.elements {φ ρ : Type} (rule : Production φ ρ) : List (Phrase φ ρ) :=
  rule.body?.toList.flatMap Phrase.elements

/-- The name and the addresses in a rule are texts, and so are the names of the types that its
actions make. -/
structure Rule.IsTyped (refers : String → Prop) (rule : Rule) : Prop where
  name : rule.production.name.IsText
  references : ∀ reference ∈ rule.references, reference.IsTyped refers
  made : ∀ b ∈ rule.production.elements, b.MakesText

/-- The rules of a document are typed, and the names of its declarations are texts. -/
structure Document.IsTyped (refers : String → Prop) (document : Document) : Prop where
  rules : ∀ rule ∈ document.rules, rule.IsTyped refers
  declarations : ∀ declaration ∈ document.interfaces ++ document.types, declaration.name.IsText

section Trees

variable {refers : String → Prop}

/-- A value that may be null is itself. -/
theorem Json.eq_of_mem_word? {value name : Json} (h : name ∈ value.word?) : name = value := by
  cases value with
  | null => cases h
  | _ => exact (Option.mem_some_iff.mp h).symm

/-- A reference that is missing is typed. -/
theorem Reference.isTyped_orMissing {reference : Option Reference}
    (h : ∀ r ∈ reference, r.IsTyped refers) : (Reference.orMissing reference).IsTyped refers := by
  cases reference with
  | none => exact fun address mem => absurd mem (by simp [orMissing, missing])
  | some r => exact h r rfl

/-- The references of elements are those of each of them. -/
theorem Element.allReferences_eq (elements : List Element) :
    Element.allReferences elements = elements.flatMap Element.references := by
  induction elements with
  | nil => rfl
  | cons element rest ih => rw [allReferences, ih, List.flatMap_cons]

/-- The trees of elements are the tree of each of them. -/
theorem Element.phrases_eq (elements : List Element) :
    Element.phrases elements = elements.map Element.phrase := by
  induction elements with
  | nil => rfl
  | cons element rest ih => rw [phrases, ih, List.map_cons]

/-- An element is typed when its own references are, the name of its type is a text if it is an
action, and the elements directly below it are typed. -/
theorem Element.isTyped_of_children {element : Element} (own : List Reference)
    (below : List Element) (references : element.references = own ++ below.flatMap references)
    (children : element.phrase.children = below.map phrase)
    (typed : ∀ reference ∈ own, reference.IsTyped refers) (makes : element.phrase.MakesText)
    (h : ∀ child ∈ below, child.IsTyped refers) : element.IsTyped refers := by
  refine ⟨fun reference mem => ?_, fun b mem => ?_⟩
  · rw [references] at mem
    rcases List.mem_append.mp mem with here | later
    · exact typed reference here
    · obtain ⟨child, inside, further⟩ := List.mem_flatMap.mp later
      exact (h child inside).references reference further
  · rw [Phrase.elements_eq, children] at mem
    rcases List.mem_cons.mp mem with rfl | later
    · exact makes
    · obtain ⟨tree, inside, further⟩ := List.mem_flatMap.mp later
      obtain ⟨child, isChild, rfl⟩ := List.mem_map.mp inside
      exact (h child isChild).made b further

end Trees

section Reading

variable {form : Form} {allowed : Fault → Prop}

/-- A value of the shape of a reference is read as one. -/
theorem Reference.ends_ofJson {value : Json} (h : value.IsReference form) :
    Ends allowed (fun reference => ∀ r ∈ reference, r.IsTyped form.refers)
      (Reference.ofJson value) := by
  rcases h with rfl | ⟨fields, rfl, text, written, good⟩
  · exact .ok (by simp)
  · have typed : ∀ shown : Json, ∀ r ∈ some (⟨shown, some (.str text)⟩ : Reference),
        r.IsTyped form.refers := by
      rintro shown r same address mem
      cases same
      exact ⟨text, (Option.mem_some_iff.mp mem).symm, good⟩
    unfold Reference.ofJson
    simp only [Json.fields, ok_bind, written]
    split
    · exact .ok (typed _)
    · exact .ok (typed _)

/-- Elements that are all read well are read well in a row. -/
theorem Element.ends_listOfJson {good : Element → Prop} {items : List Json}
    (h : ∀ item ∈ items, Ends allowed good (Element.ofJson item)) :
    Ends allowed (fun elements => ∀ e ∈ elements, good e) (Element.listOfJson items) := by
  induction items with
  | nil =>
    rw [Element.listOfJson]
    exact .ok (by simp)
  | cons item rest ih =>
    rw [List.forall_mem_cons] at h
    rw [Element.listOfJson]
    refine h.1.bind fun e isGood => (ih h.2).bind fun es areGood => .ok ?_
    exact List.forall_mem_cons.mpr ⟨isGood, areGood⟩

/-- An object that says that it is a group or alternatives is read as one of the members that it
lists, if it lists any. -/
theorem Element.exists_ofJson_compound {fields : Fields} {kind : String}
    (isCompound : kind ∈ Json.compoundKinds) (isKind : fields.getD "$type" .null = .str kind) :
    ∃ make : List Element → Element,
      (∀ elements, (make elements).references = elements.flatMap references ∧
        (make elements).phrase.children = elements.map phrase ∧
        (make elements).phrase.MakesText) ∧
      Element.ofJson (.obj fields) = (fields.get? "elements").elim (.ok (make []))
        fun value => (Element.membersOfJson value).map make := by
  have listed : ∀ elements : List Element, Element.allReferences elements =
      elements.flatMap references ∧ Element.phrases elements = elements.map phrase ∧ True :=
    fun elements => ⟨allReferences_eq elements, phrases_eq elements, trivial⟩
  simp only [Json.compoundKinds, List.mem_cons, List.not_mem_nil, or_false] at isCompound
  rw [Element.ofJson]
  rcases isCompound with rfl | rfl | rfl
  · refine ⟨(.alternatives · (fields.getD "cardinality" .null)), listed, ?_⟩
    simp only [isKind]
    split <;> next given => rw [given]; rfl
  all_goals
    refine ⟨(.group · (fields.getD "cardinality" .null)), listed, ?_⟩
    simp only [isKind]
    split <;> next given => rw [given]; rfl

/-- A value of the shape of an element is read as a typed one. -/
theorem Element.ends_ofJson {value : Json} (h : value.IsElement form) :
    Ends form.Refuses (Element.IsTyped form.refers) (Element.ofJson value) := by
  induction h with
  | @keyword fields kind =>
    rw [Element.ofJson_keyword kind]
    exact .ok (isTyped_of_children [] [] rfl rfl (by simp) trivial (by simp))
  | @ruleCall fields kind rule =>
    rw [Element.ofJson]
    simp only [kind]
    refine (Reference.ends_ofJson rule).bind fun reference typed => .ok ?_
    refine isTyped_of_children [.orMissing reference] [] rfl rfl ?_ trivial
      (by simp)
    exact List.forall_mem_singleton.mpr (Reference.isTyped_orMissing typed)
  | @crossReference fields kind type terminal ih =>
    rw [Element.ofJson]
    simp only [kind]
    refine (Reference.ends_ofJson type).bind fun reference typed => ?_
    have own : ∀ r ∈ [Reference.orMissing reference], r.IsTyped form.refers :=
      List.forall_mem_singleton.mpr (Reference.isTyped_orMissing typed)
    split
    · exact .ok (isTyped_of_children _ [] rfl rfl own trivial (by simp))
    · next value given =>
      split
      · next present =>
        refine (ih value given present).bind fun below isTyped => .ok ?_
        refine isTyped_of_children [.orMissing reference] [below] ?_ rfl own
          trivial (List.forall_mem_singleton.mpr isTyped)
        simp [Element.references]
      · exact .ok (isTyped_of_children _ [] rfl rfl own trivial (by simp))
  | @assignment fields kind feature terminal named given below ih =>
    rw [Element.ofJson]
    simp only [kind, Fields.require, named, ok_bind]
    split
    · next absent =>
      rw [absent] at given
      cases given
    · next value found =>
      rw [given, Option.some.injEq] at found
      subst found
      refine ih.bind fun below isTyped => .ok ?_
      refine isTyped_of_children [] [below] ?_ rfl (by simp) trivial
        (List.forall_mem_singleton.mpr isTyped)
      simp [Element.references]
  | @compound fields kind isCompound isKind items listed below ih =>
    obtain ⟨make, made, read⟩ := Element.exists_ofJson_compound isCompound isKind
    have typed : ∀ elements : List Element, (∀ e ∈ elements, e.IsTyped form.refers) →
        (make elements).IsTyped form.refers := by
      intro elements each
      obtain ⟨references, children, makes⟩ := made elements
      exact isTyped_of_children [] _ references children (by simp) makes each
    rw [read]
    unfold Fields.getD at listed
    cases given : fields.get? "elements" with
    | none => exact .ok (typed [] (by simp))
    | some value =>
      rw [given] at listed
      obtain rfl : value = .arr items := listed
      rw [Option.elim_some, Element.membersOfJson]
      exact (Element.ends_listOfJson ih).map typed
  | @action fields kind type made =>
    rw [Element.ofJson]
    simp only [kind]
    refine (Reference.ends_ofJson type).bind fun reference typed => .ok ?_
    refine isTyped_of_children reference.toList [] ?_ rfl ?_ ?_ (by simp)
    · simp [Element.references]
    · exact fun r mem => typed r (Option.mem_toList.mp mem)
    · exact fun name mem => Json.eq_of_mem_word? mem ▸ made
  | @unknown lax fields kind =>
    simp only [Json.elementKinds, List.forall_mem_cons] at kind
    obtain ⟨keyword, ruleCall, crossReference, assignment, alternatives, group, unordered, action,
      -⟩ := kind
    rw [Element.ofJson]
    split
    all_goals first
      | contradiction
      | exact .fault ⟨lax, rfl⟩

/-- A value of the shape of a rule is read as a typed one. -/
theorem Rule.ends_ofJson {value : Json} (h : value.IsRule form) :
    Ends form.Refuses (Rule.IsTyped form.refers) (Rule.ofJson value) := by
  cases h with
  | @parser fields kind name named definition =>
    rw [Rule.ofJson]
    simp only [Json.fields, ok_bind, kind, Fields.require, named]
    split
    · next present =>
      have read : Ends form.Refuses
          (fun body => ∃ element : Element, body = some element ∧ element.IsTyped form.refers)
          ((Element.ofJson (fields.getD "definition" .null)).map some) :=
        (Element.ends_ofJson (definition present)).map fun element typed => ⟨element, rfl, typed⟩
      refine read.bind ?_
      rintro _ ⟨element, rfl, typed⟩
      refine .ok ⟨⟨name, rfl⟩, typed.references, ?_⟩
      simpa [Production.elements, Rule.production, Production.body?] using typed.made
    · exact .ok ⟨⟨name, rfl⟩, by simp [Rule.references],
        by simp [Production.elements, Rule.production, Production.body?]⟩
  | @terminal fields kind name named definition =>
    rw [Rule.ofJson]
    simp only [Json.fields, ok_bind, kind, Fields.require, named]
    have object : ∃ inner,
        (fields.getD "definition" .null).orElse (.obj []) = .obj inner := by
      unfold Json.orElse
      split
      · next present => exact definition present
      · exact ⟨[], rfl⟩
    obtain ⟨inner, isObject⟩ := object
    simp only [isObject]
    exact .ok ⟨⟨name, rfl⟩, by simp [Rule.references],
      by simp [Production.elements, Rule.production, Production.body?]⟩
  | @unknown lax fields kind =>
    simp only [Json.ruleKinds, List.forall_mem_cons] at kind
    obtain ⟨terminal, parser, -⟩ := kind
    rw [Rule.ofJson]
    simp only [Json.fields, ok_bind]
    exact .fault ⟨lax, rfl⟩

/-- A value of the shape of a declaration is read as one whose name is a text. -/
theorem Declaration.ends_ofJson {value : Json} (h : value.IsDeclaration) :
    Ends allowed (fun declaration => declaration.name.IsText) (Declaration.ofJson value) := by
  obtain ⟨fields, name, rfl, named⟩ := h
  simp only [Declaration.ofJson, Fields.require, named, ok_bind]
  exact .ok ⟨name, rfl⟩

namespace Document

variable {fields : Fields}

/-- A list of values that are all read well is read well. -/
theorem ends_itemsOf {α : Type} {key : String} {shape : Json → Prop} {good : α → Prop}
    {read : Json → Except Fault α} (listed : fields.Lists key shape)
    (h : ∀ item, shape item → Ends allowed good (read item)) :
    Ends allowed (fun items => Ends allowed (fun as => ∀ a ∈ as, good a) (items.mapM read))
      (itemsOf fields key) := by
  obtain ⟨items, given, each⟩ := listed
  rw [itemsOf, given]
  exact .ok (Ends.mapM fun item mem => h item (each item mem))

/-- A value of the shape of a document has fields of that shape, unless it says that it is something
else. -/
theorem ends_fieldsOf {value : Json} (h : value.IsDocument form) :
    Ends form.Refuses (Fields.IsDocument form) (fieldsOf value) := by
  obtain ⟨fields, rfl, isDocument⟩ := h
  rw [fieldsOf]
  simp only [Json.fields, ok_bind]
  split
  · exact .ok isDocument
  · exact .ok isDocument
  · next kind other given =>
    rcases isDocument.kind with lax | isGrammar
    · exact .fault ⟨lax, rfl⟩
    · rw [Fields.getD, given] at isGrammar
      exact absurd (congrArg some isGrammar) (by simpa using other)

/-- The paths that a document imports are texts, unless they count as missing. -/
theorem ends_importPaths (h : Fields.IsDocument form fields) :
    Ends allowed (fun paths => ∀ path ∈ paths, path.IsTextIfPresent) (importPaths fields) := by
  obtain ⟨entries, given, each⟩ := h.imports
  rw [importPaths, itemsOf, given]
  refine .ok fun path mem => ?_
  obtain ⟨entry, inside, rfl⟩ := List.mem_map.mp mem
  split
  · next inner => exact each _ inside inner rfl
  · exact fun _ => ⟨_, rfl⟩

/-- Fields of the shape of a document are read as a typed one. -/
theorem ends_ofFields (h : Fields.IsDocument form fields) :
    Ends form.Refuses (Document.IsTyped form.refers) (ofFields fields) := by
  refine (ends_itemsOf h.rules fun _ => Rule.ends_ofJson).bind fun _ read => ?_
  refine read.bind fun rules typed => ?_
  refine (ends_itemsOf h.interfaces fun _ => Declaration.ends_ofJson).bind fun _ readInterfaces => ?_
  refine (ends_itemsOf h.types fun _ => Declaration.ends_ofJson).bind fun _ readTypes => ?_
  refine readInterfaces.bind fun interfaces named => readTypes.bind fun types named' => ?_
  have message : ∀ value : Json, (∃ inner, value = .obj inner) →
      Ends form.Refuses (fun _ => True) (Diagnostic.ofJson value) := by
    rintro _ ⟨inner, rfl⟩
    exact .ok trivial
  refine (ends_itemsOf h.diagnostics message).bind fun _ readDiagnostics => ?_
  refine readDiagnostics.bind fun diagnostics _ => .ok ⟨typed, ?_⟩
  exact fun d mem => (List.mem_append.mp mem).elim (named d) (named' d)

end Document

end Reading

/-- The fault is that of a value of the wrong shape. -/
def Fault.isShapeFault : Fault → Bool
  | .noField | .wrongType | .missingKey _ => true
  | _ => false

/-- The fault is that of a value of the wrong shape, or one of the input. -/
def Fault.IsOfReading (fault : Fault) : Prop :=
  fault.isShapeFault = true ∨ fault.isInputFault = true

/-- Whatever is read, only values of the wrong shape and the input itself stop the reading. -/
abbrev ReadsOn {α : Type} (read : Except Fault α) : Prop :=
  Ends Fault.IsOfReading (fun _ => True) read

section Faults

theorem Json.readsOn_fields (value : Json) : ReadsOn value.fields := by
  cases value <;> first | exact .ok trivial | exact .fault (.inl rfl)

theorem Json.readsOn_items (value : Json) : ReadsOn value.items := by
  cases value <;> first | exact .ok trivial | exact .fault (.inl rfl)

theorem Fields.readsOn_require (fields : Fields) (key : String) : ReadsOn (fields.require key) := by
  unfold Fields.require
  split
  · exact .ok trivial
  · exact .fault (.inl rfl)

theorem Reference.readsOn_ofJson (value : Json) : ReadsOn (Reference.ofJson value) := by
  unfold Reference.ofJson
  split
  · exact .ok trivial
  · refine value.readsOn_fields.bind fun fields _ => ?_
    dsimp only
    split
    · exact .ok trivial
    · split
      · exact .ok trivial
      · exact .fault (.inl rfl)

/-- What is read well and then only put together is read well. -/
theorem Ends.readsOn_map {α β : Type} {read : Except Fault α} (h : ReadsOn read) (f : α → β) :
    ReadsOn (read >>= fun a => pure (f a)) :=
  h.bind fun _ _ => .ok trivial

mutual

/-- Reading an element. -/
theorem Element.readsOn_ofJson (value : Json) : ReadsOn (Element.ofJson value) := by
  match value with
  | .obj fields =>
    rw [Element.ofJson]
    split
    · exact .ok trivial
    · exact (Reference.readsOn_ofJson _).readsOn_map _
    · refine (Reference.readsOn_ofJson _).bind fun type _ => ?_
      split
      · exact .ok trivial
      · next terminal given =>
        split
        · exact (Element.readsOn_ofJson terminal).readsOn_map _
        · exact .ok trivial
    · refine (Fields.readsOn_require _ _).bind fun feature _ => ?_
      split
      · exact .fault (.inl rfl)
      · next terminal given => exact (Element.readsOn_ofJson terminal).readsOn_map _
    · split
      · exact .ok trivial
      · next elements given => exact (Element.readsOn_membersOfJson elements).readsOn_map _
    · split
      · exact .ok trivial
      · next elements given => exact (Element.readsOn_membersOfJson elements).readsOn_map _
    · split
      · exact .ok trivial
      · next elements given => exact (Element.readsOn_membersOfJson elements).readsOn_map _
    · exact (Reference.readsOn_ofJson _).readsOn_map _
    · exact .fault (.inr rfl)
  | .null | .bool _ | .int _ | .real _ | .str _ | .arr _ =>
    rw [Element.ofJson]
    · exact .fault (.inl rfl)
    · nofun
termination_by sizeOf value
decreasing_by
  all_goals exact sizeOf_field_lt (by assumption)

/-- Reading the members of a group. -/
theorem Element.readsOn_membersOfJson (value : Json) : ReadsOn (Element.membersOfJson value) := by
  match value with
  | .arr items =>
    rw [Element.membersOfJson]
    exact Element.readsOn_listOfJson items
  | .null | .bool _ | .int _ | .real _ | .str _ | .obj _ =>
    rw [Element.membersOfJson]
    · refine (Json.readsOn_items _).bind fun items _ => ?_
      split
      · exact .ok trivial
      · exact .fault (.inl rfl)
    · nofun
termination_by sizeOf value
decreasing_by
  simp only [Json.arr.sizeOf_spec]; omega

/-- Reading elements in order. -/
theorem Element.readsOn_listOfJson (values : List Json) : ReadsOn (Element.listOfJson values) := by
  match values with
  | [] =>
    rw [Element.listOfJson]
    exact .ok trivial
  | value :: rest =>
    rw [Element.listOfJson]
    exact (Element.readsOn_ofJson value).bind fun _ _ =>
      (Element.readsOn_listOfJson rest).readsOn_map _
termination_by sizeOf values
decreasing_by
  all_goals simp only [List.cons.sizeOf_spec]; omega

end

theorem Rule.readsOn_ofJson (value : Json) : ReadsOn (Rule.ofJson value) := by
  unfold Rule.ofJson
  refine value.readsOn_fields.bind fun fields _ => ?_
  split
  · exact (Fields.readsOn_require _ _).bind fun _ _ => (Json.readsOn_fields _).readsOn_map _
  · refine (Fields.readsOn_require _ _).bind fun name _ => ?_
    split
    · have read : ReadsOn ((Element.ofJson (fields.getD "definition" .null)).map some) :=
        (Element.readsOn_ofJson _).map fun _ _ => trivial
      exact read.readsOn_map _
    · exact .ok trivial
  · exact .fault (.inr rfl)

theorem Declaration.readsOn_ofJson (value : Json) : ReadsOn (Declaration.ofJson value) := by
  unfold Declaration.ofJson
  split
  · exact (Fields.readsOn_require _ _).readsOn_map _
  · exact .fault (.inl rfl)

namespace Document

end Document
end Faults
end GrammarChart
