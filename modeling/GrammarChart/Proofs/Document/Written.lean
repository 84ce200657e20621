import GrammarChart.Proofs.Document.Addresses
import GrammarChart.Proofs.Document.Planting
import GrammarChart.Proofs.Document.Reading
import GrammarChart.Proofs.Document.References

/-!
# Written grammars

A grammar as a tree of its own (`Ast`), and the value that is written for it (`Ast.json`): every
node is an object that says what it is, and a reference is the path to what it leads to, beside its
text. Reading the value gives the document of the grammar (`Ast.exists_ofFields`).
-/

set_option autoImplicit false

namespace GrammarChart

/-- A reference in a grammar: its text, and the path to what it leads to. -/
structure Mention where
  text : String
  path : List Hop
  named : text ≠ ""

namespace Fields

/-- A field with a value that may be missing. -/
def optional (key : String) (value : Option Json) : Fields :=
  (value.map fun value => (key, value)).toList

/-- A field with a word that may be missing. -/
def word (key : String) (word : Option String) : Fields :=
  optional key (word.map Json.str)

/-- A value is found in the first fields or else in the further ones. -/
theorem get?_append (fields more : Fields) (key : String) :
    Fields.get? (fields ++ more) key = (fields.get? key).or (more.get? key) := by
  induction fields with
  | nil => rfl
  | cons field rest ih =>
    obtain ⟨k, v⟩ := field
    rw [List.cons_append, get?, get?, ih]
    split <;> rfl

/-- A value is found in its field. -/
theorem get?_optional (key other : String) (value : Option Json) :
    (optional key value).get? other = if key = other then value else none := by
  cases value with
  | none => simp [optional, get?]
  | some value => simp [optional, get?]

/-- A word is found in its field. -/
theorem get?_word (key other : String) (w : Option String) :
    (word key w).get? other = if key = other then w.map Json.str else none :=
  get?_optional key other (w.map Json.str)

end Fields

/-- A word that may be missing as a value. -/
def Json.ofWord (word : Option String) : Json :=
  (word.map Json.str).getD .null

/-- A word that is written last is the value of its field. -/
theorem Fields.getD_append_word {fields : Fields} {key : String} (absent : fields.get? key = none)
    (w : Option String) : Fields.getD (fields ++ word key w) key .null = .ofWord w := by
  rw [getD, get?_append, absent, Option.none_or, get?_word, if_pos rfl, Json.ofWord]

/-- A field that is found first has its value, whatever is written after it. -/
theorem Fields.get?_append_of_some {fields more : Fields} {key : String} {value : Json}
    (found : fields.get? key = some value) : Fields.get? (fields ++ more) key = some value := by
  rw [get?_append, found, Option.some_or]

namespace Mention

/-- A reference as it is written. -/
def json (mention : Mention) : Json :=
  .obj [("$ref", .str (insideAddress mention.path)), ("$refText", .str mention.text)]

/-- The reference that is read. -/
def reference (mention : Mention) : Reference :=
  ⟨.str mention.text, some (.str (insideAddress mention.path))⟩

/-- A reference is read back. -/
theorem ofJson_json (mention : Mention) :
    Reference.ofJson mention.json = .ok (some mention.reference) := by
  have present : (Json.str mention.text).isPresent = true := by
    simpa [Json.isPresent] using mention.named
  simp [Reference.ofJson, json, Json.fields, Fields.getD, Fields.get?, present, reference]
  rfl

end Mention

namespace Phrase

/-- The element has terminals where it needs them, and is of a known kind, and so is everything
below it. -/
def isWhole : Phrase String Mention → Bool
  | .assignment _ _ none _ => false
  | .assignment _ _ (some terminal) _ => terminal.isWhole
  | .crossReference _ (some terminal) _ => terminal.isWhole
  | .alternatives elements _ => areWhole elements
  | .group elements _ => areWhole elements
  | .unknown _ _ => false
  | _ => true
where
  /-- All of the elements are. -/
  areWhole : List (Phrase String Mention) → Bool
    | [] => true
    | b :: rest => b.isWhole && areWhole rest

mutual

/-- The fields of the object that is written for an element. -/
def fields : Phrase String Mention → Fields
  | .keyword value mark =>
    [("$type", .str "Keyword"), ("value", .str value)] ++ Fields.word "cardinality" mark
  | .ruleCall rule mark =>
    [("$type", .str "RuleCall"), ("rule", rule.json)] ++ Fields.word "cardinality" mark
  | .crossReference type none mark =>
    [("$type", .str "CrossReference"), ("type", type.json)] ++ Fields.word "cardinality" mark
  | .crossReference type (some terminal) mark =>
    [("$type", .str "CrossReference"), ("type", type.json), ("terminal", .obj terminal.fields)] ++
      Fields.word "cardinality" mark
  | .assignment feature operator none mark =>
    [("$type", .str "Assignment"), ("feature", .str feature), ("operator", .str operator)] ++
      Fields.word "cardinality" mark
  | .assignment feature operator (some terminal) mark =>
    [("$type", .str "Assignment"), ("feature", .str feature), ("operator", .str operator),
      ("terminal", .obj terminal.fields)] ++ Fields.word "cardinality" mark
  | .alternatives elements mark =>
    [("$type", .str "Alternatives"), ("elements", .arr (jsons elements))] ++
      Fields.word "cardinality" mark
  | .group elements mark =>
    [("$type", .str "Group"), ("elements", .arr (jsons elements))] ++
      Fields.word "cardinality" mark
  | .action type inferredType feature operator mark =>
    [("$type", .str "Action")] ++ Fields.optional "type" (type.map Mention.json) ++
      Fields.word "inferredType" inferredType ++ Fields.word "feature" feature ++
      Fields.word "operator" operator ++ Fields.word "cardinality" mark
  | .unknown kind mark => [("$type", .str kind)] ++ Fields.word "cardinality" mark

/-- The values that are written for elements. -/
def jsons : List (Phrase String Mention) → List Json
  | [] => []
  | b :: rest => .obj b.fields :: jsons rest

end

/-- The value that is written for an element. -/
def json (b : Phrase String Mention) : Json := .obj b.fields

/-- What is directly below a whole element is whole. -/
theorem isWhole_of_mem_children {b c : Phrase String Mention} (whole : b.isWhole = true)
    (mem : c ∈ b.children) : c.isWhole = true := by
  have each : ∀ phrases : List (Phrase String Mention), isWhole.areWhole phrases = true →
      ∀ c ∈ phrases, c.isWhole = true := by
    intro phrases
    induction phrases with
    | nil => exact fun _ c mem => absurd mem List.not_mem_nil
    | cons b rest ih =>
      intro all c mem
      rw [isWhole.areWhole, Bool.and_eq_true] at all
      rcases List.mem_cons.mp mem with rfl | later
      · exact all.1
      · exact ih all.2 c later
  cases b with
  | assignment feature operator terminal mark =>
    cases terminal with
    | none => exact absurd mem List.not_mem_nil
    | some terminal =>
      rw [isWhole] at whole
      exact List.mem_singleton.mp mem ▸ whole
  | crossReference type terminal mark =>
    cases terminal with
    | none => exact absurd mem List.not_mem_nil
    | some terminal =>
      rw [isWhole] at whole
      exact List.mem_singleton.mp mem ▸ whole
  | alternatives elements mark =>
    rw [isWhole] at whole
    exact each elements whole c mem
  | group elements mark =>
    rw [isWhole] at whole
    exact each elements whole c mem
  | _ => exact absurd mem List.not_mem_nil

mutual

/-- The references of an element in order. -/
def mentions : Phrase String Mention → List Mention
  | .ruleCall rule _ => [rule]
  | .crossReference type none _ => [type]
  | .crossReference type (some terminal) _ => type :: terminal.mentions
  | .assignment _ _ (some terminal) _ => terminal.mentions
  | .alternatives elements _ => allMentions elements
  | .group elements _ => allMentions elements
  | .action type _ _ _ _ => type.toList
  | _ => []

/-- The references of elements in order. -/
def allMentions : List (Phrase String Mention) → List Mention
  | [] => []
  | b :: rest => b.mentions ++ allMentions rest

end

end Phrase

/-- What stands for a grammar as it was read stands for the grammar. -/
structure Interpretation.Renders (I : Interpretation Json Reference)
    (J : Interpretation String Mention) : Prop where
  word : ∀ word, J.word word = I.word (.str word)
  leads : ∀ m place mention, I.leads m place (Mention.reference mention) → J.leads m place mention

/-- A word stands as it was read. -/
theorem Interpretation.Renders.item {I : Interpretation Json Reference}
    {J : Interpretation String Mention} (h : I.Renders J) (word : String) :
    I.item (.str word) = J.item word :=
  congrArg Item.value (h.word word).symm

/-- A word that may be missing stands as it was read. -/
theorem Interpretation.Renders.item? {I : Interpretation Json Reference}
    {J : Interpretation String Mention} (h : I.Renders J) (word : Option String) :
    I.item? (Json.ofWord word).word? = J.item? word := by
  cases word with
  | none => rfl
  | some word => exact h.item word

namespace Phrase

/-- The element is what is read from the value of the tree: it has the same references, and stands
where the tree stands. -/
structure IsReadAs (b : Phrase String Mention) (e : Element) : Prop where
  read : Element.ofJson b.json = .ok e
  references : e.references = b.mentions.map Mention.reference
  stands : ∀ {I : Interpretation Json Reference} {J : Interpretation String Mention} {m : Model}
    {id : NodeId}, I.Renders J → e.phrase.StandsAt I m id → b.StandsAt J m id

/-- The value of a tree says what it is. -/
theorem isPresent_json (b : Phrase String Mention) : b.json.isPresent = true := by
  cases b with
  | crossReference type terminal mark => cases terminal <;> rfl
  | assignment feature operator terminal mark => cases terminal <;> rfl
  | _ => rfl

/-- Elements are read from the values of trees in order. -/
theorem listOfJson_jsons {phrases : List (Phrase String Mention)}
    (each : ∀ b ∈ phrases, ∃ e, b.IsReadAs e) :
    ∃ es, Element.listOfJson (jsons phrases) = .ok es ∧
      Element.allReferences es = (allMentions phrases).map Mention.reference ∧
      ∀ {I : Interpretation Json Reference} {J : Interpretation String Mention} {m : Model}
        {ids : List NodeId}, I.Renders J → Phrase.StandAt I m (Element.phrases es) ids →
        Phrase.StandAt J m phrases ids := by
  induction phrases with
  | nil => exact ⟨[], by rw [jsons, Element.listOfJson], rfl, fun _ stand => stand⟩
  | cons b rest ih =>
    obtain ⟨e, isRead⟩ := each b List.mem_cons_self
    obtain ⟨es, read, references, stand⟩ := ih fun c mem => each c (List.mem_cons_of_mem _ mem)
    refine ⟨e :: es, ?_, ?_, ?_⟩
    · have head : Element.ofJson (.obj b.fields) = .ok e := isRead.read
      rw [jsons, Element.listOfJson, head, ok_bind, read, ok_bind]
      rfl
    · rw [Element.allReferences, allMentions, List.map_append, isRead.references, references]
    · rintro I J m ids renders ⟨id, others, rfl, head, tail⟩
      exact ⟨id, others, rfl, isRead.stands renders head, stand renders tail⟩

/-- What is found in the fields that are written for an action. -/
theorem getD_fields_action (type : Option Mention)
    (inferredType feature operator mark : Option String) :
    Fields.getD (fields (.action type inferredType feature operator mark)) "$type" .null =
      .str "Action" ∧
    Reference.ofJson (Fields.getD (fields (.action type inferredType feature operator mark)) "type"
      .null) = .ok (type.map Mention.reference) ∧
    Fields.inferredName (fields (.action type inferredType feature operator mark)) "inferredType" =
      .ofWord inferredType ∧
    Fields.getD (fields (.action type inferredType feature operator mark)) "feature" .null =
      .ofWord feature ∧
    Fields.getD (fields (.action type inferredType feature operator mark)) "operator" .null =
      .ofWord operator ∧
    Fields.getD (fields (.action type inferredType feature operator mark)) "cardinality" .null =
      .ofWord mark := by
  have found : ∀ key, Fields.get? (fields (.action type inferredType feature operator mark)) key =
      (((((if "$type" = key then some (.str "Action") else none).or
        (if "type" = key then type.map Mention.json else none)).or
        (if "inferredType" = key then inferredType.map Json.str else none)).or
        (if "feature" = key then feature.map Json.str else none)).or
        (if "operator" = key then operator.map Json.str else none)).or
        (if "cardinality" = key then mark.map Json.str else none) := by
    intro key
    rw [fields]
    simp only [Fields.get?_append, Fields.get?_word, Fields.get?_optional, Fields.get?]
  refine ⟨?_, ?_, ?_, ?_, ?_, ?_⟩
  · rw [Fields.getD, found]
    rfl
  · rw [Fields.getD, found]
    cases type with
    | none => rfl
    | some type => exact type.ofJson_json
  · rw [Fields.inferredName, Fields.getD, found]
    cases inferredType <;> rfl
  · rw [Fields.getD, found]
    cases feature <;> rfl
  · rw [Fields.getD, found]
    cases operator <;> rfl
  · rw [Fields.getD, found]
    rfl

/-- A whole tree is read back. -/
theorem exists_isReadAs (b : Phrase String Mention) (whole : b.isWhole = true) :
    ∃ e, b.IsReadAs e := by
  induction b using Phrase.induct with
  | step b ih =>
    have below : ∀ c ∈ b.children, ∃ e, c.IsReadAs e := fun c mem =>
      ih c mem (isWhole_of_mem_children whole mem)
    cases b with
    | keyword value mark =>
      refine ⟨.keyword (.str value) (.ofWord mark), ?_, rfl, fun renders stands => ?_⟩
      · rw [json, fields, Element.ofJson_keyword rfl, Fields.getD_append_word rfl]
        rfl
      · simp only [Element.phrase, StandsAt, renders.item, renders.item?] at stands ⊢
        exact stands
    | ruleCall rule mark =>
      refine ⟨.ruleCall rule.reference (.ofWord mark), ?_, rfl, fun renders stands => ?_⟩
      · rw [json, fields]
        refine Eq.trans (Element.ofJson_ruleCall rfl rule.ofJson_json) ?_
        rw [Fields.getD_append_word rfl]
        rfl
      · obtain ⟨link, leads, here⟩ := stands
        exact ⟨link, renders.leads _ _ _ leads, renders.item? mark ▸ here⟩
    | crossReference type terminal mark =>
      cases terminal with
      | none =>
        refine ⟨.crossReference type.reference none (.ofWord mark), ?_, rfl,
          fun renders stands => ?_⟩
        · have absent :
              Fields.get? (fields (.crossReference type none mark)) "terminal" = none := by
            rw [fields, Fields.get?_append, Fields.get?_word]
            rfl
          rw [json]
          refine Eq.trans (Element.ofJson_crossReference_none rfl type.ofJson_json absent) ?_
          rw [fields, Fields.getD_append_word rfl]
          rfl
        · obtain ⟨link, place, leads, nothing, here⟩ := stands
          exact ⟨link, place, renders.leads _ _ _ leads, nothing, renders.item? mark ▸ here⟩
      | some terminal =>
        obtain ⟨e, isRead⟩ := below terminal (List.mem_singleton.mpr rfl)
        refine ⟨.crossReference type.reference (some e) (.ofWord mark), ?_, ?_,
          fun renders stands => ?_⟩
        · have written : Reference.ofJson (Fields.getD
              (fields (.crossReference type (some terminal) mark)) "type" .null) =
              .ok (some type.reference) := by
            rw [fields]
            exact type.ofJson_json
          have given : Fields.get? (fields (.crossReference type (some terminal) mark))
              "terminal" = some terminal.json := by
            rw [fields]
            exact Fields.get?_append_of_some rfl
          have kind : Fields.getD (fields (.crossReference type (some terminal) mark)) "$type"
              .null = .str "CrossReference" := by
            rw [fields]
            rfl
          rw [json, Element.ofJson_crossReference_some kind written given terminal.isPresent_json
            isRead.read, fields, Fields.getD_append_word rfl]
          rfl
        · exact congrArg (type.reference :: ·) isRead.references
        · obtain ⟨link, place, leads, ⟨id, inPlace, standing⟩, here⟩ := stands
          exact ⟨link, place, renders.leads _ _ _ leads,
            ⟨id, inPlace, isRead.stands renders standing⟩, renders.item? mark ▸ here⟩
    | assignment feature operator terminal mark =>
      cases terminal with
      | none => cases whole
      | some terminal =>
        obtain ⟨e, isRead⟩ := below terminal (List.mem_singleton.mpr rfl)
        refine ⟨.assignment (.str feature) (.str operator) e (.ofWord mark), ?_, ?_,
          fun renders stands => ?_⟩
        · rw [json, fields, Element.ofJson_assignment rfl (Fields.get?_append_of_some rfl)
            (Fields.get?_append_of_some rfl) isRead.read, Fields.getD_append_word rfl]
          rfl
        · exact isRead.references
        · obtain ⟨place, ⟨id, inPlace, standing⟩, here⟩ := stands
          refine ⟨place, ⟨id, inPlace, isRead.stands renders standing⟩, ?_⟩
          rw [← renders.item feature, ← renders.item operator, ← renders.item? mark]
          exact here
    | alternatives elements mark =>
      obtain ⟨es, read, references, stand⟩ := listOfJson_jsons below
      refine ⟨.alternatives es (.ofWord mark), ?_, references, fun renders stands => ?_⟩
      · rw [json, fields, Element.ofJson_alternatives rfl (Fields.get?_append_of_some rfl) read,
          Fields.getD_append_word rfl]
      · obtain ⟨ids, standing, here⟩ := stands
        exact ⟨ids, stand renders standing, renders.item? mark ▸ here⟩
    | group elements mark =>
      obtain ⟨es, read, references, stand⟩ := listOfJson_jsons below
      refine ⟨.group es (.ofWord mark), ?_, references, fun renders stands => ?_⟩
      · rw [json, fields, Element.ofJson_group rfl (Fields.get?_append_of_some rfl) read,
          Fields.getD_append_word rfl]
      · obtain ⟨ids, standing, here⟩ := stands
        exact ⟨ids, stand renders standing, renders.item? mark ▸ here⟩
    | action type inferredType feature operator mark =>
      refine ⟨.action (type.map Mention.reference) (.ofWord inferredType) (.ofWord feature)
        (.ofWord operator) (.ofWord mark), ?_, ?_, fun renders stands => ?_⟩
      · obtain ⟨kind, written, inferred, words⟩ :=
          getD_fields_action type inferredType feature operator mark
        rw [json, Element.ofJson_action kind written, inferred, words.1, words.2.1, words.2.2]
      · cases type <;> rfl
      · cases type with
        | none =>
          simp only [Element.phrase, StandsAt, Option.map_none, renders.item?] at stands ⊢
          exact stands
        | some type =>
          obtain ⟨link, leads, here⟩ := stands
          refine ⟨link, renders.leads _ _ _ leads, ?_⟩
          simp only [renders.item?] at here
          exact here
    | unknown kind mark => cases whole

end Phrase

namespace Production

/-- The body of the rule is whole, if it has one. -/
def isWhole (rule : Production String Mention) : Bool :=
  rule.body?.all Phrase.isWhole

/-- The references of a rule in order. -/
def mentions (rule : Production String Mention) : List Mention :=
  (rule.body?.map Phrase.mentions).getD []

/-- The fields of the object that is written for a regular expression. -/
def tokenFields (regex : String) : Fields :=
  [("$type", .str "RegexToken"), ("regex", .str regex)]

/-- The fields of the object that is written for a rule. -/
def fields : Production String Mention → Fields
  | .parser name definition inferredType entry fragment =>
    [("$type", .str "ParserRule"), ("name", .str name), ("entry", .bool entry),
      ("fragment", .bool fragment)] ++ Fields.optional "definition" (definition.map Phrase.json) ++
      Fields.word "inferredType" inferredType
  | .terminal name regex hidden fragment =>
    [("$type", .str "TerminalRule"), ("name", .str name), ("hidden", .bool hidden),
      ("fragment", .bool fragment)] ++
      Fields.optional "definition" (regex.map fun regex => .obj (tokenFields regex))

/-- The rule is what is read from the value of the rule of a grammar: it has the same references,
and stands where the rule of the grammar stands. -/
structure IsReadAs (rule : Production String Mention) (r : Rule) : Prop where
  read : Rule.ofJson (.obj rule.fields) = .ok r
  references : r.references = rule.mentions.map Mention.reference
  stands : ∀ {I : Interpretation Json Reference} {J : Interpretation String Mention} {m : Model}
    {id : NodeId}, I.Renders J → r.production.StandsAt I m id → rule.StandsAt J m id

/-- A terminal rule is read back. -/
theorem isReadAs_terminal (name : String) (regex : Option String) (hidden fragment : Bool) :
    IsReadAs (.terminal name regex hidden fragment)
      (.terminal (.str name) (.ofWord regex) hidden fragment) where
  read := by
    cases regex <;> rfl
  references := rfl
  stands := by
    intro I J m id renders stands
    simp only [Rule.production, StandsAt, renders.item, renders.item?] at stands ⊢
    exact stands

/-- A parser rule whose body is whole is read back. -/
theorem exists_isReadAs (rule : Production String Mention) (whole : rule.isWhole = true) :
    ∃ r, rule.IsReadAs r := by
  cases rule with
  | terminal name regex hidden fragment => exact ⟨_, isReadAs_terminal name regex hidden fragment⟩
  | parser name definition inferredType entry fragment =>
    cases definition with
    | none =>
      refine ⟨.parser (.str name) none (.ofWord inferredType) entry fragment, ?_, rfl, ?_⟩
      · cases inferredType <;> rfl
      · intro I J m id renders stands
        obtain ⟨place, nothing, here⟩ := stands
        refine ⟨place, nothing, ?_⟩
        rw [← renders.item name, ← renders.item? inferredType]
        exact here
    | some b =>
      obtain ⟨e, isRead⟩ := b.exists_isReadAs whole
      refine ⟨.parser (.str name) (some e) (.ofWord inferredType) entry fragment, ?_,
        isRead.references, ?_⟩
      · have unfolded : Rule.ofJson
            (.obj (fields (.parser name (some b) inferredType entry fragment))) = (do
              let body ← if b.json.isPresent then (Element.ofJson b.json).map some else pure none
              return .parser (.str name) body (.ofWord inferredType) entry fragment) := by
          cases inferredType <;> rfl
        rw [unfolded, if_pos b.isPresent_json, isRead.read]
        rfl
      · intro I J m id renders stands
        obtain ⟨place, ⟨body, inPlace, standing⟩, here⟩ := stands
        refine ⟨place, ⟨body, inPlace, isRead.stands renders standing⟩, ?_⟩
        rw [← renders.item name, ← renders.item? inferredType]
        exact here

end Production

/-- A grammar as a tree of its own, whose rules are whole. -/
structure Ast where
  name : String
  rules : List (Production String Mention)
  interfaces : List String
  types : List String
  diagnostics : List Diagnostic
  whole : ∀ rule ∈ rules, rule.isWhole = true

/-- The fields of the object that is written for a declaration. -/
def Declaration.writtenFields (kind name : String) : Fields :=
  [("$type", .str kind), ("name", .str name)]

/-- A declaration is read back. -/
theorem Declaration.ofJson_writtenFields (kind name : String) :
    Declaration.ofJson (.obj (writtenFields kind name)) = .ok ⟨.str name, .str kind⟩ := rfl

/-- The value that is written for a diagnostic. -/
def Diagnostic.json (diagnostic : Diagnostic) : Json :=
  .obj [("severity", diagnostic.severity), ("message", diagnostic.message)]

/-- A diagnostic is read back. -/
theorem Diagnostic.ofJson_json (diagnostic : Diagnostic) :
    Diagnostic.ofJson diagnostic.json = .ok diagnostic := rfl

namespace Ast

/-- The references of a grammar in order. -/
def mentions (ast : Ast) : List Mention :=
  ast.rules.flatMap Production.mentions

/-- The fields of the object that is written for a grammar. -/
def fields (ast : Ast) : Fields :=
  [("$type", .str "Grammar"), ("name", .str ast.name),
    ("rules", .arr (ast.rules.map fun rule => .obj rule.fields)),
    ("interfaces", .arr (ast.interfaces.map fun name =>
      .obj (Declaration.writtenFields "Interface" name))),
    ("types", .arr (ast.types.map fun name => .obj (Declaration.writtenFields "Type" name))),
    ("diagnostics", .arr (ast.diagnostics.map Diagnostic.json))]

/-- The value that is written for a grammar. -/
def json (ast : Ast) : Json := .obj ast.fields

/-- The document of a grammar whose rules are read as the given ones. -/
def document (ast : Ast) (rules : List Rule) : Document where
  name := .str ast.name
  rules := rules
  interfaces := ast.interfaces.map fun name => ⟨.str name, .str "Interface"⟩
  types := ast.types.map fun name => ⟨.str name, .str "Type"⟩
  diagnostics := ast.diagnostics

end Ast

/-- What is written item by item is read item by item. -/
theorem exists_mapM_map {α β : Type} {written : α → Json} {read : Json → Except Fault β}
    {R : α → β → Prop} {list : List α}
    (each : ∀ a ∈ list, ∃ b, read (written a) = .ok b ∧ R a b) :
    ∃ made, (list.map written).mapM read = .ok made ∧ List.Forall₂ R list made := by
  induction list with
  | nil => exact ⟨[], rfl, .nil⟩
  | cons a rest ih =>
    obtain ⟨b, isRead, related⟩ := each a List.mem_cons_self
    obtain ⟨made, others, all⟩ := ih fun a mem => each a (List.mem_cons_of_mem _ mem)
    refine ⟨b :: made, ?_, .cons related all⟩
    rw [List.map_cons, List.mapM_cons, isRead, ok_bind, others]
    rfl

/-- What is written item by item is read as the values of a function. -/
theorem mapM_map_eq {α β : Type} {written : α → Json} {read : Json → Except Fault β} {f : α → β}
    (each : ∀ a, read (written a) = .ok (f a)) (list : List α) :
    (list.map written).mapM read = .ok (list.map f) := by
  induction list with
  | nil => rfl
  | cons a rest ih =>
    rw [List.map_cons, List.mapM_cons, each, ok_bind, ih]
    rfl

/-- A written grammar is read as its document. -/
theorem Ast.exists_ofFields (ast : Ast) : ∃ rules,
    Document.ofFields ast.fields = .ok (ast.document rules) ∧
      List.Forall₂ Production.IsReadAs ast.rules rules := by
  obtain ⟨rules, read, related⟩ : ∃ rules,
      (ast.rules.map fun rule => Json.obj rule.fields).mapM Rule.ofJson = .ok rules ∧
      List.Forall₂ Production.IsReadAs ast.rules rules :=
    exists_mapM_map fun rule mem => by
      obtain ⟨r, isRead⟩ := rule.exists_isReadAs (ast.whole rule mem)
      exact ⟨r, isRead.read, isRead⟩
  have interfaces : (ast.interfaces.map fun name =>
      Json.obj (Declaration.writtenFields "Interface" name)).mapM Declaration.ofJson =
      .ok (ast.interfaces.map fun name => ⟨.str name, .str "Interface"⟩) :=
    mapM_map_eq (Declaration.ofJson_writtenFields "Interface") ast.interfaces
  have types : (ast.types.map fun name =>
      Json.obj (Declaration.writtenFields "Type" name)).mapM Declaration.ofJson =
      .ok (ast.types.map fun name => ⟨.str name, .str "Type"⟩) :=
    mapM_map_eq (Declaration.ofJson_writtenFields "Type") ast.types
  have diagnostics : (ast.diagnostics.map Diagnostic.json).mapM Diagnostic.ofJson =
      .ok (ast.diagnostics.map id) :=
    mapM_map_eq Diagnostic.ofJson_json ast.diagnostics
  have named : (Json.str ast.name).orElse (.str "") = .str ast.name := by
    by_cases empty : ast.name = ""
    · simp [Json.orElse, Json.isPresent, empty]
    · simp [Json.orElse, Json.isPresent, empty]
  have unfolded : Document.ofFields ast.fields = (do
      let rules ← (ast.rules.map fun rule => Json.obj rule.fields).mapM Rule.ofJson
      let interfaces ← (ast.interfaces.map fun name =>
        Json.obj (Declaration.writtenFields "Interface" name)).mapM Declaration.ofJson
      let types ← (ast.types.map fun name =>
        Json.obj (Declaration.writtenFields "Type" name)).mapM Declaration.ofJson
      let diagnostics ← (ast.diagnostics.map Diagnostic.json).mapM Diagnostic.ofJson
      return ⟨(Json.str ast.name).orElse (.str ""), rules, interfaces, types, diagnostics⟩) := rfl
  refine ⟨rules, ?_, related⟩
  rw [unfolded, read, interfaces, types, diagnostics, named, List.map_id]
  rfl

end GrammarChart
