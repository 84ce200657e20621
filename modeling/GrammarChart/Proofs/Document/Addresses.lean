import GrammarChart.Document.Binding
import GrammarChart.Proofs.Emissions
import GrammarChart.Proofs.Text.Digits

/-!
# Addresses

What the addresses of a document look like, and what reading them gives back. A path is a list of
hops (`Hop`), written one after the other, each after a slash (`segments_pathText`); a hop is read
back as its field and its index (`Segment.ofText_hop`), and the numeral of an index as the index,
unless it has too many digits (`indexNumber_indexDigits`). An address into another document names
the document first (`Planting.nodeAt_outside`).
-/

set_option autoImplicit false

namespace GrammarChart

namespace Text

/-- The numeral of the number has more digits than are converted. -/
def Numeral.IsOverlong (n : Nat) : Prop :=
  10 ^ maxDigits ≤ n

instance (n : Nat) : Decidable (Numeral.IsOverlong n) :=
  inferInstanceAs (Decidable (_ ≤ n))

end Text

/-- The digits of an index. -/
def indexDigits (n : Nat) : List Nat :=
  (Nat.toDigits 10 n).filterMap Text.digitValue?

/-- The digits of an index are those of its leading part and a last one. -/
theorem indexDigits_eq (n : Nat) :
    indexDigits n = (if n < 10 then [] else indexDigits (n / 10)) ++ [n % 10] := by
  unfold indexDigits
  rw [Nat.toDigits_eq_if (by decide)]
  split
  · next small =>
    rw [List.filterMap_cons, Text.digitValue?_digitChar small, Nat.mod_eq_of_lt small]
    rfl
  · rw [List.filterMap_append, List.filterMap_cons,
      Text.digitValue?_digitChar (Nat.mod_lt n (by decide))]
    rfl

/-- The digits of an index spell it. -/
theorem ofDigits_indexDigits (n : Nat) : Text.Numeral.ofDigits (indexDigits n) = n := by
  induction n using Nat.strongRecOn with
  | ind n ih =>
    rw [indexDigits_eq, Text.Numeral.ofDigits_concat]
    split
    · next small =>
      have none : Text.Numeral.ofDigits [] = 0 := rfl
      omega
    · rw [ih (n / 10) (by omega)]
      omega

/-- An index has as many digits as its numeral has characters. -/
theorem length_indexDigits (n : Nat) : (indexDigits n).length = (Nat.toDigits 10 n).length := by
  rw [indexDigits, List.length_filterMap_eq_countP, List.countP_eq_length]
  exact fun c mem => Text.isDigit_of_mem_toDigits mem

/-- An index is read back, unless its numeral has too many digits. -/
theorem indexNumber_indexDigits (n : Nat) :
    indexNumber (indexDigits n) = if Text.Numeral.IsOverlong n then
      .error (.numeralTooLong (indexDigits n).length) else .ok n := by
  have long : Text.Numeral.IsOverlong n ↔ Text.Numeral.maxDigits < (indexDigits n).length := by
    have := Nat.length_toDigits_le_iff (b := 10) (n := n) (k := Text.Numeral.maxDigits) (by decide)
      (by decide)
    rw [length_indexDigits, Text.Numeral.IsOverlong]
    omega
  unfold indexNumber Text.Numeral.convert
  rw [ofDigits_indexDigits]
  by_cases h : Text.Numeral.IsOverlong n
  · rw [if_pos h, if_pos (long.mp h)]
  · rw [if_neg h, if_neg (fun more => h (long.mpr more))]

/-- The numeral of an index that ends a text is read as its digits. -/
theorem Segment.indexOf_toDigits (n : Nat) :
    Segment.indexOf (Nat.toDigits 10 n) = some (indexDigits n) := by
  have digits : ∀ c ∈ Nat.toDigits 10 n, Text.isDigit c = true := fun c => Text.isDigit_of_mem_toDigits
  unfold Segment.indexOf
  rw [List.takeWhile_eq_self_iff.mpr digits, List.dropWhile_eq_nil_iff.mpr digits]
  simp [Segment.isEnd, indexDigits]

/-- A part of a path: a field of a node, or an item of a list of nodes. -/
inductive Hop where
  | rules (index : Nat)
  | interfaces (index : Nat)
  | types (index : Nat)
  | definition
  | elements (index : Nat)
  | terminal
  deriving DecidableEq, Repr

namespace Hop

/-- The field that a hop leads into. -/
def field : Hop → String
  | .rules _ => "rules"
  | .interfaces _ => "interfaces"
  | .types _ => "types"
  | .definition => "definition"
  | .elements _ => "elements"
  | .terminal => "terminal"

/-- The index of the item that a hop leads to. -/
def index? : Hop → Option Nat
  | .rules index => some index
  | .interfaces index => some index
  | .types index => some index
  | .definition => none
  | .elements index => some index
  | .terminal => none

/-- A hop as written. -/
def text (hop : Hop) : List Char :=
  hop.field.toList ++ (hop.index?.map fun index => '@' :: Nat.toDigits 10 index).getD []

/-- The steps of a hop. -/
def steps (hop : Hop) : List Step :=
  .field hop.field :: (hop.index?.map Step.item).toList

/-- The numeral of the index has more digits than are converted. -/
def IsOverlong (hop : Hop) : Prop :=
  ∃ index ∈ hop.index?, Text.Numeral.IsOverlong index

instance (hop : Hop) : Decidable hop.IsOverlong :=
  inferInstanceAs (Decidable (∃ index ∈ hop.index?, _))

/-- The names of the fields that hops lead into. -/
def fieldNames : List String :=
  ["rules", "interfaces", "types", "definition", "elements", "terminal"]

/-- A hop leads into one of these fields. -/
theorem field_mem_fieldNames (hop : Hop) : hop.field ∈ fieldNames := by
  cases hop <;> simp [field, fieldNames]

/-- A field is a word. -/
theorem isWordCharacter_of_mem_field (hop : Hop) :
    ∀ c ∈ hop.field.toList, Text.isWordCharacter c = true := by
  have words : ∀ name ∈ fieldNames, name.toList.all Text.isWordCharacter = true := by decide
  exact List.all_eq_true.mp (words hop.field hop.field_mem_fieldNames)

/-- A field has a name. -/
theorem field_ne_nil (hop : Hop) : hop.field.toList ≠ [] := by
  have named : ∀ name ∈ fieldNames, name.toList ≠ [] := by decide
  exact named hop.field hop.field_mem_fieldNames

end Hop

/-- A hop is read back as its field and the digits of its index. -/
theorem Segment.ofText_hop (hop : Hop) :
    Segment.ofText hop.text = some ⟨hop.field.toList, hop.index?.map indexDigits⟩ := by
  have word := hop.isWordCharacter_of_mem_field
  have nonempty : hop.field.toList.isEmpty = false := by
    rw [List.isEmpty_eq_false_iff]
    exact hop.field_ne_nil
  have at_ : Text.isWordCharacter '@' = false := by decide
  unfold Segment.ofText Hop.text
  rw [List.takeWhile_append_of_pos word, List.dropWhile_append_of_pos word]
  cases hop.index? with
  | none => simp [nonempty, Segment.isEnd]
  | some index =>
    simp only [Option.map_some, Option.getD_some, List.takeWhile_cons, List.dropWhile_cons, at_]
    simp [nonempty, Segment.isEnd, Segment.indexOf_toDigits]

/-- The text of a path. -/
def pathText (path : List Hop) : List Char :=
  path.flatMap fun hop => '/' :: hop.text

/-- There is no slash in a hop. -/
theorem Hop.slash_not_mem_text (hop : Hop) : '/' ∉ hop.text := by
  intro mem
  rcases List.mem_append.mp mem with name | index
  · have := hop.isWordCharacter_of_mem_field _ name
    revert this
    decide
  · cases found : hop.index? with
    | none => simp [found] at index
    | some i =>
      rw [found, Option.map_some, Option.getD_some, List.mem_cons] at index
      rcases index with sign | digit
      · revert sign
        decide
      · have := Text.isDigit_of_mem_toDigits digit
        revert this
        decide

/-- A path is split at its slashes. -/
theorem splitOn_append_pathText (path : List Hop) : ∀ start : List Char, '/' ∉ start →
    (start ++ pathText path).splitOn '/' = start :: path.map Hop.text := by
  induction path with
  | nil =>
    intro start apart
    rw [pathText, List.flatMap_nil, List.append_nil, List.splitOn_eq_singleton apart]
    rfl
  | cons hop rest ih =>
    intro start apart
    rw [pathText, List.flatMap_cons, List.cons_append,
      List.splitOn_append_cons_self_of_not_mem apart, List.map_cons]
    exact congrArg (start :: ·) (ih hop.text hop.slash_not_mem_text)

/-- The segments of a path are its hops. -/
theorem segments_pathText (path : List Hop) : segments (pathText path) = path.map Hop.text := by
  have split := splitOn_append_pathText path [] List.not_mem_nil
  rw [List.nil_append] at split
  rw [segments, split, List.filter_cons_of_neg (by simp), List.filter_eq_self]
  intro segment mem
  obtain ⟨hop, -, rfl⟩ := List.mem_map.mp mem
  simp [Hop.text, hop.field_ne_nil]

/-- The value that a hop leads to. -/
def Fields.hop? (fields : Fields) (hop : Hop) : Option Json :=
  match hop.index? with
  | none => some (fields.getD hop.field .null)
  | some index =>
    match fields.getD hop.field .null with
    | .arr items => items[index]?
    | _ => none

namespace Json

variable {position : Position} {fields : Fields} {hop : Hop} {rest : List (List Char)}

/-- A path leads from an object to the value that its first hop leads to, and on from there. -/
theorem follow_hop (short : ¬ hop.IsOverlong) :
    Json.follow position (.obj fields) (hop.text :: rest) =
      match fields.hop? hop with
      | some value => Json.follow (position ++ hop.steps) value rest
      | none => .ok none := by
  conv_lhs => unfold Json.follow
  rw [Segment.ofText_hop]
  unfold Fields.hop? Hop.steps
  cases found : hop.index? with
  | none => simp [String.ofList_toList]
  | some index =>
    have number : indexNumber (indexDigits index) = .ok index := by
      rw [indexNumber_indexDigits, if_neg fun long => short ⟨index, found, long⟩]
    simp only [Option.map_some, number, ok_bind, String.ofList_toList]
    cases fields.getD hop.field .null with
    | arr items => cases items[index]? <;> rfl
    | _ => rfl

/-- A path stops at an object when the index of its first hop is overlong. -/
theorem follow_overlong (long : hop.IsOverlong) :
    ∃ count, Json.follow position (.obj fields) (hop.text :: rest) =
      .error (.numeralTooLong count) := by
  obtain ⟨index, found, long⟩ := long
  refine ⟨(indexDigits index).length, ?_⟩
  unfold Json.follow
  rw [Segment.ofText_hop, found]
  simp only [Option.map_some, indexNumber_indexDigits, if_pos long, error_bind]

/-- A path leads nowhere from what is no object. -/
theorem follow_of_not_object {value : Json} (h : ∀ fields, value ≠ .obj fields)
    (path : List (List Char)) : Json.follow position value path = .ok none := by
  cases value with
  | obj fields => exact absurd rfl (h fields)
  | _ =>
    cases path with
    | nil => rfl
    | cons text rest =>
      unfold Json.follow
      cases Segment.ofText text with
      | none => rfl
      | some segment =>
        obtain ⟨name, index⟩ := segment
        cases index <;> rfl

end Json

/-- The address of a part of the document that it stands in. -/
def insideAddress (path : List Hop) : String :=
  String.ofList ('#' :: pathText path)

/-- The address of a rule of another document. -/
def outsideAddress (document : String) (index : Nat) : String :=
  document ++ "#/rules@" ++ toString index

/-- A path that leads to a rule of another document is read back. -/
theorem outsidePath?_rules (index : Nat) :
    outsidePath? ("/rules@".toList ++ Nat.toDigits 10 index) =
      some ("rules", indexDigits index) := by
  have start : '/' :: "rules".toList ++ ['@'] = "/rules@".toList := by decide
  have starts : "/rules@".toList.isPrefixOf ("/rules@".toList ++ Nat.toDigits 10 index) = true :=
    List.isPrefixOf_iff_prefix.mpr (List.prefix_append _ _)
  rw [outsidePath?, indexedLists, List.findSome?_cons]
  simp only [start, starts, if_true, List.drop_left, Segment.indexOf_toDigits, Option.map_some]

/-- The node at an index among the rules of the grammar that is imported for a document. -/
theorem Model.outsideNode_rules (m : Model) (imported : Imported) (document : String) {index : Nat}
    {g : NodeId} {grammar : Grammar}
    (named : imported.get? (FilePath.ofText document).stem = some g)
    (found : m.grammar? g = some grammar) :
    m.outsideNode imported document.toList ("/rules@".toList ++ Nat.toDigits 10 index) =
      (indexNumber (indexDigits index)).map fun index => (nodesIn grammar.rules)[index]? := by
  unfold outsideNode
  rw [String.ofList_toList, named, Option.bind_some, found, outsidePath?_rules]
  show (indexNumber (indexDigits index) >>= fun index =>
    pure (m.indexedNodes grammar "rules")[index]?) = _
  cases indexNumber (indexDigits index) <;> rfl

namespace Planting

variable (p : Planting) (imported : Imported) (fields : Fields)

/-- An address in the own document is followed from the document. -/
theorem nodeAt_inside (path : List Hop) :
    p.nodeAt imported fields (.str (insideAddress path)) =
      (Json.follow [] (.obj fields) (path.map Hop.text)).map fun position =>
        position.bind p.place? := by
  unfold nodeAt insideAddress
  simp [segments_pathText]

/-- An address in another document is looked up there. -/
theorem nodeAt_outside {document : String} (named : document ≠ "") (whole : '#' ∉ document.toList)
    (index : Nat) : p.nodeAt imported fields (.str (outsideAddress document index)) =
      p.model.outsideNode imported document.toList ("/rules@".toList ++ Nat.toDigits 10 index) := by
  have text : (outsideAddress document index).toList =
      document.toList ++ '#' :: ("/rules@".toList ++ Nat.toDigits 10 index) := by
    simp [outsideAddress]
  have before : ∀ c ∈ document.toList, (c != '#') = true := by
    intro c mem
    simp only [bne_iff_ne, ne_eq]
    rintro rfl
    exact whole mem
  have nonempty : document.toList.isEmpty = false := by simp [named]
  unfold nodeAt
  simp only [text, List.takeWhile_append_of_pos before, List.dropWhile_append_of_pos before]
  simp [nonempty]

end Planting

end GrammarChart
