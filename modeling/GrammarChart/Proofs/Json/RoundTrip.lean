import Mathlib
import GrammarChart.Proofs.Json.Numbers
import GrammarChart.Proofs.Json.Strings

/-!
# Reading written values

A value that is written with one item to a line is read back (`read_indented`), except that a number
with a fraction comes back as the number its numeral rounds to (`readBack`). A whole number with too
many digits is not read, and neither is the second of two fields with the same name, so the values
in question have neither (`IsWritable`). The written form has no carriage return
(`return_not_mem_indented`).
-/

set_option autoImplicit false

namespace GrammarChart.Json

mutual

/-- The value comes back from its written form: its whole numbers can be converted, and no two
fields of an object have the same name. -/
def IsWritable : Json → Prop
  | .int n => ¬ Text.Numeral.IsOverlong n.natAbs
  | .arr items => areWritable items
  | .obj fields => (Fields.keys fields).Nodup ∧ fieldsWritable fields
  | _ => True

/-- The items of a list come back. -/
def areWritable : List Json → Prop
  | [] => True
  | v :: rest => v.IsWritable ∧ areWritable rest

/-- The values of the fields of an object come back. -/
def fieldsWritable : List (String × Json) → Prop
  | [] => True
  | (_, v) :: rest => v.IsWritable ∧ fieldsWritable rest

end

/-- The number that is read for a written number. -/
def reread (x : Binary64) : Binary64 :=
  match x.meaning with
  | .notANumber => .nan
  | .infinite negative => .infinity negative
  | .finite .. =>
    match readNumber (writtenLayout.text x).toList with
    | .ok (.real y, _) => y
    | _ => x

mutual

/-- The value that is read for a written value. -/
def readBack : Json → Json
  | .real x => .real (reread x)
  | .arr items => .arr (readBackItems items)
  | .obj fields => .obj (readBackFields fields)
  | v => v

/-- The items that are read for written items. -/
def readBackItems : List Json → List Json
  | [] => []
  | v :: rest => v.readBack :: readBackItems rest

/-- The fields that are read for written fields. -/
def readBackFields : List (String × Json) → List (String × Json)
  | [] => []
  | (k, v) :: rest => (k, v.readBack) :: readBackFields rest

end

mutual

/-- How many steps it takes to read the value. -/
def readSteps : Json → Nat
  | .arr items => itemSteps items + 1
  | .obj fields => fieldSteps fields + 1
  | _ => 1

/-- How many steps it takes to read items. -/
def itemSteps : List Json → Nat
  | [] => 0
  | v :: rest => max v.readSteps (itemSteps rest) + 1

/-- How many steps it takes to read fields. -/
def fieldSteps : List (String × Json) → Nat
  | [] => 0
  | (_, v) :: rest => max v.readSteps (fieldSteps rest) + 1

end

section Blocks

/-- Parts with a comma and a line end between any two of them. -/
def joined (level : Nat) : List String → List Char
  | [] => []
  | [part] => part.toList
  | part :: next :: rest =>
    part.toList ++ ',' :: ((indentation level).toList ++ joined level (next :: rest))

theorem toList_intercalate_indentation (level : Nat) (parts : List String) :
    (("," ++ indentation level).intercalate parts).toList = joined level parts := by
  rw [String.toList_intercalate]
  induction parts with
  | nil => rfl
  | cons part rest ih =>
    cases rest with
    | nil => simp [joined, List.intercalate]
    | cons next rest =>
      rw [joined, ← ih]
      simp [List.intercalate]

/-- A block with parts is its parts between an opening and a closing line. -/
theorem toList_block (opening closing : String) (level : Nat) {parts : List String}
    (some' : parts ≠ []) : (block opening closing level parts).toList =
      opening.toList ++ ((indentation (level + 1)).toList ++ (joined (level + 1) parts ++
        ((indentation level).toList ++ closing.toList))) := by
  unfold block
  rw [if_neg (by simpa using some')]
  simp only [String.toList_append, toList_intercalate_indentation, List.append_assoc]

theorem toList_indentation (level : Nat) :
    (indentation level).toList = '\n' :: List.replicate (2 * level) ' ' := by
  simp [indentation]

theorem skipGap_of_not_isGap {c : Char} (rest : List Char) (h : isGap c = false) :
    skipGap (c :: rest) = c :: rest := by
  simp [skipGap, h]

/-- The start of a line is skipped. -/
theorem skipGap_indentation (level : Nat) {c : Char} (rest : List Char) (h : isGap c = false) :
    skipGap ((indentation level).toList ++ c :: rest) = c :: rest := by
  have spaces : ∀ d ∈ (indentation level).toList, isGap d = true := by
    intro d mem
    rw [toList_indentation] at mem
    rcases List.mem_cons.mp mem with rfl | space
    · rfl
    · rw [List.eq_of_mem_replicate space]
      rfl
  unfold skipGap
  rw [List.dropWhile_append_of_pos spaces]
  simp [h]

theorem follows_indentation (level : Nat) (rest : List Char) :
    Follows ((indentation level).toList ++ rest) := by
  intro c mem
  rw [toList_indentation, List.cons_append, List.head?_cons, Option.mem_some_iff] at mem
  exact .inr mem.symm

theorem follows_comma (rest : List Char) : Follows (',' :: rest) := by
  intro c mem
  rw [List.head?_cons, Option.mem_some_iff] at mem
  exact .inl mem.symm

theorem follows_nil : Follows [] := by
  intro c mem
  cases mem

end Blocks

section Starts

/-- The text starts like a written value. -/
def Starts (text : List Char) : Prop :=
  ∃ c, text.head? = some c ∧ isGap c = false ∧ c ≠ ']' ∧ c ≠ '\ufeff'

/-- A digit starts a value, with or without a sign. -/
theorem starts_signed (negative : Bool) {body : List Char} {c : Char} (h : body.head? = some c)
    (digit : c.isDigit = true) : Starts (signed negative body) := by
  cases negative with
  | true => exact ⟨'-', rfl, by decide, by decide, by decide⟩
  | false =>
    refine ⟨c, h, ?_, ?_, ?_⟩
    · by_contra gap
      simp only [isGap, Bool.not_eq_false, Bool.or_eq_true, beq_iff_eq] at gap
      rcases gap with ((rfl | rfl) | rfl) | rfl <;> exact absurd digit (by decide)
    · rintro rfl
      exact absurd digit (by decide)
    · rintro rfl
      exact absurd digit (by decide)

theorem IsWhole.head? {text : List Char} (h : IsWhole text) :
    ∃ c, text.head? = some c ∧ c.isDigit = true := by
  obtain ⟨c, rest, rfl⟩ := List.exists_cons_of_ne_nil h.nonempty
  exact ⟨c, rfl, h.digits c List.mem_cons_self⟩

theorem Numeral.head? {numeral : Numeral} (proper : numeral.IsProper) :
    ∃ c, (numeral.whole ++ numeral.tail).head? = some c ∧ c.isDigit = true := by
  obtain ⟨c, starts, digit⟩ := proper.whole.head?
  exact ⟨c, by rw [List.head?_append, starts]; rfl, digit⟩

theorem starts_real (x : Binary64) : Starts (writtenLayout.text x).toList := by
  cases meaning : x.meaning with
  | finite negative m q =>
    obtain ⟨numeral, proper, text⟩ := exists_numeral meaning
    obtain ⟨c, starts, digit⟩ := numeral.head? proper
    rw [text]
    exact starts_signed _ starts digit
  | infinite negative =>
    rw [Decimal.Layout.text, meaning]
    cases negative
    · exact ⟨'I', by simp [writtenLayout], by decide, by decide, by decide⟩
    · exact ⟨'-', by simp [writtenLayout], by decide, by decide, by decide⟩
  | notANumber =>
    rw [Decimal.Layout.text, meaning]
    exact ⟨'N', by simp [writtenLayout], by decide, by decide, by decide⟩

theorem starts_block {opening : String} {c : Char} (first : opening.toList.head? = some c)
    (fit : isGap c = false ∧ c ≠ ']' ∧ c ≠ '\ufeff') (closing : String) (level : Nat)
    (parts : List String) : Starts (block opening closing level parts).toList := by
  refine ⟨c, ?_, fit⟩
  by_cases empty : parts = []
  · rw [empty, block, List.isEmpty_nil, if_pos rfl, String.toList_append, List.head?_append, first]
    rfl
  · rw [toList_block _ _ _ empty, List.head?_append, first]
    rfl

/-- Every written value starts like one. -/
theorem starts_indented (v : Json) (level : Nat) : Starts (v.indented level).toList := by
  cases v with
  | null => exact ⟨'n', by simp [indented], by decide, by decide, by decide⟩
  | bool b =>
    cases b
    · exact ⟨'f', by simp [indented], by decide, by decide, by decide⟩
    · exact ⟨'t', by simp [indented], by decide, by decide, by decide⟩
  | int n =>
    obtain ⟨c, starts, digit⟩ := (isWhole_toDigits n.natAbs).head?
    rw [indented, toList_toString_int]
    exact starts_signed _ starts digit
  | real x =>
    rw [indented]
    exact starts_real x
  | str s =>
    rw [indented, toList_writeString]
    exact ⟨Text.doubleMark, rfl, by decide, by decide, by decide⟩
  | arr items =>
    rw [indented]
    exact starts_block (c := '[') (by simp) (by decide) _ _ _
  | obj fields =>
    rw [indented]
    exact starts_block (c := '\x7b') (by simp) (by decide) _ _ _

end Starts

attribute [local simp] readValue readItems readFields

section Words

variable {rest : List Char}

/-- A text that starts with a digit is a number. -/
theorem readValue_digit {c : Char} (h : c.isDigit = true) (steps : Nat) :
    readValue (steps + 1) (c :: rest) = readNumber (c :: rest) := by
  have apart : ∀ d : Char, d.isDigit = false → c ≠ d := by
    rintro d notDigit rfl
    rw [h] at notDigit
    cases notDigit
  have noName : readName? (c :: rest) = none := by
    simp [readName?, names, (apart 'n' (by decide)).symm, (apart 't' (by decide)).symm,
      (apart 'f' (by decide)).symm, (apart 'N' (by decide)).symm, (apart 'I' (by decide)).symm,
      (apart '-' (by decide)).symm]
  rw [readValue, if_neg (by simpa using apart _ (by decide)),
    if_neg (by simpa using apart _ (by decide)), if_neg (by simpa using apart _ (by decide)),
    noName]

/-- So is one with a minus sign before the digit. -/
theorem readValue_minus {c : Char} (h : c.isDigit = true) (steps : Nat) :
    readValue (steps + 1) ('-' :: c :: rest) = readNumber ('-' :: c :: rest) := by
  have apart : 'I' ≠ c := by
    rintro rfl
    exact absurd h (by decide)
  have noName : readName? ('-' :: c :: rest) = none := by
    simp [readName?, names, apart]
  rw [readValue, if_neg (by decide), if_neg (by decide), if_neg (by decide), noName]

theorem readValue_signed (negative : Bool) {body : List Char} {c : Char}
    (h : body.head? = some c) (digit : c.isDigit = true) (steps : Nat) :
    readValue (steps + 1) (signed negative body) = readNumber (signed negative body) := by
  obtain ⟨others, rfl⟩ : ∃ others, body = c :: others := by
    cases body with
    | nil => cases h
    | cons d others =>
      rw [List.head?_cons, Option.some.injEq] at h
      exact ⟨others, by rw [h]⟩
  cases negative
  · exact readValue_digit digit steps
  · exact readValue_minus digit steps

theorem signed_append (negative : Bool) (body : List Char) :
    signed negative body ++ rest = signed negative (body ++ rest) := by
  cases negative <;> rfl

/-- A whole number is read back. -/
theorem readValue_int (n : Int) (short : ¬ Text.Numeral.IsOverlong n.natAbs) (steps : Nat)
    (follows : Follows rest) :
    readValue (steps + 1) ((toString n).toList ++ rest) = .ok (.int n, rest) := by
  obtain ⟨c, starts, digit⟩ := (isWhole_toDigits n.natAbs).head?
  rw [← readNumber_int n short follows, toList_toString_int, signed_append]
  refine readValue_signed _ ?_ digit steps
  rw [List.head?_append, starts]
  rfl

/-- A number with a fraction is read as the number that its numeral rounds to. -/
theorem readValue_real (x : Binary64) (steps : Nat) (follows : Follows rest) :
    readValue (steps + 1) ((writtenLayout.text x).toList ++ rest) =
      .ok (.real (reread x), rest) := by
  unfold reread
  cases meaning : x.meaning with
  | finite negative m q =>
    obtain ⟨numeral, proper, text⟩ := exists_numeral meaning
    have alone := numeral.readNumber proper follows_nil
    rw [List.append_nil] at alone
    dsimp only
    rw [text, alone, ← numeral.readNumber proper follows, Numeral.text, signed_append]
    obtain ⟨c, starts, digit⟩ := numeral.head? proper
    refine readValue_signed _ ?_ digit steps
    rw [List.head?_append, starts]
    rfl
  | infinite negative =>
    rw [Decimal.Layout.text, meaning]
    cases negative <;>
      simp [writtenLayout, readName?, names, Text.doubleMark, ← String.length_toList]
  | notANumber =>
    rw [Decimal.Layout.text, meaning]
    simp [writtenLayout, readName?, names, Text.doubleMark, ← String.length_toList]

/-- A string is read back. -/
theorem readValue_str (s : String) (steps : Nat) :
    readValue (steps + 1) ((writeString s).toList ++ rest) = .ok (.str s, rest) := by
  have inner := readString_writeString s rest
  dsimp only at inner
  rw [toList_writeString, List.cons_append, List.append_assoc, List.singleton_append, readValue,
    if_pos (by decide), inner]
  simp [bind, Except.bind, pure, Except.pure]

end Words

section Values

theorem Starts.skipGap {text : List Char} (h : Starts text) (more : List Char) :
    Json.skipGap (text ++ more) = text ++ more := by
  obtain ⟨c, starts, gap, -⟩ := h
  cases text with
  | nil => cases starts
  | cons d rest =>
    rw [List.head?_cons, Option.some.injEq] at starts
    subst starts
    exact skipGap_of_not_isGap _ gap

theorem Starts.skipGap_indentation {text : List Char} (h : Starts text) (level : Nat)
    (more : List Char) :
    Json.skipGap ((indentation level).toList ++ (text ++ more)) = text ++ more := by
  obtain ⟨c, starts, gap, -⟩ := h
  cases text with
  | nil => cases starts
  | cons d rest =>
    rw [List.head?_cons, Option.some.injEq] at starts
    subst starts
    exact Json.skipGap_indentation level _ gap

/-- The parts of a block start like the first of them. -/
theorem starts_joined (level : Nat) {first : String} (parts : List String)
    (h : Starts first.toList) : Starts (joined level (first :: parts)) := by
  obtain ⟨c, starts, fit⟩ := h
  refine ⟨c, ?_, fit⟩
  cases parts with
  | nil => exact starts
  | cons next rest =>
    rw [joined, List.head?_append, starts]
    rfl

/-- A new field is written at the end. -/
theorem insert_of_not_mem {fields : Fields} {key : String} (h : key ∉ fields.keys) (value : Json) :
    fields.insert key value = fields ++ [(key, value)] := by
  induction fields with
  | nil => rfl
  | cons field rest ih =>
    obtain ⟨k, v⟩ := field
    simp only [Fields.keys, List.map_cons, List.mem_cons, not_or] at h
    rw [Fields.insert, if_neg (Ne.symm h.1), ih h.2, List.cons_append]

/-- A list whose first item stands on a line of its own is read from that item on. -/
theorem readValue_list {text : List Char} (h : Starts text) (level steps : Nat)
    (more : List Char) :
    readValue (steps + 1) ('[' :: ((indentation level).toList ++ (text ++ more))) =
      (readItems steps (text ++ more)).map fun read => (.arr read.1, read.2) := by
  have skipped := h.skipGap_indentation level more
  obtain ⟨c, starts, -, noEnd, -⟩ := h
  obtain ⟨others, rfl⟩ := List.head?_eq_some_iff.mp starts
  rw [readValue, if_neg (by decide), if_neg (by decide), if_pos (by decide), skipped]
  dsimp only
  split
  · next heq => exact absurd (List.cons.inj heq).1 noEnd
  · cases readItems steps (c :: others ++ more) <;> rfl

/-- An object whose first field stands on a line of its own is read from that field on. -/
theorem readValue_object {text : List Char} (h : text.head? = some Text.doubleMark)
    (level steps : Nat) (more : List Char) :
    readValue (steps + 1) ('\x7b' :: ((indentation level).toList ++ (text ++ more))) =
      (readFields steps [] (text ++ more)).map fun read => (.obj read.1, read.2) := by
  have starts : Starts text := ⟨_, h, by decide, by decide, by decide⟩
  have skipped := starts.skipGap_indentation level more
  obtain ⟨others, rfl⟩ := List.head?_eq_some_iff.mp h
  rw [readValue, if_neg (by decide), if_pos (by decide), skipped]
  dsimp only
  split
  · next heq => exact absurd (List.cons.inj heq).1 (by decide)
  · cases readFields steps [] (Text.doubleMark :: others ++ more) <;> rfl

/-- The last item of a list is read, and then the end of the list. -/
theorem readItems_last {steps : Nat} {text rest after : List Char} {value : Json}
    (h : readValue steps text = .ok (value, after)) (ends : skipGap after = ']' :: rest) :
    readItems (steps + 1) text = .ok ([value], rest) := by
  rw [readItems, h]
  simp only [bind, Except.bind, ends]
  rfl

/-- An item that others follow is read, and then the others. -/
theorem readItems_next {steps : Nat} {text after next : List Char} {value : Json}
    (h : readValue steps text = .ok (value, ',' :: after)) (ends : skipGap after = next) :
    readItems (steps + 1) text =
      (readItems steps next).map fun read => (value :: read.1, read.2) := by
  have comma : skipGap (',' :: after) = ',' :: after := skipGap_of_not_isGap _ (by decide)
  rw [readItems, h]
  simp only [bind, Except.bind, comma, ends]
  cases readItems steps next <;> rfl

/-- The name of a field is read, and its value. -/
theorem readFields_field {steps : Nat} (name : String) {value text after : List Char}
    {before : Fields} {v : Json} (start : Starts value)
    (letters : text = (writeString name).toList ++ (": ".toList ++ (value ++ after)))
    {rest : List Char} (h : readValue steps (value ++ after) = .ok (v, rest)) :
    readFields (steps + 1) before text =
      match skipGap rest with
      | '\x7d' :: after => .ok (before.insert name v, after)
      | ',' :: after => readFields steps (before.insert name v) (skipGap after)
      | after => refuse .expectedComma after := by
  have inner := readString_writeString name (": ".toList ++ (value ++ after))
  dsimp only at inner
  have colon : skipGap (": ".toList ++ (value ++ after)) = ':' :: ' ' :: (value ++ after) := by
    simp [skipGap, isGap]
  have blank : skipGap (' ' :: (value ++ after)) = value ++ after := by
    have := start.skipGap after
    unfold skipGap at this ⊢
    rw [List.dropWhile_cons, if_pos (by decide), this]
  rw [letters, toList_writeString, List.cons_append, List.append_assoc, List.singleton_append,
    readFields]
  dsimp only
  rw [if_neg (by decide), inner]
  simp only [bind, Except.bind, colon, blank, h, String.ofList_toList]
  rfl

mutual

/-- A written value is read back, before any text that can follow a value. -/
theorem readValue_indented : ∀ (v : Json) (level steps : Nat) (rest : List Char),
    v.IsWritable → Follows rest → v.readSteps ≤ steps →
      readValue steps ((v.indented level).toList ++ rest) = .ok (v.readBack, rest)
  | .null, level, steps + 1, rest, _, _, _ => by
    simp [indented, readBack, readName?, names, Text.doubleMark, ← String.length_toList]
  | .bool b, level, steps + 1, rest, _, _, _ => by
    cases b <;> simp [indented, readBack, readName?, names, Text.doubleMark,
      ← String.length_toList]
  | .int n, level, steps + 1, rest, writable, follows, _ => by
    rw [indented, readBack]
    · exact readValue_int n writable steps follows
    all_goals simp
  | .real x, level, steps + 1, rest, _, follows, _ => by
    rw [indented, readBack]
    exact readValue_real x steps follows
  | .str s, level, steps + 1, rest, _, _, _ => by
    rw [indented, readBack]
    · exact readValue_str s steps
    all_goals simp
  | .arr [], level, steps + 1, rest, _, _, _ => by
    simp [indented, indentedItems, block, readBack, readBackItems, Text.doubleMark,
      skipGap, isGap]
  | .arr (v :: items), level, steps + 1, rest, writable, follows, enough => by
    rw [readSteps, Nat.add_le_add_iff_right] at enough
    have parts := readItems_joined (v :: items) (level + 1) level steps rest (by simp) writable
      enough
    have starts := starts_joined (level + 1) (indentedItems (level + 1) items)
      (starts_indented v (level + 1))
    have opening : "[".toList = ['['] := by simp
    have closing : "]".toList = [']'] := by simp
    rw [indented, toList_block _ _ _ (by simp [indentedItems]), readBack, opening, closing]
    simp only [List.cons_append, List.nil_append, List.append_assoc]
    rw [indentedItems] at parts ⊢
    rw [readValue_list starts, parts]
    rfl
  | .obj [], level, steps + 1, rest, _, _, _ => by
    simp [indented, indentedFields, block, readBack, readBackFields, Text.doubleMark,
      skipGap, isGap]
  | .obj ((k, v) :: fields), level, steps + 1, rest, writable, follows, enough => by
    rw [readSteps, Nat.add_le_add_iff_right] at enough
    have parts := readFields_joined ((k, v) :: fields) [] (level + 1) level steps rest (by simp)
      writable.1 writable.2 enough
    have starts : (joined (level + 1)
        (indentedFields (level + 1) ((k, v) :: fields))).head? = some Text.doubleMark := by
      cases fields <;> simp [indentedFields, joined, toList_writeString]
    have opening : "\x7b".toList = ['\x7b'] := by simp
    have closing : "\x7d".toList = ['\x7d'] := by simp
    rw [indented, toList_block _ _ _ (by simp [indentedFields]), readBack, opening, closing]
    simp only [List.cons_append, List.nil_append, List.append_assoc]
    rw [readValue_object starts, parts]
    rfl

/-- Written items are read back up to the end of their list. -/
theorem readItems_joined : ∀ (items : List Json) (inner outer steps : Nat)
    (rest : List Char), items ≠ [] → areWritable items → itemSteps items ≤ steps →
      readItems steps (joined inner (indentedItems inner items) ++
        ((indentation outer).toList ++ ']' :: rest)) = .ok (readBackItems items, rest)
  | [v], inner, outer, steps + 1, rest, _, writable, enough => by
    rw [itemSteps, Nat.add_le_add_iff_right] at enough
    have value := readValue_indented v inner steps ((indentation outer).toList ++ ']' :: rest)
      writable.1 (follows_indentation _ _) (by omega)
    exact readItems_last value (skipGap_indentation outer rest (by decide))
  | v :: w :: items, inner, outer, steps + 1, rest, _, writable, enough => by
    rw [itemSteps, Nat.add_le_add_iff_right] at enough
    have others := readItems_joined (w :: items) inner outer steps rest (by simp) writable.2
      (by omega)
    have value := fun after => readValue_indented v inner steps (',' :: after) writable.1
      (follows_comma after) (by omega)
    have starts := starts_joined inner (indentedItems inner items) (starts_indented w inner)
    rw [indentedItems, indentedItems, joined, List.append_assoc, List.cons_append,
      List.append_assoc, readItems_next (value _) (starts.skipGap_indentation inner _)]
    rw [indentedItems] at others
    rw [others]
    rfl

/-- Written fields are read back up to the end of their object, after the fields read before. -/
theorem readFields_joined : ∀ (fields : List (String × Json)) (before : Fields)
    (inner outer steps : Nat) (rest : List Char), fields ≠ [] →
      (before.keys ++ Fields.keys fields).Nodup → fieldsWritable fields →
      fieldSteps fields ≤ steps →
      readFields steps before (joined inner (indentedFields inner fields) ++
        ((indentation outer).toList ++ '\x7d' :: rest)) =
          .ok (before ++ readBackFields fields, rest)
  | [(k, v)], before, inner, outer, steps + 1, rest, _, apart, writable, enough => by
    rw [fieldSteps, Nat.add_le_add_iff_right] at enough
    have new : k ∉ before.keys := by
      intro mem
      exact (List.nodup_append.mp apart).2.2 k mem k List.mem_cons_self rfl
    have value := readValue_indented v inner steps ((indentation outer).toList ++ '\x7d' :: rest)
      writable.1 (follows_indentation _ _) (by omega)
    rw [indentedFields, indentedFields, joined,
      readFields_field k (starts_indented v inner) (by simp) value,
      skipGap_indentation outer rest (by decide), insert_of_not_mem new]
    rfl
  | (k, v) :: (l, w) :: fields, before, inner, outer, steps + 1, rest, _, apart, writable,
    enough => by
    rw [fieldSteps, Nat.add_le_add_iff_right] at enough
    have new : k ∉ before.keys := by
      intro mem
      exact (List.nodup_append.mp apart).2.2 k mem k List.mem_cons_self rfl
    have keys : (Fields.keys (before ++ [(k, v.readBack)]) ++ Fields.keys ((l, w) :: fields)) =
        before.keys ++ Fields.keys ((k, v) :: (l, w) :: fields) := by
      simp [Fields.keys]
    have others := readFields_joined ((l, w) :: fields) (before ++ [(k, v.readBack)]) inner
      outer steps rest (by simp) (keys ▸ apart) writable.2 (by omega)
    have value := fun after => readValue_indented v inner steps (',' :: after) writable.1
      (follows_comma after) (by omega)
    have starts : Starts (joined inner (indentedFields inner ((l, w) :: fields))) := by
      refine ⟨Text.doubleMark, ?_, by decide, by decide, by decide⟩
      cases fields <;> simp [indentedFields, joined, toList_writeString]
    have comma : ∀ after, skipGap (',' :: after) = ',' :: after :=
      fun after => skipGap_of_not_isGap after (by decide)
    rw [indentedFields, indentedFields, joined]
    rw [indentedFields] at others starts
    rw [readFields_field k (starts_indented v inner) (by simp; rfl) (value _)]
    simp only [comma]
    rw [starts.skipGap_indentation, insert_of_not_mem new, others]
    simp [readBackFields]

end

end Values

section Whole

theorem length_pos_of_starts {text : List Char} (h : Starts text) : 0 < text.length := by
  obtain ⟨c, starts, -⟩ := h
  exact List.length_pos_of_ne_nil (by rintro rfl; cases starts)

theorem readSteps_le_of_eq_one {v : Json} (level : Nat) (h : v.readSteps = 1) :
    v.readSteps ≤ 2 * (v.indented level).toList.length := by
  have := length_pos_of_starts (starts_indented v level)
  omega

mutual

/-- Reading a written value takes at most two steps for each of its characters. -/
theorem readSteps_le : ∀ (v : Json) (level : Nat),
    v.readSteps ≤ 2 * (v.indented level).toList.length
  | .arr (v :: items), level => by
    have parts := itemSteps_le (v :: items) (level + 1)
    rw [indented, toList_block _ _ _ (by simp [indentedItems]), readSteps]
    simp only [List.length_append]
    have brackets : "[".toList.length = 1 ∧ "]".toList.length = 1 := by simp
    omega
  | .obj (f :: fields), level => by
    have parts := fieldSteps_le (f :: fields) (level + 1)
    rw [indented, toList_block _ _ _ (by simp [indentedFields]), readSteps]
    simp only [List.length_append]
    have braces : "\x7b".toList.length = 1 ∧ "\x7d".toList.length = 1 := by simp
    omega
  | .arr [], level | .obj [], level => readSteps_le_of_eq_one level rfl
  | .null, level | .bool _, level | .int _, level => readSteps_le_of_eq_one level rfl
  | .real _, level | .str _, level => readSteps_le_of_eq_one level rfl

/-- The same for the items of a list. -/
theorem itemSteps_le : ∀ (items : List Json) (level : Nat),
    itemSteps items ≤ 2 * (joined level (indentedItems level items)).length + 1
  | [], level => by simp [itemSteps]
  | [v], level => by
    have value := readSteps_le v level
    rw [itemSteps, itemSteps, indentedItems, indentedItems, joined]
    omega
  | v :: w :: items, level => by
    have value := readSteps_le v level
    have others := itemSteps_le (w :: items) level
    rw [itemSteps, indentedItems]
    rw [indentedItems] at others ⊢
    rw [joined]
    simp only [List.length_append, List.length_cons]
    omega

/-- The same for the fields of an object. -/
theorem fieldSteps_le : ∀ (fields : List (String × Json)) (level : Nat),
    fieldSteps fields ≤ 2 * (joined level (indentedFields level fields)).length + 1
  | [], level => by simp [fieldSteps]
  | [(k, v)], level => by
    have value := readSteps_le v level
    rw [fieldSteps, fieldSteps, indentedFields, indentedFields, joined]
    simp only [String.toList_append, List.length_append]
    omega
  | (k, v) :: (l, w) :: fields, level => by
    have value := readSteps_le v level
    have others := fieldSteps_le ((l, w) :: fields) level
    rw [fieldSteps, indentedFields]
    rw [indentedFields] at others ⊢
    rw [joined]
    simp only [String.toList_append, List.length_append, List.length_cons]
    omega

end

/-- A written value is read back. -/
theorem read_indented {v : Json} (writable : v.IsWritable) :
    read (v.indented 0) = .ok v.readBack := by
  have enough := readSteps_le v 0
  have value := readValue_indented v 0 (2 * (v.indented 0).toList.length + 2) [] writable
    follows_nil (by omega)
  have starts := starts_indented v 0
  have skipped := starts.skipGap []
  rw [List.append_nil] at value skipped
  obtain ⟨c, start, -, -, noMark⟩ := starts
  obtain ⟨others, text⟩ := List.head?_eq_some_iff.mp start
  have whole : readWhole (v.indented 0).toList = .ok v.readBack := by
    unfold readWhole
    split
    · next heq =>
      rw [text] at heq
      exact absurd (List.cons.inj heq).1 noMark
    · rw [skipped, value]
      rfl
  rw [read, whole]

mutual

/-- The value has no number with a fraction. -/
def IsExact : Json → Prop
  | .real _ => False
  | .arr items => areExact items
  | .obj fields => fieldsExact fields
  | _ => True

/-- None of the items has one. -/
def areExact : List Json → Prop
  | [] => True
  | v :: rest => v.IsExact ∧ areExact rest

/-- None of the fields has one. -/
def fieldsExact : List (String × Json) → Prop
  | [] => True
  | (_, v) :: rest => v.IsExact ∧ fieldsExact rest

end

mutual

/-- A value without such numbers comes back as it is. -/
theorem readBack_eq_self : ∀ v : Json, v.IsExact → v.readBack = v
  | .arr items, h => by rw [readBack, readBackItems_eq_self items h]
  | .obj fields, h => by rw [readBack, readBackFields_eq_self fields h]
  | .null, _ | .bool _, _ | .int _, _ | .str _, _ => by rw [readBack] <;> simp

theorem readBackItems_eq_self : ∀ items : List Json, areExact items → readBackItems items = items
  | [], _ => rfl
  | v :: rest, h => by
    rw [readBackItems, readBack_eq_self v h.1, readBackItems_eq_self rest h.2]

theorem readBackFields_eq_self : ∀ fields : List (String × Json), fieldsExact fields →
    readBackFields fields = fields
  | [], _ => rfl
  | (k, v) :: rest, h => by
    rw [readBackFields, readBack_eq_self v h.1, readBackFields_eq_self rest h.2]

end

end Whole

section Returns

theorem return_not_mem_digits {digits : List Char} (h : AreDigits digits) : '\r' ∉ digits :=
  fun mem => absurd (h _ mem) (by decide)

theorem return_not_mem_signed {negative : Bool} {body : List Char} (h : '\r' ∉ body) :
    '\r' ∉ signed negative body := by
  cases negative <;> simp [signed, h]

theorem Numeral.return_not_mem {numeral : Numeral} (proper : numeral.IsProper) :
    '\r' ∉ numeral.text := by
  obtain ⟨negative, whole, decimals, power⟩ := numeral
  have before := return_not_mem_digits proper.whole.digits
  have behind := return_not_mem_digits proper.decimals
  have inPower : ∀ p ∈ power, '\r' ∉ p.2 :=
    fun p mem => return_not_mem_digits (proper.power p mem).2
  refine return_not_mem_signed ?_
  rw [List.mem_append, Numeral.tail, List.mem_append]
  dsimp only at before behind ⊢
  rintro (inWhole | inDecimals | inExponent)
  · exact before inWhole
  · split at inDecimals
    · cases inDecimals
    · exact behind (by simpa using inDecimals)
  · cases power with
    | none => cases inExponent
    | some p =>
      have noDigit := inPower p rfl
      obtain ⟨sign, digits⟩ := p
      cases sign <;> simp_all

theorem return_not_mem_writeString (text : String) : '\r' ∉ (writeString text).toList := by
  rw [toList_writeString, List.mem_cons, List.mem_append, List.mem_flatMap, List.mem_singleton]
  rintro (mark | ⟨c, -, mem⟩ | mark)
  · exact absurd mark (by decide)
  · exact ne_return_of_mem_writeCharacter mem rfl
  · exact absurd mark (by decide)

theorem return_not_mem_real (x : Binary64) : '\r' ∉ (writtenLayout.text x).toList := by
  cases meaning : x.meaning with
  | finite negative m q =>
    obtain ⟨numeral, proper, text⟩ := exists_numeral meaning
    rw [text]
    exact numeral.return_not_mem proper
  | infinite negative =>
    rw [Decimal.Layout.text, meaning]
    cases negative <;> simp [writtenLayout]
  | notANumber =>
    rw [Decimal.Layout.text, meaning]
    simp [writtenLayout]

theorem return_not_mem_indentation (level : Nat) : '\r' ∉ (indentation level).toList := by
  rw [toList_indentation]
  simp

theorem return_not_mem_joined (level : Nat) {parts : List String}
    (h : ∀ part ∈ parts, '\r' ∉ part.toList) : '\r' ∉ joined level parts := by
  induction parts with
  | nil => simp [joined]
  | cons part rest ih =>
    rw [List.forall_mem_cons] at h
    have others := ih h.2
    cases rest with
    | nil => exact h.1
    | cons next rest =>
      rw [joined]
      simp [h.1, others, return_not_mem_indentation]

theorem return_not_mem_block {opening closing : String} (level : Nat) {parts : List String}
    (h : ∀ part ∈ parts, '\r' ∉ part.toList) (before : '\r' ∉ opening.toList)
    (behind : '\r' ∉ closing.toList) : '\r' ∉ (block opening closing level parts).toList := by
  by_cases empty : parts = []
  · rw [empty, block, List.isEmpty_nil, if_pos rfl]
    simp [before, behind]
  · rw [toList_block _ _ _ empty]
    simp [before, behind, return_not_mem_indentation, return_not_mem_joined _ h]

mutual

/-- The written form of a value has no carriage return. -/
theorem return_not_mem_indented : ∀ (v : Json) (level : Nat), '\r' ∉ (v.indented level).toList
  | .null, level => by simp [indented]
  | .bool b, level => by cases b <;> simp [indented]
  | .int n, level => by
    rw [indented, toList_toString_int]
    exact return_not_mem_signed (return_not_mem_digits (areDigits_toDigits _))
  | .real x, level => by
    rw [indented]
    exact return_not_mem_real x
  | .str s, level => by
    rw [indented]
    exact return_not_mem_writeString s
  | .arr items, level => by
    rw [indented]
    exact return_not_mem_block _ (return_not_mem_indentedItems items _) (by simp) (by simp)
  | .obj fields, level => by
    rw [indented]
    exact return_not_mem_block _ (return_not_mem_indentedFields fields _) (by simp) (by simp)

theorem return_not_mem_indentedItems : ∀ (items : List Json) (level : Nat),
    ∀ part ∈ indentedItems level items, '\r' ∉ part.toList
  | [], level => by simp [indentedItems]
  | v :: rest, level => by
    rw [indentedItems, List.forall_mem_cons]
    exact ⟨return_not_mem_indented v level, return_not_mem_indentedItems rest level⟩

theorem return_not_mem_indentedFields : ∀ (fields : List (String × Json)) (level : Nat),
    ∀ part ∈ indentedFields level fields, '\r' ∉ part.toList
  | [], level => by simp [indentedFields]
  | (k, v) :: rest, level => by
    rw [indentedFields, List.forall_mem_cons]
    refine ⟨?_, return_not_mem_indentedFields rest level⟩
    simp [return_not_mem_writeString, return_not_mem_indented v level]

end

end Returns

end GrammarChart.Json
