import Mathlib
import GrammarChart.Proofs.Json.RoundTrip

/-!
# Values that were read

A value that was read can be written and read again (`isWritable_of_read`): the reader converts only
numerals that are not too long, and of two fields with the same name it keeps the second in the
place of the first. What was read back can be written once more (`fieldsWritable_readBackFields`).
-/

set_option autoImplicit false

namespace GrammarChart.Json

/-- A computation that ends in a value goes through one before. -/
theorem exists_of_bind_eq_ok {α β : Type} {e : Except Stop α} {next : α → Except Stop β} {b : β}
    (h : (e >>= next) = .ok b) : ∃ a, e = .ok a ∧ next a = .ok b := by
  cases e with
  | error stop => cases h
  | ok a => exact ⟨a, rfl, h⟩

section Fields

theorem isWritable_empty : (obj []).IsWritable :=
  ⟨by simp [Fields.keys], trivial⟩

theorem fieldsWritable_insert {fields : Fields} (h : fieldsWritable fields) (key : String)
    {value : Json} (new : value.IsWritable) : fieldsWritable (fields.insert key value) := by
  induction fields with
  | nil => exact ⟨new, trivial⟩
  | cons field rest ih =>
    obtain ⟨k, v⟩ := field
    rw [Fields.insert]
    split
    · exact ⟨new, h.2⟩
    · exact ⟨h.1, ih h.2⟩

/-- Fields that can be written still can with one more of them. -/
theorem isWritable_insert {fields : Fields} (h : (obj fields).IsWritable) (key : String)
    {value : Json} (new : value.IsWritable) : (obj (fields.insert key value)).IsWritable := by
  refine ⟨?_, fieldsWritable_insert h.2 key new⟩
  rw [Fields.keys_insert]
  split
  · exact h.1
  · next absent =>
    refine List.nodup_append.mpr ⟨h.1, List.nodup_singleton key, ?_⟩
    rintro k mem other same rfl
    exact absent (List.mem_singleton.mp same ▸ mem)

/-- A field of an object that can be written can be written. -/
theorem isWritable_of_get? {fields : Fields} (h : fieldsWritable fields) {key : String}
    {value : Json} (found : fields.get? key = some value) : value.IsWritable := by
  induction fields with
  | nil => cases found
  | cons field rest ih =>
    obtain ⟨k, v⟩ := field
    rw [Fields.get?] at found
    split at found
    · cases found
      exact h.1
    · exact ih h.2 found

/-- The fields of an object with different names are found under their names. -/
theorem get?_of_mem {fields : Fields} {key : String} {value : Json} (apart : fields.keys.Nodup)
    (mem : (key, value) ∈ fields) : fields.get? key = some value := by
  induction fields with
  | nil => cases mem
  | cons field rest ih =>
    obtain ⟨k, v⟩ := field
    rw [Fields.keys, List.map_cons, List.nodup_cons] at apart
    rw [Fields.get?]
    rcases List.mem_cons.mp mem with here | later
    · cases here
      rw [if_pos rfl]
    · have different : k ≠ key := by
        rintro rfl
        exact apart.1 (List.mem_map.mpr ⟨_, later, rfl⟩)
      rw [if_neg different]
      exact ih apart.2 later

/-- A value that is found stands in its field. -/
theorem mem_of_get? {fields : Fields} {key : String} {value : Json}
    (found : fields.get? key = some value) : (key, value) ∈ fields := by
  induction fields with
  | nil => cases found
  | cons field rest ih =>
    obtain ⟨k, v⟩ := field
    rw [Fields.get?] at found
    split at found
    · next same =>
      cases found
      exact same ▸ List.mem_cons_self
    · exact List.mem_cons_of_mem _ (ih found)

end Fields

section Reading

theorem isWritable_of_readName? {text rest : List Char} {value : Json}
    (h : readName? text = some (value, rest)) : value.IsWritable := by
  obtain ⟨⟨name, word⟩, mem, found⟩ := List.exists_of_findSome?_eq_some h
  have plain : word.IsWritable := by
    simp only [names, List.mem_cons, Prod.mk.injEq, List.not_mem_nil, or_false] at mem
    rcases mem with ⟨-, rfl⟩ | ⟨-, rfl⟩ | ⟨-, rfl⟩ | ⟨-, rfl⟩ | ⟨-, rfl⟩ | ⟨-, rfl⟩ <;> trivial
  dsimp only at found
  split at found
  · cases found
    exact plain
  · cases found

/-- Digits spell a number below the power of ten that has one digit more. -/
theorem ofDigits_lt {digits : List Nat} (small : ∀ d ∈ digits, d < 10) :
    Text.Numeral.ofDigits digits < 10 ^ digits.length := by
  induction digits using List.reverseRecOn with
  | nil => simp [Text.Numeral.ofDigits]
  | append_singleton digits d ih =>
    have last : d < 10 := small d (by simp)
    have before := ih fun e mem => small e (List.mem_append_left _ mem)
    rw [Text.Numeral.ofDigits_concat, List.length_append, List.length_singleton, pow_succ]
    omega

/-- A numeral that is converted is not too long. -/
theorem not_isOverlong_of_convert {digits : List Nat} (small : ∀ d ∈ digits, d < 10) {n : Nat}
    (h : Text.Numeral.convert digits = .ok n) : ¬ Text.Numeral.IsOverlong n := by
  unfold Text.Numeral.convert at h
  split at h
  · cases h
  · next short =>
    cases h
    have bound : 10 ^ digits.length ≤ 10 ^ Text.Numeral.maxDigits :=
      Nat.pow_le_pow_right (by decide) (by omega)
    rw [Text.Numeral.IsOverlong, not_le]
    exact (ofDigits_lt small).trans_le bound

theorem digitRun_lt {text : List Char} {d : Nat} (mem : d ∈ (digitRun text).1) : d < 10 := by
  obtain ⟨c, run, rfl⟩ := List.mem_map.mp mem
  have digit : c.isDigit = true := List.mem_takeWhile_imp run
  simp only [Char.isDigit, Bool.and_eq_true, decide_eq_true_eq] at digit
  have bound : c.toNat ≤ 57 := digit.2
  omega

theorem wholePart_lt {text after : List Char} {digits : List Nat}
    (h : wholePart text = some (digits, after)) : ∀ d ∈ digits, d < 10 := by
  unfold wholePart at h
  split at h
  · cases h
    simp
  · dsimp only at h
    split at h
    · cases h
    · cases h
      exact fun d mem => digitRun_lt mem

theorem isWritable_of_readNumber {text rest : List Char} {value : Json}
    (h : readNumber text = .ok (value, rest)) : value.IsWritable := by
  unfold readNumber at h
  dsimp only at h
  split at h
  · cases h
  · next whole afterWhole part =>
    split at h
    · split at h
      · next n converted =>
        have short := not_isOverlong_of_convert (wholePart_lt part) converted
        cases h
        rw [IsWritable]
        split <;> simpa using short
      · cases h
    · cases h
      trivial

mutual

theorem isWritable_of_readValue : ∀ (steps : Nat) {text rest : List Char} {value : Json},
    readValue steps text = .ok (value, rest) → value.IsWritable
  | 0, text, rest, value, h => by
    rw [readValue] at h
    cases h
  | steps + 1, [], rest, value, h => by
    rw [readValue] at h
    cases h
    simp
  | steps + 1, c :: text, rest, value, h => by
    rw [readValue] at h
    split at h
    · obtain ⟨⟨read, after⟩, -, last⟩ := exists_of_bind_eq_ok h
      cases last
      trivial
    · split at h
      · dsimp only at h
        split at h
        · cases h
          exact isWritable_empty
        · obtain ⟨⟨fields, after⟩, read, last⟩ := exists_of_bind_eq_ok h
          cases last
          exact isWritable_of_readFields steps isWritable_empty read
      · split at h
        · dsimp only at h
          split at h
          · cases h
            exact trivial
          · obtain ⟨⟨items, after⟩, read, last⟩ := exists_of_bind_eq_ok h
            cases last
            exact areWritable_of_readItems steps read
        · split at h
          · next found =>
            cases h
            exact isWritable_of_readName? found
          · exact isWritable_of_readNumber h

theorem areWritable_of_readItems : ∀ (steps : Nat) {text rest : List Char} {items : List Json},
    readItems steps text = .ok (items, rest) → areWritable items
  | 0, text, rest, items, h => by
    rw [readItems] at h
    cases h
  | steps + 1, text, rest, items, h => by
    rw [readItems] at h
    obtain ⟨⟨value, after⟩, read, next⟩ := exists_of_bind_eq_ok h
    have first := isWritable_of_readValue steps read
    dsimp only at next
    split at next
    · cases next
      exact ⟨first, trivial⟩
    · obtain ⟨⟨others, last⟩, read', done⟩ := exists_of_bind_eq_ok next
      cases done
      exact ⟨first, areWritable_of_readItems steps read'⟩
    · cases next

theorem isWritable_of_readFields : ∀ (steps : Nat) {before fields : Fields}
    {text rest : List Char}, (obj before).IsWritable →
    readFields steps before text = .ok (fields, rest) → (obj fields).IsWritable
  | 0, before, fields, text, rest, writable, h => by
    rw [readFields] at h
    cases h
  | steps + 1, before, fields, [], rest, writable, h => by
    rw [readFields] at h
    cases h
  | steps + 1, before, fields, c :: text, rest, writable, h => by
    rw [readFields] at h
    split at h
    · cases h
    · obtain ⟨⟨name, afterName⟩, -, next⟩ := exists_of_bind_eq_ok h
      dsimp only at next
      split at next
      · obtain ⟨⟨value, afterValue⟩, read, next⟩ := exists_of_bind_eq_ok next
        have more := isWritable_insert writable (String.ofList name)
          (isWritable_of_readValue steps read)
        dsimp only at next
        split at next
        · cases next
          exact more
        · exact isWritable_of_readFields steps more next
        · cases next
      · cases next

end

/-- A value that was read can be written and read again. -/
theorem isWritable_of_read {text : String} {value : Json} (h : read text = .ok value) :
    value.IsWritable := by
  unfold read at h
  split at h
  · next whole =>
    cases h
    unfold readWhole at whole
    split at whole
    · cases whole
    · obtain ⟨⟨value, rest⟩, read, next⟩ := exists_of_bind_eq_ok whole
      dsimp only at next
      split at next
      · cases next
        exact isWritable_of_readValue _ read
      · cases next
  · cases h
  · cases h

end Reading

section ReadBack

theorem keys_readBackFields (fields : Fields) :
    Fields.keys (readBackFields fields) = fields.keys := by
  induction fields with
  | nil => rfl
  | cons field rest ih =>
    obtain ⟨key, value⟩ := field
    simp only [Fields.keys, readBackFields, List.map_cons] at ih ⊢
    rw [ih]

theorem get?_readBackFields (fields : Fields) (key : String) :
    Fields.get? (readBackFields fields) key = (fields.get? key).map readBack := by
  induction fields with
  | nil => rfl
  | cons field rest ih =>
    obtain ⟨k, v⟩ := field
    rw [readBackFields, Fields.get?, Fields.get?, ih]
    split <;> rfl

mutual

/-- What was read back can be written once more. -/
theorem isWritable_readBack : ∀ v : Json, v.IsWritable → v.readBack.IsWritable
  | .null, h | .bool _, h | .int _, h | .str _, h => h
  | .real _, _ => trivial
  | .arr items, h => areWritable_readBackItems items h
  | .obj fields, h =>
    ⟨(keys_readBackFields fields).symm ▸ h.1, fieldsWritable_readBackFields fields h.2⟩

theorem areWritable_readBackItems : ∀ items : List Json, areWritable items →
    areWritable (readBackItems items)
  | [], _ => trivial
  | v :: rest, h => ⟨isWritable_readBack v h.1, areWritable_readBackItems rest h.2⟩

theorem fieldsWritable_readBackFields : ∀ fields : List (String × Json), fieldsWritable fields →
    fieldsWritable (readBackFields fields)
  | [], _ => trivial
  | (_, v) :: rest, h => ⟨isWritable_readBack v h.1, fieldsWritable_readBackFields rest h.2⟩

end

end ReadBack

end GrammarChart.Json
