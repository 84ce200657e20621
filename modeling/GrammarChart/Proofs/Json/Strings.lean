import GrammarChart.Json.Reader
import GrammarChart.Json.Writer
import GrammarChart.Proofs.Text.Digits

/-!
# Reading written strings

A written string is read back as the text it was written for, whatever follows it
(`readString_written`). Each character is written in one of four ways, as itself, by a one-letter
escape, by the escape of its unit or by the escapes of a pair of units, and every way takes one step
to read (`readString_writeCharacter`).
-/

set_option autoImplicit false

namespace GrammarChart.Json

/-- The code point of a character is no half of a pair. -/
theorem toNat_range (c : Char) :
    c.toNat < 0xD800 ∨ (0xDFFF < c.toNat ∧ c.toNat < 0x110000) := by
  have valid := c.valid
  rw [UInt32.isValidChar, Nat.isValidChar] at valid
  exact valid

section Units

theorem hexValue?_digitChar {d : Nat} (h : d < 16) : hexValue? (Nat.digitChar d) = some d := by
  have each : ∀ d < 16, hexValue? (Nat.digitChar d) = some d := by decide
  exact each d h

/-- A unit is written with four digits. -/
theorem hexDigits_four {n : Nat} (h : n < 65536) :
    Text.hexDigits 4 n = [Nat.digitChar (n / 4096), Nat.digitChar (n / 256 % 16),
      Nat.digitChar (n / 16 % 16), Nat.digitChar (n % 16)] := by
  have zero : Nat.digitChar 0 = '0' := rfl
  unfold Text.hexDigits
  by_cases one : n < 16
  · rw [Nat.toDigits_eq_if (by decide), if_pos one]
    have h3 : n / 4096 = 0 := by omega
    have h2 : n / 256 % 16 = 0 := by omega
    have h1 : n / 16 % 16 = 0 := by omega
    have h0 : n % 16 = n := by omega
    simp [h3, h2, h1, h0, zero, List.replicate]
  by_cases two : n < 256
  · rw [Nat.toDigits_eq_if (by decide), if_neg one, Nat.toDigits_eq_if (by decide),
      if_pos (by omega)]
    have h3 : n / 4096 = 0 := by omega
    have h2 : n / 256 % 16 = 0 := by omega
    have h1 : n / 16 % 16 = n / 16 := by omega
    simp [h3, h2, h1, zero, List.replicate]
  by_cases three : n < 4096
  · rw [Nat.toDigits_eq_if (by decide), if_neg one, Nat.toDigits_eq_if (by decide),
      if_neg (by omega), Nat.toDigits_eq_if (by decide), if_pos (by omega)]
    have h3 : n / 4096 = 0 := by omega
    have h2 : n / 256 % 16 = n / 16 / 16 := by omega
    simp [h3, h2, zero]
  · rw [Nat.toDigits_eq_if (by decide), if_neg one, Nat.toDigits_eq_if (by decide),
      if_neg (by omega), Nat.toDigits_eq_if (by decide), if_neg (by omega),
      Nat.toDigits_eq_if (by decide), if_pos (by omega)]
    have h3 : n / 4096 = n / 16 / 16 / 16 := by omega
    have h2 : n / 256 % 16 = n / 16 / 16 % 16 := by omega
    simp [h3, h2]

/-- The digits of a unit spell it. -/
theorem unit?_hexDigits {n : Nat} (h : n < 65536) (rest : List Char) :
    unit? (Text.hexDigits 4 n ++ rest) = some n := by
  have h3 : n / 4096 < 16 := by omega
  have h2 : n / 256 % 16 < 16 := by omega
  have h1 : n / 16 % 16 < 16 := by omega
  have h0 : n % 16 < 16 := by omega
  have sum : ((n / 4096 * 16 + n / 256 % 16) * 16 + n / 16 % 16) * 16 + n % 16 = n := by omega
  rw [hexDigits_four h]
  simp [unit?, hexValue?_digitChar, h3, h2, h1, h0, sum]

theorem length_hexDigits_four {n : Nat} (h : n < 65536) : (Text.hexDigits 4 n).length = 4 :=
  Text.length_hexDigits (by decide) h

theorem drop_hexDigits {n : Nat} (h : n < 65536) (rest : List Char) :
    (Text.hexDigits 4 n ++ rest).drop 4 = rest :=
  List.drop_left' (length_hexDigits_four h)

/-- The escape of a unit that needs no partner is read as its character. -/
theorem readUnits_single {n : Nat} (small : n < 65536) (single : n < 0xD800 ∨ 0xDFFF < n)
    {rest : List Char} (more : rest ≠ []) :
    readUnits (Text.hexDigits 4 n ++ rest) = .ok (Char.ofNat n, rest) := by
  have long : ¬ (Text.hexDigits 4 n ++ rest).length ≤ 4 := by
    have := List.length_pos_of_ne_nil more
    rw [List.length_append, length_hexDigits_four small]
    omega
  have notHigh : isHighUnit n = false := by
    simp only [isHighUnit, Bool.and_eq_false_iff, decide_eq_false_iff_not]
    omega
  have notLow : isLowUnit n = false := by
    simp only [isLowUnit, Bool.and_eq_false_iff, decide_eq_false_iff_not]
    omega
  unfold readUnits
  rw [if_neg long, unit?_hexDigits small, drop_hexDigits small]
  simp [notHigh, characterOfUnit, notLow]

/-- The escapes of a pair of units are read as one character. -/
theorem readUnits_pair {high low : Nat} (hh : 0xD800 ≤ high ∧ high < 0xDC00)
    (hl : 0xDC00 ≤ low ∧ low < 0xE000) {rest : List Char} (more : rest ≠ []) :
    readUnits (Text.hexDigits 4 high ++ (escapeUnit low ++ rest)) =
      .ok (Char.ofNat (0x10000 + (high - 0xD800) * 0x400 + (low - 0xDC00)), rest) := by
  have small : high < 65536 := by omega
  have small' : low < 65536 := by omega
  have positive := List.length_pos_of_ne_nil more
  have long : ¬ (Text.hexDigits 4 high ++ (escapeUnit low ++ rest)).length ≤ 4 := by
    rw [List.length_append, length_hexDigits_four small]
    simp [escapeUnit]
  have isHigh : isHighUnit high = true := by
    simp only [isHighUnit, Bool.and_eq_true, decide_eq_true_eq]
    omega
  have isLow : isLowUnit low = true := by
    simp only [isLowUnit, Bool.and_eq_true, decide_eq_true_eq]
    omega
  have behind : 6 < (escapeUnit low ++ rest).length := by
    rw [List.length_append, escapeUnit, List.length_cons, List.length_cons,
      length_hexDigits_four small']
    omega
  unfold readUnits
  rw [if_neg long, unit?_hexDigits small, drop_hexDigits small]
  simp only [isHigh, behind, decide_true, Bool.and_true, if_true]
  simp only [escapeUnit, List.cons_append, unit?_hexDigits small', isLow, if_true,
    drop_hexDigits small']

theorem escapeUnit_append (n : Nat) (rest : List Char) :
    escapeUnit n ++ rest = '\\' :: 'u' :: (Text.hexDigits 4 n ++ rest) := by
  simp only [escapeUnit, List.cons_append]

end Units

section Strings

/-- The four ways in which a character is written. -/
inductive IsWrittenAs (c : Char) : List Char → Prop
  | plain (apart : c ≠ Text.doubleMark ∧ c ≠ '\\') (printable : 0x20 ≤ c.toNat ∧ c.toNat < 0x7F) :
    IsWrittenAs c [c]
  | short (letter : Char) (noUnit : letter ≠ 'u') (noReturn : letter ≠ '\r')
    (stands : escaped? letter = some c) : IsWrittenAs c ['\\', letter]
  | single (unit : Nat) (small : unit < 0x10000) (alone : unit < 0xD800 ∨ 0xDFFF < unit)
    (stands : Char.ofNat unit = c) : IsWrittenAs c (escapeUnit unit)
  | pair (high low : Nat) (isHigh : 0xD800 ≤ high ∧ high < 0xDC00)
    (isLow : 0xDC00 ≤ low ∧ low < 0xE000)
    (stands : Char.ofNat (0x10000 + (high - 0xD800) * 0x400 + (low - 0xDC00)) = c) :
    IsWrittenAs c (escapeUnit high ++ escapeUnit low)

/-- Every character is written in one of these ways. -/
theorem isWrittenAs_writeCharacter (c : Char) : IsWrittenAs c (writeCharacter c) := by
  have bounds := toNat_range c
  unfold writeCharacter
  split
  · next marks =>
    have either : c = Text.doubleMark ∨ c = '\\' := by simpa using marks
    rcases either with rfl | rfl
    · exact .short _ (by decide) (by decide) rfl
    · exact .short _ (by decide) (by decide) rfl
  split
  · next h => exact .short _ (by decide) (by decide) (by rw [show c = '\n' by simpa using h]; rfl)
  split
  · next h => exact .short _ (by decide) (by decide) (by rw [show c = '\r' by simpa using h]; rfl)
  split
  · next h => exact .short _ (by decide) (by decide) (by rw [show c = '\t' by simpa using h]; rfl)
  split
  · next h => exact .short _ (by decide) (by decide) (by rw [show c = '\x0c' by simpa using h]; rfl)
  split
  · next h => exact .short _ (by decide) (by decide) (by rw [show c = '\x08' by simpa using h]; rfl)
  split
  · next marks _ _ _ _ _ printable => exact .plain (by simpa using marks) printable
  split
  · next basic => exact .single _ basic (by omega) (Char.ofNat_toNat c)
  · next beyond =>
    refine .pair _ _ (by omega) (by omega) ?_
    have whole : 0x10000 + (0xD800 + (c.toNat - 0x10000) / 0x400 - 0xD800) * 0x400 +
        (0xDC00 + (c.toNat - 0x10000) % 0x400 - 0xDC00) = c.toNat := by omega
    rw [whole, Char.ofNat_toNat]

/-- One character is read in one step, before anything that follows it. -/
theorem readString_writeCharacter (opened steps : Nat) (c : Char) {rest : List Char}
    (more : rest ≠ []) : readString opened (steps + 1) (writeCharacter c ++ rest) =
      (readString opened steps rest).map fun read => (c :: read.1, read.2) := by
  have escape {after : List Char} (h : readEscape opened after = .ok (c, rest)) :
      readString opened (steps + 1) ('\\' :: after) =
        (readString opened steps rest).map fun read => (c :: read.1, read.2) := by
    rw [readString, if_neg (by decide), if_pos (by decide), h]
    simp only [bind, Except.bind]
    cases readString opened steps rest <;> rfl
  have written := isWrittenAs_writeCharacter c
  generalize writeCharacter c = letters at written ⊢
  cases written with
  | plain apart printable =>
    rw [List.singleton_append, readString, if_neg (by simpa using apart.1),
      if_neg (by simpa using apart.2), if_neg (by omega)]
    cases readString opened steps rest <;> rfl
  | short letter noUnit noReturn stands =>
    rw [List.cons_append, List.singleton_append]
    refine escape ?_
    rw [readEscape, if_neg (by simpa using noUnit), stands]
  | single unit small alone stands =>
    rw [escapeUnit_append]
    refine escape ?_
    rw [readEscape, if_pos (by decide), readUnits_single small alone more, stands]
  | pair high low isHigh isLow stands =>
    rw [List.append_assoc, escapeUnit_append high]
    refine escape ?_
    rw [readEscape, if_pos (by decide), readUnits_pair isHigh isLow more, stands]

/-- A written string is read back, whatever follows it. -/
theorem readString_written (opened : Nat) (text rest : List Char) :
    ∀ {steps : Nat}, text.length < steps →
      readString opened steps (text.flatMap writeCharacter ++ Text.doubleMark :: rest) =
        .ok (text, rest) := by
  induction text with
  | nil =>
    intro steps enough
    obtain ⟨steps, rfl⟩ := Nat.exists_eq_succ_of_ne_zero (Nat.ne_of_gt enough)
    rw [List.flatMap_nil, List.nil_append, readString, if_pos (by decide)]
  | cons c others ih =>
    intro steps enough
    rw [List.length_cons] at enough
    obtain ⟨steps, rfl⟩ := Nat.exists_eq_succ_of_ne_zero (n := steps) (by omega)
    rw [List.flatMap_cons, List.append_assoc, readString_writeCharacter _ _ _ (by simp),
      ih (by omega), Except.map]

theorem length_writeCharacter_pos (c : Char) : 0 < (writeCharacter c).length := by
  have written := isWrittenAs_writeCharacter c
  generalize writeCharacter c = letters at written ⊢
  cases written <;> simp [escapeUnit]

theorem length_le_flatMap_writeCharacter (text : List Char) :
    text.length ≤ (text.flatMap writeCharacter).length := by
  induction text with
  | nil => simp
  | cons c rest ih =>
    have := length_writeCharacter_pos c
    rw [List.flatMap_cons, List.length_append, List.length_cons]
    omega

/-- A written string is the quotation mark, its written characters and the mark again. -/
theorem toList_writeString (text : String) : (writeString text).toList =
    Text.doubleMark :: (text.toList.flatMap writeCharacter ++ [Text.doubleMark]) := by
  simp [writeString]

/-- The string at the start of a text is read with as many steps as characters are left. -/
theorem readString_writeString (text : String) (rest : List Char) :
    let inner := text.toList.flatMap writeCharacter ++ Text.doubleMark :: rest
    readString (inner.length + 1) (inner.length + 1) inner = .ok (text.toList, rest) := by
  intro inner
  refine readString_written _ _ _ ?_
  have := length_le_flatMap_writeCharacter text.toList
  simp only [inner, List.length_append]
  omega

/-- A carriage return is never written as itself. -/
theorem ne_return_of_mem_writeCharacter {c d : Char} (h : d ∈ writeCharacter c) : d ≠ '\r' := by
  have inEscape {unit : Nat} (small : unit < 0x10000) (mem : d ∈ escapeUnit unit) : d ≠ '\r' := by
    have digit (k : Nat) (hk : k < 16) : Nat.digitChar k ≠ '\r' := by
      have each : ∀ k < 16, Nat.digitChar k ≠ '\r' := by decide
      exact each k hk
    rw [escapeUnit, hexDigits_four small] at mem
    simp only [List.mem_cons, List.not_mem_nil, or_false] at mem
    rcases mem with rfl | rfl | rfl | rfl | rfl | rfl
    · decide
    · decide
    · exact digit _ (by omega)
    · exact digit _ (by omega)
    · exact digit _ (by omega)
    · exact digit _ (by omega)
  have written := isWrittenAs_writeCharacter c
  generalize writeCharacter c = letters at written h
  cases written with
  | plain apart printable =>
    rintro rfl
    rw [List.mem_singleton] at h
    rw [← h] at printable
    exact absurd printable (by decide)
  | short letter noUnit noReturn stands =>
    simp only [List.mem_cons, List.not_mem_nil, or_false] at h
    rcases h with rfl | rfl
    · decide
    · exact noReturn
  | single unit small alone stands => exact inEscape small h
  | pair high low isHigh isLow stands =>
    rcases List.mem_append.mp h with first | second
    · exact inEscape (by omega) first
    · exact inEscape (by omega) second

end Strings

end GrammarChart.Json
