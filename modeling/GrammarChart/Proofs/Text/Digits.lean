import Mathlib
import GrammarChart.Text.Numeral
import GrammarChart.Text.Quoted

/-!
# Digits of numbers

The numeral of a number in some base is made of the digits of that base and of nothing else
(`exists_digitChar_of_mem_toDigits`). What holds of each digit therefore holds of each character of
a numeral. A numeral in base sixteen is filled up to a width, and has just that width when the
number fits it (`length_hexDigits`).
-/

set_option autoImplicit false

namespace GrammarChart.Text

/-- The characters of a numeral are those of its digits. -/
theorem exists_digitChar_of_mem_toDigits {b n : Nat} (hb : 1 < b) {c : Char}
    (h : c ∈ Nat.toDigits b n) : ∃ d < b, c = Nat.digitChar d := by
  induction n using Nat.strongRecOn with
  | ind n ih =>
    rw [Nat.toDigits_eq_if hb] at h
    split at h
    · next small => exact ⟨n, small, List.mem_singleton.mp h⟩
    · next large =>
      rcases List.mem_append.mp h with leading | last
      · have smaller : n / b < n := Nat.div_lt_self (by omega) hb
        exact ih (n / b) smaller leading
      · exact ⟨n % b, Nat.mod_lt n (by omega), List.mem_singleton.mp last⟩

/-- A digit has its value. -/
theorem digitValue?_digitChar {d : Nat} (h : d < 10) : digitValue? (Nat.digitChar d) = some d := by
  have each : ∀ d < 10, digitValue? (Nat.digitChar d) = some d := by decide
  exact each d h

/-- The characters of a decimal numeral are digits. -/
theorem isDigit_of_mem_toDigits {n : Nat} {c : Char} (mem : c ∈ Nat.toDigits 10 n) :
    isDigit c = true := by
  obtain ⟨d, small, rfl⟩ := exists_digitChar_of_mem_toDigits (by decide) mem
  rw [isDigit, digitValue?_digitChar small]
  rfl

/-- A number that fits a width is written with exactly that many digits. -/
theorem length_hexDigits {width n : Nat} (positive : 0 < width) (fits : n < 16 ^ width) :
    (hexDigits width n).length = width := by
  have short := (Nat.length_toDigits_le_iff (b := 16) (n := n) (k := width) (by decide)
    positive).mpr fits
  unfold hexDigits
  rw [List.length_append, List.length_replicate]
  omega

theorem mem_hexDigits {width n : Nat} {c : Char} (h : c ∈ hexDigits width n) :
    c ∈ "0123456789abcdef".toList := by
  unfold hexDigits at h
  rcases List.mem_append.mp h with filled | digit
  · rw [List.eq_of_mem_replicate filled]
    decide
  · obtain ⟨d, small, rfl⟩ := exists_digitChar_of_mem_toDigits (by decide) digit
    have each : ∀ d < 16, Nat.digitChar d ∈ "0123456789abcdef".toList := by decide
    exact each d small

end GrammarChart.Text
