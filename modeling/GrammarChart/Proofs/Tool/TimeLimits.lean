import Mathlib
import GrammarChart.Tool.Render

/-!
# Time limits

A whole number of seconds is a time limit unless it is too large in one of three ways
(`TimeLimit.ofInt_eq`). For two of them its milliseconds are compared with what can be counted and
what can be waited. The third is that no finite number of the format binary64 is near it, which
`Binary64.isFinite_ofRatio_one` decides by the place where rounding leaves the format.
-/

set_option autoImplicit false

namespace GrammarChart

theorem twoTo_pos (exponent : Nat) : 0 < twoTo exponent := Nat.two_pow_pos exponent

theorem twoTo_add (a b : Nat) : twoTo (a + b) = twoTo a * twoTo b := Nat.pow_add 2 a b

/-- A logarithm is below the exponents of the powers above the number. -/
theorem log2_lt_iff {n : Nat} (present : n ≠ 0) (exponent : Nat) :
    n.log2 < exponent ↔ n < twoTo exponent := Nat.log2_lt present

namespace Binary64

/-- A quotient is rounded to less than an even number exactly when it is less than halfway below
that number: from there on a half is rounded up to it. -/
theorem roundHalfEven_lt_iff {num den k : Nat} (positive : 0 < den) (even : k % 2 = 0)
    (nonzero : 0 < k) : roundHalfEven num den < k ↔ 2 * num < (2 * k - 1) * den := by
  obtain ⟨low, rem, rfl, small⟩ : ∃ low rem, num = den * low + rem ∧ rem < den :=
    ⟨num / den, num % den, (Nat.div_add_mod num den).symm, Nat.mod_lt num positive⟩
  have quotient : (den * low + rem) / den = low := by
    rw [Nat.mul_add_div positive, Nat.div_eq_of_lt small, Nat.add_zero]
  have remainder : (den * low + rem) % den = rem := by
    rw [Nat.mul_add_mod, Nat.mod_eq_of_lt small]
  have bound : (2 * k - 1) * den = 2 * (den * (k - 1)) + den := by
    obtain ⟨j, rfl⟩ : ∃ j, k = j + 1 := ⟨k - 1, by omega⟩
    rw [show 2 * (j + 1) - 1 = 2 * j + 1 by omega, Nat.add_sub_cancel]
    ring
  rw [bound]
  simp only [roundHalfEven, quotient, remainder]
  -- Only just below `k` does the remainder decide, and there the quotient is odd.
  rcases Nat.lt_trichotomy low (k - 1) with below | same | above
  · have step : den * (low + 1) ≤ den * (k - 1) := Nat.mul_le_mul_left den below
    rw [Nat.mul_succ] at step
    split
    · omega
    · split <;> omega
  · subst same
    split
    · omega
    · split <;> omega
  · have step : den * k ≤ den * low := Nat.mul_le_mul_left den (by omega)
    have whole : den * k = den * (k - 1) + den := by
      rw [← Nat.mul_succ]
      congr 1
      omega
    split
    · omega
    · split <;> omega

/-- Rounding moves to the next whole number at most. -/
theorem roundHalfEven_bounds (num den : Nat) :
    num / den ≤ roundHalfEven num den ∧ roundHalfEven num den ≤ num / den + 1 := by
  simp only [roundHalfEven]
  split
  · omega
  · split <;> omega

/-- A number with a magnitude below that of the infinity is finite. -/
theorem isFinite_ofMagnitude {magnitude : Nat} (negative : Bool)
    (small : magnitude ≤ 2047 * twoTo 52) :
    (ofMagnitude negative magnitude).isFinite = true ↔ magnitude < 2047 * twoTo 52 := by
  have bits : (ofMagnitude negative magnitude).bits.toNat =
      magnitude + if negative then twoTo 63 else 0 := by
    rw [ofMagnitude, UInt64.toNat_ofNat', Nat.mod_eq_of_lt]
    cases negative <;> simp [twoTo] at small ⊢ <;> omega
  rw [isFinite, bits]
  cases negative <;> simp [twoTo] at small ⊢ <;> omega

/-- The exponent of a whole number is its logarithm. -/
theorem binaryExponent_one {n : Nat} (present : n ≠ 0) : binaryExponent n 1 = n.log2 := by
  have reached : 1 * twoTo n.log2 ≤ n := by
    rw [Nat.one_mul]
    exact Nat.log2_self_le present
  have guess : ((n.log2 : Int) - Nat.log2 1 : Int) = n.log2 := by
    rw [show Nat.log2 1 = 0 by decide]
    simp
  simp only [binaryExponent, guess, Int.natCast_nonneg, if_true, Int.toNat_natCast, reached]

/-- The magnitude bits of the number nearest to a whole number, before infinity is looked for. -/
def magnitudeOf (n : Nat) : Nat :=
  (n.log2 + 1022) * twoTo 52 +
    if 52 ≤ n.log2 then roundHalfEven n (twoTo (n.log2 - 52)) else n * twoTo (52 - n.log2)

/-- The number nearest to a whole number has those bits, unless they are too large. -/
theorem ofRatio_one (negative : Bool) {n : Nat} (present : n ≠ 0) : ofRatio negative n 1 =
    if magnitudeOf n < 2047 * twoTo 52 then ofMagnitude negative (magnitudeOf n)
    else infinity negative := by
  have unit : max ((n.log2 : Int) - 52) (-1074) = (n.log2 : Int) - 52 := by omega
  have magnitude : (((n.log2 : Int) - 52) + 1074).toNat * twoTo 52 +
      (if 0 ≤ (n.log2 : Int) - 52 then
        roundHalfEven n (1 * twoTo ((n.log2 : Int) - 52).toNat)
      else roundHalfEven (n * twoTo (-((n.log2 : Int) - 52)).toNat) 1) = magnitudeOf n := by
    have exponent : ((n.log2 : Int) - 52 + 1074).toNat = n.log2 + 1022 := by omega
    rw [exponent, magnitudeOf]
    by_cases large : 52 ≤ n.log2
    · have shift : ((n.log2 : Int) - 52).toNat = n.log2 - 52 := by omega
      rw [if_pos (by omega), if_pos large, shift, Nat.one_mul]
    · have shift : (-((n.log2 : Int) - 52)).toNat = 52 - n.log2 := by omega
      have exact := roundHalfEven_mul (n * twoTo (52 - n.log2)) 1 Nat.one_pos
      rw [Nat.mul_one] at exact
      rw [if_neg (by omega), if_neg large, shift, exact]
  simp only [ofRatio, present, false_or, Nat.one_ne_zero, if_false, binaryExponent_one present, unit,
    magnitude]

/-- The nearest number is finite when the bits are not too large. -/
theorem isFinite_ofRatio_one_iff (negative : Bool) (n : Nat) :
    (ofRatio negative n 1).isFinite = true ↔ n = 0 ∨ magnitudeOf n < 2047 * twoTo 52 := by
  by_cases zero : n = 0
  · subst zero
    rw [ofRatio_zero, isFinite_ofMagnitude negative (Nat.zero_le _)]
    simp [twoTo]
  · rw [ofRatio_one negative zero, or_iff_right zero]
    by_cases small : magnitudeOf n < 2047 * twoTo 52
    · rw [if_pos small, isFinite_ofMagnitude negative small.le]
    · rw [if_neg small, infinity, isFinite_ofMagnitude negative le_rfl]
      exact iff_of_false (Nat.lt_irrefl _) small

/-- The bits are too small for infinity below the highest power of two of the format, and too large
from twice that power on. In between the significand decides. -/
theorem magnitudeOf_lt_iff {n : Nat} (present : n ≠ 0) : magnitudeOf n < 2047 * twoTo 52 ↔
    n.log2 < 1023 ∨ n.log2 = 1023 ∧ roundHalfEven n (twoTo 971) < 2 * twoTo 52 := by
  have low : 2 ^ n.log2 ≤ n := Nat.log2_self_le present
  have high : n < 2 ^ (n.log2 + 1) := Nat.lt_log2_self
  have unit : twoTo 52 = 4503599627370496 := rfl
  rw [magnitudeOf]
  by_cases large : 52 ≤ n.log2
  · rw [if_pos large]
    obtain ⟨shift, exponent⟩ : ∃ shift, n.log2 = 52 + shift := ⟨n.log2 - 52, by omega⟩
    rw [exponent] at low high ⊢
    rw [Nat.add_sub_cancel_left]
    obtain ⟨atLeast, atMost⟩ := roundHalfEven_bounds n (twoTo shift)
    have positive := twoTo_pos shift
    have least : twoTo 52 ≤ n / twoTo shift := by
      rw [Nat.le_div_iff_mul_le positive]
      exact (pow_add 2 52 shift).symm ▸ low
    have most : n / twoTo shift < 2 * twoTo 52 := by
      rw [Nat.div_lt_iff_lt_mul positive]
      refine lt_of_lt_of_eq high ?_
      rw [pow_succ, pow_add]
      show 2 ^ 52 * 2 ^ shift * 2 = 2 * 2 ^ 52 * 2 ^ shift
      ring
    -- From here on the significand is between one and two units, and all is linear.
    rw [unit] at *
    rcases Nat.lt_trichotomy shift 971 with below | rfl | above
    · omega
    · omega
    · omega
  · rw [if_neg large]
    have most : n * twoTo (52 - n.log2) < 2 * twoTo 52 := by
      refine lt_of_lt_of_eq (Nat.mul_lt_mul_of_pos_right high (Nat.two_pow_pos _)) ?_
      show 2 ^ (n.log2 + 1) * 2 ^ (52 - n.log2) = 2 * 2 ^ 52
      rw [← pow_add, ← pow_succ']
      congr 1
      omega
    rw [unit] at *
    omega

/-- A whole number is near a finite number unless it is at least halfway between the largest of
these and the next power of two. -/
theorem isFinite_ofRatio_one (negative : Bool) (n : Nat) :
    (ofRatio negative n 1).isFinite = true ↔ n < twoTo 1024 - twoTo 970 := by
  have positive := twoTo_pos 970
  have unit : twoTo 52 = 4503599627370496 := rfl
  have next : twoTo 53 = 9007199254740992 := rfl
  have top : twoTo 1024 = twoTo 1023 * 2 := twoTo_succ 1023
  have highest : twoTo 1023 = twoTo 53 * twoTo 970 := twoTo_add 53 970
  have step : twoTo 971 = twoTo 970 * 2 := twoTo_succ 970
  rw [isFinite_ofRatio_one_iff]
  by_cases zero : n = 0
  · rw [top, highest, next]
    omega
  · have below := log2_lt_iff zero 1023
    have above := log2_lt_iff zero 1024
    rw [or_iff_right zero, magnitudeOf_lt_iff zero,
      roundHalfEven_lt_iff (twoTo_pos _) (Nat.mul_mod_right ..) (by decide), step, unit]
    rw [top, highest, next] at above ⊢
    rw [highest, next] at below
    omega

end Binary64

namespace Tool.TimeLimit

/-- What keeps a whole number of seconds from being a limit: it has no number of the format near it,
or it has more milliseconds than can be counted, or waited. -/
def problem? (seconds : Int) : Option TimeProblem :=
  if twoTo 1024 - twoTo 970 ≤ seconds.natAbs then some .beyondReal
  else if 9223372036 < seconds then some .beyondClock
  else if 2147483 < seconds then some .beyondWait
  else none

/-- A whole number of seconds is beyond fewer milliseconds. -/
theorem isBeyond_ofInt (milliseconds : Nat) (seconds : Int) :
    isBeyond milliseconds (.ofInt seconds) = decide ((milliseconds : Int) < 1000 * seconds) := by
  have positive : (0 : Int) < twoTo 1074 := Int.natCast_pos.mpr (twoTo_pos 1074)
  rw [Binary64.Place.ofInt, isBeyond, Nat.cast_mul, ← Int.mul_assoc]
  exact decide_eq_decide.mpr (Int.mul_lt_mul_right positive)

/-- A whole number of seconds is a limit unless there is a problem with it. -/
theorem ofInt_eq (seconds : Int) : ofInt seconds =
    (problem? seconds).elim (.ok (.upTo (.ofInt seconds))) fun problem => .error (.badTime problem) := by
  have finite := Binary64.isFinite_ofRatio_one (seconds < 0) seconds.natAbs
  have present : Binary64.Place.ofInt seconds ≠ .highest := by
    rw [Binary64.Place.ofInt]
    exact Binary64.Place.noConfusion
  rw [ofInt, ofPlace, if_neg present, isBeyond_ofInt, isBeyond_ofInt, problem?]
  by_cases far : twoTo 1024 - twoTo 970 ≤ seconds.natAbs
  · rw [if_pos far, if_neg (finite.not.mpr (by omega)), Option.elim_some]
  · rw [if_neg far, if_pos (finite.mpr (by omega))]
    by_cases clock : 9223372036 < seconds
    · have beyond : (maxCounted : Int) < 1000 * seconds := by
        rw [maxCounted]
        omega
      rw [if_pos clock, if_pos (decide_eq_true beyond), Option.elim_some]
    · have counted : ¬ (maxCounted : Int) < 1000 * seconds := by
        rw [maxCounted]
        omega
      have waited : (maxWaited : Int) < 1000 * seconds ↔ 2147483 < seconds := by
        rw [maxWaited]
        omega
      rw [if_neg clock, if_neg (by rwa [decide_eq_true_iff])]
      by_cases wait : 2147483 < seconds
      · rw [if_pos wait, if_pos (decide_eq_true (waited.mpr wait)), Option.elim_some]
      · rw [if_neg wait, if_neg (by rwa [decide_eq_true_iff, waited]), Option.elim_none]

end Tool.TimeLimit
end GrammarChart
