import Mathlib
import GrammarChart.Json.Writer
import GrammarChart.Proofs.Document.Addresses

/-!
# Reading written numbers

A whole number is read back from its numeral, unless the numeral has too many digits to convert
(`readNumber_int`). A number with a fraction is written as a `Numeral`: a sign, digits before the
point, and a fraction or an exponent or both (`exists_numeral`); such a numeral is always read, as
the number that it rounds to (`Numeral.readNumber`). Both hold before any text that can follow a
value.
-/

set_option autoImplicit false

namespace GrammarChart.Json

/-- The text can follow a written value: it starts with a comma or a line end, or is empty. -/
def Follows (rest : List Char) : Prop :=
  ∀ c ∈ rest.head?, c = ',' ∨ c = '\n'

/-- The characters are decimal digits. -/
def AreDigits (text : List Char) : Prop :=
  ∀ c ∈ text, c.isDigit = true

/-- The digits before a point: some of them, and no zero before another digit. -/
structure IsWhole (text : List Char) : Prop where
  nonempty : text ≠ []
  digits : AreDigits text
  start : text = ['0'] ∨ text.head? ≠ some '0'

/-- The number that a digit stands for. -/
def digitOf (c : Char) : Nat :=
  c.toNat - 48

section Digits

theorem isDigit_digitChar {d : Nat} (h : d < 10) : (Nat.digitChar d).isDigit = true := by
  have each : ∀ d < 10, (Nat.digitChar d).isDigit = true := by decide
  exact each d h

theorem digitOf_digitChar {d : Nat} (h : d < 10) : digitOf (Nat.digitChar d) = d := by
  have each : ∀ d < 10, digitOf (Nat.digitChar d) = d := by decide
  exact each d h

theorem areDigits_toDigits (n : Nat) : AreDigits (Nat.toDigits 10 n) := by
  intro c mem
  obtain ⟨d, small, rfl⟩ := Text.exists_digitChar_of_mem_toDigits (by decide) mem
  exact isDigit_digitChar small

/-- The numeral of a positive number does not start with a zero. -/
theorem head?_toDigits {n : Nat} (h : 0 < n) : (Nat.toDigits 10 n).head? ≠ some '0' := by
  induction n using Nat.strongRecOn with
  | ind n ih =>
    rw [Nat.toDigits_eq_if (by decide)]
    split
    · next small =>
      have each : ∀ d < 10, 0 < d → Nat.digitChar d ≠ '0' := by decide
      simpa using each n small h
    · have positive : 0 < n / 10 := by omega
      rw [List.head?_append_of_ne_nil _ Nat.toDigits_ne_nil]
      exact ih (n / 10) (by omega) positive

theorem isWhole_toDigits (n : Nat) : IsWhole (Nat.toDigits 10 n) := by
  refine ⟨Nat.toDigits_ne_nil, areDigits_toDigits n, ?_⟩
  rcases Nat.eq_zero_or_pos n with rfl | positive
  · exact .inl rfl
  · exact .inr (head?_toDigits positive)

/-- The digits of a number spell it. -/
theorem ofDigits_map_toDigits (n : Nat) :
    Text.Numeral.ofDigits ((Nat.toDigits 10 n).map digitOf) = n := by
  have same : (Nat.toDigits 10 n).map digitOf = indexDigits n := by
    rw [indexDigits, ← List.filterMap_eq_map]
    refine List.filterMap_congr fun c mem => ?_
    obtain ⟨d, small, rfl⟩ := Text.exists_digitChar_of_mem_toDigits (by decide) mem
    rw [Text.digitValue?_digitChar small, Function.comp_apply, digitOf_digitChar small]
  rw [same, ofDigits_indexDigits]

/-- The digits of a number are converted to it, unless there are too many of them. -/
theorem convert_toDigits {n : Nat} (short : ¬ Text.Numeral.IsOverlong n) :
    Text.Numeral.convert ((Nat.toDigits 10 n).map digitOf) = .ok n := by
  have few : (Nat.toDigits 10 n).length ≤ Text.Numeral.maxDigits := by
    rw [Nat.length_toDigits_le_iff (by decide) (by decide)]
    rw [Text.Numeral.IsOverlong] at short
    omega
  unfold Text.Numeral.convert
  rw [List.length_map, if_neg (by omega), ofDigits_map_toDigits]

end Digits

section Parts

variable {rest : List Char}

/-- A run of digits ends before a character that is no digit. -/
theorem digitRun_append {digits : List Char} (all : AreDigits digits)
    (stop : ∀ c ∈ rest.head?, c.isDigit = false) :
    digitRun (digits ++ rest) = (digits.map digitOf, rest) := by
  have none : rest.takeWhile Char.isDigit = [] := by
    cases rest with
    | nil => rfl
    | cons c others => rw [List.takeWhile_cons, stop c rfl]; rfl
  have same : rest.dropWhile Char.isDigit = rest := by
    cases rest with
    | nil => rfl
    | cons c others => rw [List.dropWhile_cons, stop c rfl]; rfl
  unfold digitRun
  rw [List.takeWhile_append_of_pos all, List.dropWhile_append_of_pos all, none, same,
    List.append_nil]
  rfl

theorem wholePart_append {whole : List Char} (h : IsWhole whole)
    (stop : ∀ c ∈ rest.head?, c.isDigit = false) :
    wholePart (whole ++ rest) = some (whole.map digitOf, rest) := by
  rcases h.start with rfl | start
  · rfl
  · obtain ⟨c, others, rfl⟩ := List.exists_cons_of_ne_nil h.nonempty
    have noZero : c ≠ '0' := by simpa using start
    have run := digitRun_append h.digits stop
    unfold wholePart
    split
    · next heq =>
      rw [List.cons_append, List.cons.injEq] at heq
      exact absurd heq.1 noZero
    · rw [run]
      rfl

theorem fraction_append {digits : List Char} (some' : digits ≠ []) (all : AreDigits digits)
    (stop : ∀ c ∈ rest.head?, c.isDigit = false) :
    fraction ('.' :: (digits ++ rest)) = some (digits.map digitOf, rest) := by
  unfold fraction
  simp only [digitRun_append all stop]
  rw [if_neg (by simpa using some')]

theorem fraction_eq_none (h : rest.head? ≠ some '.') : fraction rest = none := by
  unfold fraction
  split
  · exact absurd rfl h
  · rfl

theorem exponent_append {digits : List Char} (negative : Bool) (some' : digits ≠ [])
    (all : AreDigits digits) (stop : ∀ c ∈ rest.head?, c.isDigit = false) :
    exponent ('e' :: (if negative then '-' else '+') :: (digits ++ rest)) =
      some (if negative then -(Text.Numeral.ofDigits (digits.map digitOf) : Int)
        else Text.Numeral.ofDigits (digits.map digitOf), rest) := by
  cases negative <;>
    simp [exponent, digitRun_append all stop, some']

theorem exponent_eq_none (h : rest.head? ≠ some 'e') (h' : rest.head? ≠ some 'E') :
    exponent rest = none := by
  cases rest with
  | nil => rfl
  | cons c others =>
    have small : c ≠ 'e' := by simpa using h
    have large : c ≠ 'E' := by simpa using h'
    simp [exponent, small, large]

theorem Follows.stop (h : Follows rest) : ∀ c ∈ rest.head?, c.isDigit = false := by
  intro c mem
  rcases h c mem with rfl | rfl <;> decide

theorem Follows.ne {c : Char} (h : Follows rest) (comma : c ≠ ',') (line : c ≠ '\n') :
    rest.head? ≠ some c := by
  intro starts
  rcases h c starts with rfl | rfl
  · exact comma rfl
  · exact line rfl

end Parts

/-- A text with a minus sign before it, if there is one. -/
def signed (negative : Bool) (body : List Char) : List Char :=
  if negative then '-' :: body else body

/-- The digits before the point are read first; what follows them decides between the two kinds of
numbers. -/
theorem readNumber_signed (negative : Bool) {whole after : List Char} (h : IsWhole whole)
    (stop : ∀ c ∈ after.head?, c.isDigit = false) :
    readNumber (signed negative (whole ++ after)) =
      let part := fraction after
      let (decimals, afterFraction) := part.getD ([], after)
      let power := exponent afterFraction
      let (shift, rest) := power.getD (0, afterFraction)
      if part.isNone && power.isNone then
        match Text.Numeral.convert (whole.map digitOf) with
        | .ok n => .ok (.int (if negative then -(n : Int) else n), rest)
        | .error _ => .error (.numeralTooLong (whole.map digitOf).length)
      else
        .ok (.real (Binary64.ofDecimal negative
          (Text.Numeral.ofDigits (whole.map digitOf ++ decimals)) (shift - decimals.length)),
          rest) := by
  have part := wholePart_append h stop
  obtain ⟨c, others, rfl⟩ := List.exists_cons_of_ne_nil h.nonempty
  cases negative with
  | true =>
    unfold readNumber signed
    simp only [if_true, part] <;> rfl
  | false =>
    have digit := h.digits c List.mem_cons_self
    have noMinus : c ≠ '-' := by
      rintro rfl
      exact absurd digit (by decide)
    rw [List.cons_append] at part ⊢
    show readNumber (c :: (others ++ after)) = _
    unfold readNumber
    split
    next negative body sign =>
    have unsigned : negative = false ∧ body = c :: (others ++ after) := by
      split at sign
      · next heq => exact absurd (List.cons.inj heq).1 noMinus
      · exact ⟨(congrArg Prod.fst sign).symm, (congrArg Prod.snd sign).symm⟩
    obtain ⟨rfl, rfl⟩ := unsigned
    simp only [part] <;> rfl

theorem toList_toString_int (n : Int) :
    (toString n).toList = signed (decide (n < 0)) (Nat.toDigits 10 n.natAbs) := by
  cases n with
  | ofNat m =>
    have sign : ¬ (Int.ofNat m < 0) := by simp
    rw [decide_eq_false sign]
    show (Nat.repr m).toList = _
    simp [Nat.repr, signed]
  | negSucc m =>
    rw [decide_eq_true (Int.negSucc_lt_zero m)]
    show ("-" ++ Nat.repr (m + 1)).toList = _
    simp [Nat.repr, signed, Int.natAbs]

/-- A whole number is read back from its numeral. -/
theorem readNumber_int (n : Int) (short : ¬ Text.Numeral.IsOverlong n.natAbs) {rest : List Char}
    (follows : Follows rest) :
    readNumber ((toString n).toList ++ rest) = .ok (.int n, rest) := by
  have whole : signed (decide (n < 0)) (Nat.toDigits 10 n.natAbs) ++ rest =
      signed (decide (n < 0)) (Nat.toDigits 10 n.natAbs ++ rest) := by
    cases decide (n < 0) <;> rfl
  have noPoint := fraction_eq_none (follows.ne (c := '.') (by decide) (by decide))
  have noPower := exponent_eq_none (follows.ne (c := 'e') (by decide) (by decide))
    (follows.ne (c := 'E') (by decide) (by decide))
  have value : (if decide (n < 0) = true then -(n.natAbs : Int) else n.natAbs) = n := by
    by_cases negative : n < 0
    · rw [if_pos (decide_eq_true negative)]
      omega
    · rw [if_neg (by simpa using negative)]
      omega
  rw [toList_toString_int, whole, readNumber_signed _ (isWhole_toDigits _) follows.stop]
  simp only [noPoint, Option.getD_none, noPower, convert_toDigits short, value]
  rfl

/-- A numeral of a number with a fraction or an exponent. -/
structure Numeral where
  negative : Bool
  whole : List Char
  decimals : List Char
  power : Option (Bool × List Char)

namespace Numeral

/-- The numeral has digits in each of its parts, and a fraction or an exponent. -/
structure IsProper (numeral : Numeral) : Prop where
  whole : IsWhole numeral.whole
  decimals : AreDigits numeral.decimals
  power : ∀ p ∈ numeral.power, p.2 ≠ [] ∧ AreDigits p.2
  isReal : numeral.decimals ≠ [] ∨ numeral.power ≠ none

/-- What stands behind the digits before the point. -/
def tail (numeral : Numeral) : List Char :=
  (if numeral.decimals = [] then [] else '.' :: numeral.decimals) ++
    match numeral.power with
    | none => []
    | some (negative, digits) => 'e' :: (if negative then '-' else '+') :: digits

/-- The characters of the numeral. -/
def text (numeral : Numeral) : List Char :=
  signed numeral.negative (numeral.whole ++ numeral.tail)

/-- The exponent of the numeral. -/
def shift (numeral : Numeral) : Int :=
  match numeral.power with
  | none => 0
  | some (negative, digits) =>
    let value : Int := Text.Numeral.ofDigits (digits.map digitOf)
    if negative then -value else value

/-- The number that the numeral rounds to. -/
def value (numeral : Numeral) : Binary64 :=
  .ofDecimal numeral.negative
    (Text.Numeral.ofDigits (numeral.whole.map digitOf ++ numeral.decimals.map digitOf))
    (numeral.shift - numeral.decimals.length)

/-- A numeral is read as the number that it rounds to. -/
theorem readNumber {numeral : Numeral} (proper : numeral.IsProper) {rest : List Char}
    (follows : Follows rest) :
    Json.readNumber (numeral.text ++ rest) = .ok (.real numeral.value, rest) := by
  obtain ⟨negative, whole, decimals, power⟩ := numeral
  have text : signed negative (whole ++ tail ⟨negative, whole, decimals, power⟩) ++ rest =
      signed negative (whole ++ (tail ⟨negative, whole, decimals, power⟩ ++ rest)) := by
    cases negative <;> simp [signed]
  have noPoint := fraction_eq_none (follows.ne (c := '.') (by decide) (by decide))
  have noPower := exponent_eq_none (follows.ne (c := 'e') (by decide) (by decide))
    (follows.ne (c := 'E') (by decide) (by decide))
  have behind : ∀ (negative : Bool) (digits : List Char), ∀ c ∈ ('e' ::
      (if negative then '-' else '+') :: (digits ++ rest)).head?, c.isDigit = false := by
    intro negative digits c mem
    rw [List.head?_cons, Option.mem_some_iff] at mem
    rw [← mem]
    decide
  have point : ∀ text : List Char, ∀ c ∈ ('.' :: text).head?, c.isDigit = false := by
    intro text c mem
    rw [List.head?_cons, Option.mem_some_iff] at mem
    rw [← mem]
    decide
  unfold Numeral.text
  rw [text]
  -- A numeral of a real number has a fraction, an exponent or both, so three forms are read.
  by_cases empty : decimals = []
  · subst empty
    cases power with
    | none => exact absurd proper.isReal (by simp)
    | some p =>
      obtain ⟨sign, digits⟩ := p
      obtain ⟨nonempty, all⟩ := proper.power _ rfl
      have tail : tail ⟨negative, whole, [], some (sign, digits)⟩ ++ rest =
          'e' :: (if sign then '-' else '+') :: (digits ++ rest) := by
        simp [Numeral.tail]
      have noPoint' : fraction ('e' :: (if sign then '-' else '+') :: (digits ++ rest)) = none :=
        fraction_eq_none (by simp)
      rw [tail, readNumber_signed _ proper.whole (behind sign digits)]
      simp only [noPoint', Option.getD_none, exponent_append sign nonempty all follows.stop,
        Option.getD_some, Option.isNone_some, Bool.and_false, Bool.false_eq_true, if_false]
      simp [value, shift]
  · cases power with
    | none =>
      have tail : tail ⟨negative, whole, decimals, none⟩ ++ rest = '.' :: (decimals ++ rest) := by
        simp [Numeral.tail, empty]
      rw [tail, readNumber_signed _ proper.whole (point _)]
      simp only [fraction_append empty proper.decimals follows.stop, Option.getD_some, noPower,
        Option.getD_none, Option.isNone_some, Bool.false_and, Bool.false_eq_true, if_false]
      simp [value, shift]
    | some p =>
      obtain ⟨sign, digits⟩ := p
      obtain ⟨nonempty, all⟩ := proper.power _ rfl
      have tail : tail ⟨negative, whole, decimals, some (sign, digits)⟩ ++ rest =
          '.' :: (decimals ++ ('e' :: (if sign then '-' else '+') :: (digits ++ rest))) := by
        simp [Numeral.tail, empty]
      rw [tail, readNumber_signed _ proper.whole (point _)]
      simp only [fraction_append empty proper.decimals (behind sign digits), Option.getD_some,
        exponent_append sign nonempty all follows.stop, Option.isNone_some, Bool.false_and,
        Bool.false_eq_true, if_false]
      simp [value, shift]

end Numeral

section Layout

open Decimal

theorem areDigits_append {text other : List Char} (h : AreDigits text) (h' : AreDigits other) :
    AreDigits (text ++ other) := by
  intro c mem
  rcases List.mem_append.mp mem with left | right
  · exact h c left
  · exact h' c right

theorem areDigits_zeros (n : Nat) : AreDigits (List.replicate n '0') := by
  intro c mem
  rw [List.eq_of_mem_replicate mem]
  decide

/-- The digits without the zeros at their end are the digits up to some place. -/
theorem dropTrailingZeros_prefix (digits : List Char) : dropTrailingZeros digits <+: digits := by
  have suffix := List.dropWhile_suffix (l := digits.reverse) (· == '0')
  have := List.reverse_prefix.mpr suffix
  rwa [List.reverse_reverse] at this

theorem dropTrailingZeros_ne_nil {digits : List Char} {c : Char} (mem : c ∈ digits)
    (h : c ≠ '0') : dropTrailingZeros digits ≠ [] := by
  intro empty
  have none : digits.reverse.dropWhile (· == '0') = [] := List.reverse_eq_nil_iff.mp empty
  rw [List.dropWhile_eq_nil_iff] at none
  exact h (by simpa using none c (List.mem_reverse.mpr mem))

/-- The digits of a positive number without the zeros at their end can stand before a point. -/
theorem isWhole_dropTrailingZeros {n : Nat} (h : 0 < n) :
    IsWhole (dropTrailingZeros (Nat.toDigits 10 n)) ∧
      (dropTrailingZeros (Nat.toDigits 10 n)).head? ≠ some '0' := by
  have before := dropTrailingZeros_prefix (Nat.toDigits 10 n)
  have start := head?_toDigits h
  obtain ⟨c, others, digits⟩ := List.exists_cons_of_ne_nil (Nat.toDigits_ne_nil (b := 10) (n := n))
  have noZero : c ≠ '0' := by simpa [digits] using start
  have nonempty : dropTrailingZeros (Nat.toDigits 10 n) ≠ [] :=
    dropTrailingZeros_ne_nil (digits ▸ List.mem_cons_self) noZero
  have head : (dropTrailingZeros (Nat.toDigits 10 n)).head? = some c := by
    obtain ⟨after, whole⟩ := before
    rw [← List.head?_append_of_ne_nil _ nonempty, whole, digits]
    rfl
  refine ⟨⟨nonempty, fun d mem => areDigits_toDigits n d (before.subset mem), ?_⟩, ?_⟩
  · right
    rw [head]
    simpa using noZero
  · rw [head]
    simpa using noZero

theorem take_isWhole {digits : List Char} {k : Nat} (h : IsWhole digits)
    (start : digits.head? ≠ some '0') (positive : 0 < k) : IsWhole (digits.take k) := by
  obtain ⟨c, others, rfl⟩ := List.exists_cons_of_ne_nil h.nonempty
  obtain ⟨k, rfl⟩ := Nat.exists_eq_succ_of_ne_zero (Nat.ne_of_gt positive)
  refine ⟨by simp, fun d mem => h.digits d (List.mem_of_mem_take mem), .inr ?_⟩
  simpa using start

/-- Digits that can stand before a point are laid out as a numeral. -/
theorem exists_numeral_place (layout : Layout) {digits : List Char} (h : IsWhole digits)
    (start : digits.head? ≠ some '0') (point : Int) (negative : Bool) :
    ∃ numeral : Numeral, numeral.IsProper ∧ numeral.negative = negative ∧
      (layout.place digits point).toList = numeral.whole ++ numeral.tail := by
  have positive := List.length_pos_of_ne_nil h.nonempty
  have noPower : ∀ p ∈ (none : Option (Bool × List Char)), p.2 ≠ [] ∧ AreDigits p.2 := by simp
  unfold Layout.place
  dsimp only
  split
  · split
    · -- The number is less than one.
      refine ⟨⟨negative, ['0'], List.replicate (-point).toNat '0' ++ digits, none⟩,
        ⟨⟨by simp, by simp [AreDigits], .inl rfl⟩,
          areDigits_append (areDigits_zeros _) h.digits, noPower, .inl ?_⟩, rfl, ?_⟩
      · simp [h.nonempty]
      · simp [Numeral.tail, h.nonempty]
    · split
      · -- The number is whole.
        refine ⟨⟨negative, digits ++ List.replicate (point - digits.length).toNat '0', ['0'], none⟩,
          ⟨⟨by simp [h.nonempty], areDigits_append h.digits (areDigits_zeros _), .inr ?_⟩,
            by simp [AreDigits], noPower, .inl (by simp)⟩, rfl, ?_⟩
        · rwa [List.head?_append_of_ne_nil _ h.nonempty]
        · simp [Numeral.tail]
      · -- The point stands between two digits.
        have inside : 0 < point.toNat := by omega
        have behind : digits.drop point.toNat ≠ [] := by
          rw [ne_eq, List.drop_eq_nil_iff]
          omega
        refine ⟨⟨negative, digits.take point.toNat, digits.drop point.toNat, none⟩,
          ⟨take_isWhole h start inside, fun c mem => h.digits c (List.mem_of_mem_drop mem),
            noPower, .inl behind⟩, rfl, ?_⟩
        simp [Numeral.tail, behind]
  · -- The numeral has an exponent.
    have digit := take_isWhole h start Nat.one_pos
    have others : AreDigits (digits.drop 1) := fun c mem => h.digits c (List.mem_of_mem_drop mem)
    obtain ⟨power, nonempty, all, written⟩ : ∃ power : List Char, power ≠ [] ∧ AreDigits power ∧
        (if (toString (point - 1).natAbs).length < 2 then "0" ++ toString (point - 1).natAbs
          else toString (point - 1).natAbs).toList = power := by
      refine ⟨_, ?_, ?_, rfl⟩
      · split
        · simp
        · rw [Nat.toString_eq_repr, Nat.toList_repr]
          exact Nat.toDigits_ne_nil
      · split
        · rw [String.toList_append, Nat.toString_eq_repr, Nat.toList_repr]
          exact areDigits_append (by simp [AreDigits]) (areDigits_toDigits _)
        · rw [Nat.toString_eq_repr, Nat.toList_repr]
          exact areDigits_toDigits _
    have exponentProper : ∀ p ∈ some (decide (point - 1 < 0), power), p.2 ≠ [] ∧ AreDigits p.2 := by
      intro p mem
      rw [← Option.mem_some_iff.mp mem]
      exact ⟨nonempty, all⟩
    refine ⟨⟨negative, digits.take 1, digits.drop 1, some (decide (point - 1 < 0), power)⟩,
      ⟨digit, others, exponentProper, .inr (by simp)⟩, rfl, ?_⟩
    rw [String.toList_append, String.toList_append, String.toList_append, written]
    have fraction : (if digits.length ≤ 1 then ([] : List Char) else '.' :: digits.drop 1) =
        if digits.drop 1 = [] then [] else '.' :: digits.drop 1 := by
      simp only [List.drop_eq_nil_iff]
    simp only [fraction, Numeral.tail, String.toList_ofList]
    by_cases below : point - 1 < 0 <;> simp [below]

theorem onGrid?_ne_zero {interval : Interval} {power : Int} {n : Nat}
    (h : interval.onGrid? power = some n) : n ≠ 0 := by
  unfold Interval.onGrid? at h
  dsimp only at h
  split at h
  · next inside =>
    have below : (interval.value.scaleDown power).floor ≠ 0 := by
      simp only [Bool.and_eq_true, ne_eq, decide_eq_true_eq] at inside
      simpa using inside.2
    repeat' split at h
    all_goals
      rw [Option.some.injEq] at h
      omega
  · split at h
    · rw [Option.some.injEq] at h
      omega
    · cases h

/-- The digits of a number are a positive number, unless none were found. -/
theorem shortest_cases (m : Nat) (q : Int) : shortest m q = (0, 0) ∨ 0 < (shortest m q).1 := by
  unfold shortest
  dsimp only
  cases found : (List.range 17).findSome? fun count : Nat =>
      ((Interval.around m q).onGrid?
        ((Interval.around m q).value.decimalExponent - (count : Int))).map
          (·, (Interval.around m q).value.decimalExponent - (count : Int)) with
  | none => exact .inl rfl
  | some digits =>
    obtain ⟨count, -, attempt⟩ := List.exists_of_findSome?_eq_some found
    rw [Option.map_eq_some_iff] at attempt
    obtain ⟨n, grid, rfl⟩ := attempt
    exact .inr (Nat.pos_of_ne_zero (onGrid?_ne_zero grid))

/-- The text for a number without digits. -/
theorem exists_numeral_zero (negative : Bool) : ∃ numeral : Numeral, numeral.IsProper ∧
    numeral.negative = negative ∧ "0.0".toList = numeral.whole ++ numeral.tail :=
  ⟨⟨negative, ['0'], ['0'], none⟩,
    ⟨⟨by simp, by simp [AreDigits], .inl rfl⟩, by simp [AreDigits], by simp, .inl (by simp)⟩, rfl,
    by simp [Numeral.tail]⟩

/-- A finite number is written as a numeral. -/
theorem exists_numeral {x : Binary64} {negative : Bool} {m : Nat} {q : Int}
    (meaning : x.meaning = .finite negative m q) :
    ∃ numeral : Numeral, numeral.IsProper ∧ (writtenLayout.text x).toList = numeral.text := by
  have sign {body : String} (h : ∃ numeral : Numeral, numeral.IsProper ∧
      numeral.negative = negative ∧ body.toList = numeral.whole ++ numeral.tail) :
      ∃ numeral : Numeral, numeral.IsProper ∧
        ((if negative then "-" else "") ++ body).toList = numeral.text := by
    obtain ⟨numeral, proper, rfl, body⟩ := h
    refine ⟨numeral, proper, ?_⟩
    rw [String.toList_append, body, Numeral.text, signed]
    cases numeral.negative <;> simp
  unfold Layout.text
  rw [meaning]
  dsimp only
  split
  · exact sign (exists_numeral_zero negative)
  · rcases shortest_cases m q with none | positive
    · rw [none]
      exact sign (exists_numeral_zero negative)
    · obtain ⟨whole, start⟩ := isWhole_dropTrailingZeros positive
      exact sign (exists_numeral_place writtenLayout whole start _ negative)

end Layout

end GrammarChart.Json
