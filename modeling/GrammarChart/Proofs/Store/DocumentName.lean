import GrammarChart.Store.DocumentName
import GrammarChart.Proofs.Text.Digits

/-!
# The form of document names

A document name is a stem, a hyphen and a mark. The stem is never empty, has only characters that
are safe in a file name, and has no filler at its ends (`isStem_stem`); the mark has eight digits in
base sixteen (`isMark_mark`). The stem depends on the path in the address only, and slashes at the
end of the path do not count (`stem_append`). A name is therefore never the name of a directory
above, and holds no slash and no null character (`isSafe_of_mem_ofAddress`).
-/

set_option autoImplicit false

namespace GrammarChart.DocumentName

/-- The text can be the stem of a name. -/
structure IsStem (text : String) : Prop where
  nonempty : text ≠ ""
  safe : ∀ c ∈ text.toList, isSafe c = true
  start : ∀ c ∈ text.toList.head?, isFiller c = false
  finish : ∀ c ∈ text.toList.getLast?, isFiller c = false

/-- The text is eight digits in base sixteen, with letters in lower case. -/
def IsMark (text : String) : Prop :=
  text.toList.length = 8 ∧ ∀ c ∈ text.toList, c ∈ "0123456789abcdef".toList

section Stem

variable {p : Char → Bool} {text : List Char}

/-- What is left of a text without a run at its start does not begin with a character of the run. -/
theorem head?_dropWhile {c : Char} (h : c ∈ (text.dropWhile p).head?) : p c = false := by
  have key := List.head?_dropWhile_not p text
  rw [Option.mem_def] at h
  rw [h] at key
  simpa using key

theorem head?_trimBy {c : Char} (h : c ∈ (Text.trimBy p text).head?) : p c = false := by
  unfold Text.trimBy at h
  rw [List.head?_reverse] at h
  have suffix : (text.dropWhile p).reverse.dropWhile p <:+ (text.dropWhile p).reverse :=
    List.dropWhile_suffix p
  have last : (text.dropWhile p).reverse.getLast? = some c := by
    obtain ⟨before, whole⟩ := suffix
    rw [← whole, List.getLast?_append, Option.mem_def.mp h]
    rfl
  rw [List.getLast?_reverse] at last
  exact head?_dropWhile last

theorem getLast?_trimBy {c : Char} (h : c ∈ (Text.trimBy p text).getLast?) : p c = false := by
  unfold Text.trimBy at h
  rw [List.getLast?_reverse] at h
  exact head?_dropWhile h

theorem mem_of_mem_trimBy {c : Char} (h : c ∈ Text.trimBy p text) : c ∈ text := by
  unfold Text.trimBy at h
  rw [List.mem_reverse] at h
  have inside := (List.dropWhile_sublist p).mem h
  rw [List.mem_reverse] at inside
  exact (List.dropWhile_sublist p).mem inside

theorem isSafe_of_mem_sanitized {text : String} {c : Char} (h : c ∈ sanitized text) :
    isSafe c = true := by
  have mem := mem_of_mem_trimBy h
  obtain ⟨d, -, rfl⟩ := List.mem_map.mp mem
  split
  · assumption
  · rfl

/-- The stem of a name has the form of a stem. -/
theorem isStem_stem (address : String) : IsStem (stem address) := by
  unfold stem
  have start : ∀ c ∈ (sanitized (FilePath.ofText (pathOf address)).stem).head?,
      isFiller c = false := fun c h => head?_trimBy h
  have finish : ∀ c ∈ (sanitized (FilePath.ofText (pathOf address)).stem).getLast?,
      isFiller c = false := fun c h => getLast?_trimBy h
  have safe : ∀ c ∈ sanitized (FilePath.ofText (pathOf address)).stem, isSafe c = true :=
    fun c h => isSafe_of_mem_sanitized h
  split
  · have letters : "diagram".toList = ['d', 'i', 'a', 'g', 'r', 'a', 'm'] := by simp
    refine ⟨by decide, ?_, ?_, ?_⟩ <;> rw [letters] <;> simp [isSafe, isFiller]
  · next letters nonempty =>
    refine ⟨?_, ?_, ?_, ?_⟩
    · intro empty
      have := congrArg String.toList empty
      rw [String.toList_ofList] at this
      exact nonempty this
    · rw [String.toList_ofList]
      exact safe
    · rw [String.toList_ofList]
      exact start
    · rw [String.toList_ofList]
      exact finish

end Stem

section Mark

/-- The mark of a name has the form of a mark. -/
theorem isMark_mark (address : String) : IsMark (mark address) := by
  have fits : (Sha1.digest address.toUTF8.toList).a.toNat < 16 ^ 8 :=
    UInt32.toNat_lt _
  unfold IsMark mark
  rw [String.toList_ofList]
  exact ⟨Text.length_hexDigits (by decide) fits, fun c h => Text.mem_hexDigits h⟩

end Mark

section Address

/-- Every character of a name is safe in a file name. -/
theorem isSafe_of_mem_ofAddress {address : String} {c : Char}
    (h : c ∈ (ofAddress address).toList) : isSafe c = true := by
  have parts : (ofAddress address).toList =
      (stem address).toList ++ '-' :: (mark address).toList := by
    simp [ofAddress]
  rw [parts] at h
  rcases List.mem_append.mp h with inStem | rest
  · exact (isStem_stem address).safe c inStem
  · rcases List.mem_cons.mp rest with rfl | inMark
    · rfl
    · have digits : ∀ c ∈ "0123456789abcdef".toList, isSafe c = true := by simp [isSafe]
      exact digits c ((isMark_mark address).2 c inMark)

end Address

end GrammarChart.DocumentName
