/-!
# Line ends

Text read from a file or from the output of a tool has one line end, the newline: a carriage
return, alone or before a newline, is read as one. A text changes exactly when it has a carriage
return (`unifyLineEnds_eq_self_iff`).
-/

set_option autoImplicit false

namespace GrammarChart.Text

/-- Every carriage return, with the newline after it if there is one, becomes a newline. -/
def unifyCharacters : List Char → List Char
  | [] => []
  | '\r' :: '\n' :: rest => '\n' :: unifyCharacters rest
  | c :: rest => (if c == '\r' then '\n' else c) :: unifyCharacters rest

/-- The text with newlines as its only line ends. -/
def unifyLineEnds (text : String) : String :=
  String.ofList (unifyCharacters text.toList)

/-- A text without carriage returns is left as it is. -/
theorem unifyCharacters_eq_self {text : List Char} (h : '\r' ∉ text) :
    unifyCharacters text = text := by
  fun_induction unifyCharacters text with
  | case1 => rfl
  | case2 => simp at h
  | case3 c rest _ ih =>
    have hc : c ≠ '\r' := fun e => h (by simp [e])
    have hr : '\r' ∉ rest := fun e => h (by simp [e])
    simp [hc, ih hr]

/-- A text without carriage returns is read back as it was written. -/
theorem unifyLineEnds_eq_self {text : String} (h : '\r' ∉ text.toList) :
    unifyLineEnds text = text := by
  rw [unifyLineEnds, unifyCharacters_eq_self h, String.ofList_toList]

/-- No carriage return is left. -/
theorem return_not_mem_unifyCharacters (text : List Char) : '\r' ∉ unifyCharacters text := by
  fun_induction unifyCharacters text with
  | case1 => simp
  | case2 rest ih => simpa using ih
  | case3 c rest _ ih =>
    rw [List.mem_cons, not_or]
    refine ⟨?_, ih⟩
    by_cases h : c = '\r'
    · simp [h]
    · simp [h, Ne.symm h]

/-- A text is read back as it was written exactly when it has no carriage return. -/
theorem unifyLineEnds_eq_self_iff (text : String) :
    unifyLineEnds text = text ↔ '\r' ∉ text.toList := by
  refine ⟨fun same => ?_, unifyLineEnds_eq_self⟩
  rw [← same, unifyLineEnds, String.toList_ofList]
  exact return_not_mem_unifyCharacters text.toList

end GrammarChart.Text
