import Mathlib
import GrammarChart.Tool.Words

/-!
# Words of command lines

Whether a command line can be split shows at its end: a reader that goes over it once, character by
character, has to stand outside of every quotation and behind no open escape. Splitting loses no
character but separators, quotation marks and backslashes. `splitsAs_splitFrom` is both of it for the
rest of a line, by induction along the splitting.
-/

set_option autoImplicit false

namespace GrammarChart.Tool

/-- Where a reader of a command line stands: outside of quotations, in one, or behind a backslash
that protects the next character, outside or in a quotation with double marks. -/
inductive Stand where
  | outside
  | quoted (mark : Char)
  | escaped
  | quotedEscaped

namespace Stand

/-- Where the reader stands after the next character. -/
def next : Stand → Char → Stand
  | .outside, c =>
    if c = '\\' then .escaped else if c == '\x22' || c == '\x27' then .quoted c else .outside
  | .quoted mark, c =>
    if c = '\\' then if mark == '\x22' then .quotedEscaped else .quoted mark
    else if c == mark then .outside else .quoted mark
  | .escaped, _ => .outside
  | .quotedEscaped, _ => .quoted '\x22'

/-- Where the reader stands after characters. -/
def after (stand : Stand) (cs : List Char) : Stand :=
  cs.foldl next stand

theorem after_cons (stand : Stand) (c : Char) (cs : List Char) :
    stand.after (c :: cs) = (stand.next c).after cs := rfl

section Next

variable {mark c : Char}

theorem next_quoted_double (double : (mark == '\x22') = true) :
    (quoted mark).next '\\' = .quotedEscaped := if_pos double

theorem next_quoted_single (single : ¬(mark == '\x22') = true) :
    (quoted mark).next '\\' = .quoted mark := if_neg single

theorem next_quoted_mark (plain : c ≠ '\\') (closes : (c == mark) = true) :
    (quoted mark).next c = .outside := (if_neg plain).trans (if_pos closes)

theorem next_quoted_other (plain : c ≠ '\\') (stays : ¬(c == mark) = true) :
    (quoted mark).next c = .quoted mark := (if_neg plain).trans (if_neg stays)

theorem next_outside_mark (plain : c ≠ '\\') (opens : (c == '\x22' || c == '\x27') = true) :
    outside.next c = .quoted c := (if_neg plain).trans (if_pos opens)

theorem next_outside_other (plain : c ≠ '\\') (stays : ¬(c == '\x22' || c == '\x27') = true) :
    outside.next c = .outside := (if_neg plain).trans (if_neg stays)

theorem next_outside_separator (separates : isSeparator c = true) : outside.next c = .outside := by
  simp only [isSeparator, Bool.or_eq_true, beq_iff_eq] at separates
  obtain ((rfl | rfl) | rfl) | rfl := separates <;> rfl

end Next

/-- What is missing where a command line ends. -/
def missing? : Stand → Option Fault
  | .outside => none
  | .quoted _ => some .openQuotation
  | .escaped => some .openEscape
  | .quotedEscaped => some .openEscape

end Stand

/-- Where the reader of a command line stands at its end. -/
def standAtEnd (line : String) : Stand :=
  Stand.outside.after line.toList

/-- Where a reader stands while words are split off. -/
def Mode.stand : Mode → Stand
  | .between => .outside
  | .word => .outside
  | .quoted mark => .quoted mark

/-- The character always stands for itself. -/
def isPlain (c : Char) : Bool :=
  !isSeparator c && c != '\x22' && c != '\x27' && c != '\\'

/-- The words are split off from characters: without a fault when nothing is missing, and then with
all plain characters and no others. -/
def SplitsAs (cs : List Char) (missing : Option Fault) (words : Except Fault (List (List Char))) :
    Prop :=
  match missing with
  | none => ∃ made, words = .ok made ∧
      ∀ c, isPlain c = true → ((∃ word ∈ made, c ∈ word) ↔ c ∈ cs)
  | some fault => words = .error fault

namespace SplitsAs

variable {cs ds current : List Char} {missing : Option Fault}
  {words : Except Fault (List (List Char))}

/-- A character that is not plain may be passed over. -/
theorem skip {c : Char} (h : SplitsAs (cs ++ ds) missing words) (special : isPlain c = false) :
    SplitsAs (cs ++ c :: ds) missing words := by
  cases missing with
  | some fault => exact h
  | none =>
    obtain ⟨made, given, inside⟩ := h
    refine ⟨made, given, fun d plain => (inside d plain).trans ?_⟩
    have other : d ≠ c := by
      rintro rfl
      rw [special] at plain
      cases plain
    simp [other]

/-- A character that is kept belongs to the current word. -/
theorem keep {c : Char} (h : SplitsAs (cs ++ [c] ++ ds) missing words) :
    SplitsAs (cs ++ c :: ds) missing words := by
  rwa [List.append_cons]

/-- A word that ends comes before the words of the rest. -/
theorem cons (h : SplitsAs cs missing words) (current : List Char) :
    SplitsAs (current ++ cs) missing (words.map (current :: ·)) := by
  cases missing with
  | some fault =>
    rw [SplitsAs] at h ⊢
    rw [h]
    rfl
  | none =>
    obtain ⟨made, rfl, inside⟩ := h
    refine ⟨current :: made, rfl, fun c plain => ?_⟩
    rw [List.exists_mem_cons_iff, List.mem_append, inside c plain]

end SplitsAs

/-- Between words there are no characters of a word yet, and a quotation has a quotation mark. -/
def Mode.Fits (current : List Char) : Mode → Prop
  | .between => current = []
  | .word => True
  | .quoted mark => (mark == '\x22' || mark == '\x27') = true

theorem isPlain_of_isSeparator {c : Char} (separates : isSeparator c = true) :
    isPlain c = false := by
  simp [isPlain, separates]

theorem isPlain_of_mark {c : Char} (isMark : (c == '\x22' || c == '\x27') = true) :
    isPlain c = false := by
  rcases Bool.or_eq_true_iff.mp isMark with double | single
  · rw [eq_of_beq double]
    rfl
  · rw [eq_of_beq single]
    rfl

/-- A character that begins no pair with a backslash is no backslash. -/
theorem ne_backslash {c : Char} {rest : List Char} (last : c = '\\' → rest = [] → False)
    (pair : ∀ next others, c = '\\' → rest = next :: others → False) : c ≠ '\\' := by
  rintro rfl
  cases rest with
  | nil => exact last rfl rfl
  | cons next others => exact pair next others rfl rfl

/-- Splitting ends as the reader does, and keeps all plain characters. -/
theorem splitsAs_splitFrom (mode : Mode) (current cs : List Char) (fits : mode.Fits current) :
    SplitsAs (current ++ cs) (mode.stand.after cs).missing? (splitFrom mode current cs) := by
  fun_induction splitFrom mode current cs with
  | case1 current =>
    cases fits
    exact ⟨[], rfl, by simp⟩
  | case2 current => exact ⟨[current], rfl, by simp⟩
  | case3 | case4 | case5 => rfl
  | case6 mark current double =>
    rw [Mode.stand, Stand.after_cons, Stand.next_quoted_double double]
    rfl
  | case7 mark current single ih | case9 mark current next rest single ih =>
    rw [Mode.stand, Stand.after_cons, Stand.next_quoted_single single]
    exact (ih fits).keep
  | case8 mark current next rest double kept ih =>
    have stands : Stand.quotedEscaped.next next = .quoted mark := by
      rw [eq_of_beq double]
      rfl
    rw [Mode.stand, Stand.after_cons, Stand.next_quoted_double double, Stand.after_cons, stands]
    have split := ih fits
    -- The backslash stays unless it protects a double mark or another backslash.
    have either : kept = [next] ∨ kept = ['\\', next] := ite_eq_or_eq ..
    clear_value kept
    rcases either with rfl | rfl
    · exact split.keep.skip rfl
    · rwa [List.append_assoc] at split
  | case10 current next rest ih | case11 current next rest ih => exact (ih trivial).keep.skip rfl
  | case12 mark current c rest last pair closes ih =>
    rw [Mode.stand, Stand.after_cons, Stand.next_quoted_mark (ne_backslash last pair) closes]
    exact (ih trivial).skip (isPlain_of_mark (eq_of_beq closes ▸ fits))
  | case13 mark current c rest last pair stays ih =>
    rw [Mode.stand, Stand.after_cons, Stand.next_quoted_other (ne_backslash last pair) stays]
    exact (ih fits).keep
  | case14 current c rest last pair separates ih =>
    cases fits
    rw [Mode.stand, Stand.after_cons, Stand.next_outside_separator separates]
    exact (ih rfl).skip (isPlain_of_isSeparator separates)
  | case15 current c rest last pair stays opens ih | case18 current c rest last pair stays opens ih =>
    rw [Mode.stand, Stand.after_cons, Stand.next_outside_mark (ne_backslash last pair) opens]
    exact (ih opens).skip (isPlain_of_mark opens)
  | case16 current c rest last pair stays kept ih | case19 current c rest last pair stays kept ih =>
    rw [Mode.stand, Stand.after_cons, Stand.next_outside_other (ne_backslash last pair) kept]
    exact (ih trivial).keep
  | case17 current c rest last pair separates ih =>
    rw [Mode.stand, Stand.after_cons, Stand.next_outside_separator separates]
    exact ((ih rfl).cons current).skip (isPlain_of_isSeparator separates)

/-- A command line has words unless something is missing at its end, and then the plain characters
in them are those of the line. -/
theorem splitsAs_splitWords (line : String) :
    match (standAtEnd line).missing? with
    | none => ∃ words, splitWords line = .ok words ∧ ∀ c, isPlain c = true →
        ((∃ word ∈ words, c ∈ word.toList) ↔ c ∈ line.toList)
    | some fault => splitWords line = .error fault := by
  have split := splitsAs_splitFrom .between [] line.toList rfl
  rw [List.nil_append, Mode.stand] at split
  rw [standAtEnd, splitWords]
  cases missing : (Stand.outside.after line.toList).missing? with
  | some fault =>
    rw [missing, SplitsAs] at split
    rw [split]
    rfl
  | none =>
    rw [missing, SplitsAs] at split
    obtain ⟨made, given, inside⟩ := split
    refine ⟨made.map String.ofList, by rw [given]; rfl, fun c plain => ?_⟩
    rw [← inside c plain]
    simp only [List.mem_map, exists_exists_and_eq_and, String.toList_ofList]

end GrammarChart.Tool
