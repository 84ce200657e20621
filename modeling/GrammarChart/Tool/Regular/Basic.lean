import GrammarChart.Text.WordCharacter
import GrammarChart.Tool.Shell.Pattern

/-!
# Regular expressions

A regular expression describes parts of a text. `ends` lists the places at which a part that starts
at a given place may end, the furthest first, each with what the groups took; so the first of them
is the longest part. `le_of_mem_ends` says that no part ends before it starts.
-/

set_option autoImplicit false

namespace GrammarChart.Tool

open Shell (Member)

/-- A condition on a place between characters. -/
inductive Edge where
  | lineStart
  | lineEnd
  | textStart
  | textEnd
  | wordStart
  | wordEnd
  | word
  | noWord
  deriving DecidableEq, Repr

/-- A regular expression. -/
inductive Regular where
  | nothing
  | letter (c : Char)
  | any
  | set (negated : Bool) (members : List Member)
  | edge (kind : Edge)
  | both (first second : Regular)
  | either (first second : Regular)
  | repeated (inner : Regular) (least : Nat) (most : Option Nat)
  | group (number : Nat) (inner : Regular)
  /-- The text that a group took. -/
  | again (number : Nat)
  deriving Repr

/-- A text in which parts are looked for. -/
structure Subject where
  letters : Array Char
  ignoresCase : Bool
  /-- Lines start and end at every line break, and not only with the text. -/
  hasLines : Bool

/-- The end of a part, with the first and the last places of what the groups took. -/
structure Found where
  place : Nat
  groups : List (Nat × Nat × Nat)
  deriving DecidableEq, Repr

/-- A character of words. -/
def isWordLetter (c : Char) : Bool :=
  c.isAlphanum || c == '_' || (128 ≤ c.toNat && Text.isWordCharacter c)

/-- The names of the classes that letters beyond the basic ones belong to. -/
def wideClasses : List String := ["alpha", "alnum", "print", "graph"]

/-- A member of a set names a character. -/
def names (member : Member) (c : Char) : Bool :=
  match member with
  | .range first last => first ≤ c && c ≤ last
  | .named name => member.contains c ||
    (wideClasses.contains name && 128 ≤ c.toNat && Text.isWordCharacter c)

namespace Subject

/-- The characters are the same, or they differ in case and that is ignored. -/
def same (subject : Subject) (a b : Char) : Bool :=
  a == b || (subject.ignoresCase && a.toLower == b.toLower)

/-- The members of a set name the character. -/
def isIn (subject : Subject) (members : List Member) (c : Char) : Bool :=
  members.any fun member => names member c ||
    (subject.ignoresCase && (names member c.toLower || names member c.toUpper))

/-- The character at a place belongs to a word. -/
def isWordAt (subject : Subject) (place : Nat) : Bool :=
  (subject.letters[place]?).any isWordLetter

/-- The character before a place belongs to a word. -/
def isWordBefore (subject : Subject) (place : Nat) : Bool :=
  place != 0 && subject.isWordAt (place - 1)

/-- The place is an edge. -/
def isEdge (subject : Subject) (edge : Edge) (place : Nat) : Bool :=
  let before := subject.isWordBefore place
  let after := subject.isWordAt place
  match edge with
  | .textStart => place == 0
  | .textEnd => place == subject.letters.size
  | .lineStart =>
    place == 0 || (subject.hasLines && subject.letters[place - 1]? == some '\n')
  | .lineEnd =>
    place == subject.letters.size ||
      (subject.hasLines && subject.letters[place]? == some '\n')
  | .wordStart => !before && after
  | .wordEnd => before && !after
  | .word => before != after
  | .noWord => before == after

/-- The characters from a place up to another one. -/
def slice (subject : Subject) (first last : Nat) : List Char :=
  (subject.letters.extract first last).toList

end Subject

namespace Regular

/-- The test of an expression for single characters. -/
def test? (subject : Subject) : Regular → Option (Char → Bool)
  | .letter c => some (subject.same c)
  | .any => some fun _ => true
  | .set negated members => some fun c => subject.isIn members c != negated
  | _ => none

/-- The expression asks for the text of a group again, so that it matters what groups took. -/
def looksBack : Regular → Bool
  | .both a b => a.looksBack || b.looksBack
  | .either a b => a.looksBack || b.looksBack
  | .repeated inner _ _ => inner.looksBack
  | .group _ inner => inner.looksBack
  | .again _ => true
  | _ => false

/-- The ends are the same as far as it matters. -/
def same (groupsMatter : Bool) (a b : Found) : Bool :=
  a.place == b.place && (!groupsMatter || a.groups == b.groups)

/-- The first of neighbours that are the same. -/
def distinct (groupsMatter : Bool) : List Found → List Found
  | [] => []
  | a :: rest =>
    match distinct groupsMatter rest with
    | b :: others => if same groupsMatter a b then a :: others else a :: b :: others
    | [] => [a]

/-- The ends in their order, the furthest first. -/
def settle (groupsMatter : Bool) (found : List Found) : List Found :=
  distinct groupsMatter (found.mergeSort fun a b => decide (b.place ≤ a.place))

/-- The ends after a number of steps. -/
def times (groupsMatter : Bool) (step : Found → List Found) : Nat → List Found → List Found
  | 0, found => found
  | n + 1, found => times groupsMatter step n (settle groupsMatter (found.flatMap step))

/-- The ends that have been reached, and those that are reached from the newest of them by at most
a number of steps. -/
def closure (groupsMatter : Bool) (step : Found → List Found) :
    Nat → List Found → List Found → List Found
  | 0, reached, _ => reached
  | n + 1, reached, newest =>
    let next := (settle groupsMatter (newest.flatMap step)).filter fun found =>
      !reached.any (same groupsMatter found)
    if next.isEmpty then reached else closure groupsMatter step n (reached ++ next) next

/-- The ends after one character that passes a test. -/
def single (subject : Subject) (test : Char → Bool) (found : Found) : List Found :=
  if (subject.letters[found.place]?).any test then [{ found with place := found.place + 1 }]
  else []

/-- The ends after characters that pass a test, in a number between bounds. -/
def run (subject : Subject) (test : Char → Bool) (least : Nat) (most : Option Nat)
    (found : Found) : List Found :=
  let rest := subject.slice found.place subject.letters.size
  let length := ((match most with
    | some most => rest.take most
    | none => rest).takeWhile test).length
  (List.range (length + 1 - least)).map fun k => { found with place := found.place + (length - k) }

/-- What groups took after a group has taken another part. -/
def taken (number first last : Nat) (groups : List (Nat × Nat × Nat)) : List (Nat × Nat × Nat) :=
  (number, first, last) :: groups.filter fun entry => entry.1 != number

/-- The ends of a text that is to stand at the given place. -/
def literally (subject : Subject) (letters : List Char) (found : Found) : List Found :=
  let last := found.place + letters.length
  let there := subject.slice found.place last
  if there.length = letters.length ∧ (there.zip letters).all (fun (a, b) => subject.same a b) then
    [{ found with place := last }]
  else []

/-- The ends of the parts that an expression describes, the furthest first. -/
def ends (subject : Subject) (groupsMatter : Bool) : Regular → Found → List Found
  | .nothing, found => [found]
  | .letter c, found => single subject (subject.same c) found
  | .any, found => single subject (fun _ => true) found
  | .set negated members, found =>
    single subject (fun c => subject.isIn members c != negated) found
  | .edge kind, found => if subject.isEdge kind found.place then [found] else []
  | .both a b, found =>
    settle groupsMatter
      ((ends subject groupsMatter a found).flatMap (ends subject groupsMatter b))
  | .either a b, found =>
    settle groupsMatter (ends subject groupsMatter a found ++ ends subject groupsMatter b found)
  | .group number inner, found =>
    (ends subject groupsMatter inner found).map fun next =>
      { next with groups := taken number found.place next.place next.groups }
  | .again number, found =>
    match found.groups.lookup number with
    | some (first, last) => literally subject (subject.slice first last) found
    | none => []
  | .repeated inner least most, found =>
    match inner.test? subject with
    | some test => run subject test least most found
    | none =>
      let step := ends subject groupsMatter inner
      let first := times groupsMatter step least [found]
      let further := match most with
        | some most => most - least
        | none => subject.letters.size + 1
      settle groupsMatter (closure groupsMatter step further first first)

/-- The first part that an expression describes and that fits, not before the given place: where it
starts, and its end. Of the parts that start at one place, the longest comes first. -/
def find? (subject : Subject) (regular : Regular) (start : Nat) (fits : Nat → Nat → Bool) :
    Option (Nat × Found) :=
  let groupsMatter := regular.looksBack
  (List.range (subject.letters.size + 1 - start)).findSome? fun k =>
    let found := ends subject groupsMatter regular ⟨start + k, []⟩
    (found.find? fun next => fits (start + k) next.place).map fun next => (start + k, next)

/-- What remains of neighbours was there before. -/
theorem mem_of_mem_distinct {groupsMatter : Bool} {next : Found} {found : List Found}
    (h : next ∈ distinct groupsMatter found) : next ∈ found := by
  induction found with
  | nil => simp [distinct] at h
  | cons a rest ih =>
    rw [distinct] at h
    split at h
    · next b others hrest =>
      rw [hrest] at ih
      split at h
      · rcases List.mem_cons.1 h with h | h
        · exact h ▸ List.mem_cons_self
        · exact List.mem_cons_of_mem _ (ih (List.mem_cons_of_mem _ h))
      · rcases List.mem_cons.1 h with h | h
        · exact h ▸ List.mem_cons_self
        · exact List.mem_cons_of_mem _ (ih h)
    · exact List.mem_singleton.1 h ▸ List.mem_cons_self

/-- Ends in their order were there before. -/
theorem mem_of_mem_settle {groupsMatter : Bool} {next : Found} {found : List Found}
    (h : next ∈ settle groupsMatter found) : next ∈ found :=
  List.mem_mergeSort.1 (mem_of_mem_distinct h)

section Steps

variable {groupsMatter : Bool} {step : Found → List Found} {place : Nat}

/-- Steps that do not go back lead from ends behind a place to ends behind it. -/
theorem le_of_mem_times (hstep : ∀ found, ∀ next ∈ step found, found.place ≤ next.place)
    (n : Nat) (found : List Found) (h : ∀ next ∈ found, place ≤ next.place) :
    ∀ next ∈ times groupsMatter step n found, place ≤ next.place := by
  induction n generalizing found with
  | zero => exact h
  | succ n ih =>
    refine ih _ fun next hnext => ?_
    obtain ⟨before, hbefore, hnext⟩ := List.mem_flatMap.1 (mem_of_mem_settle hnext)
    exact Nat.le_trans (h before hbefore) (hstep before next hnext)

/-- The same for any number of steps. -/
theorem le_of_mem_closure (hstep : ∀ found, ∀ next ∈ step found, found.place ≤ next.place)
    (n : Nat) (reached newest : List Found) (hr : ∀ next ∈ reached, place ≤ next.place)
    (hn : ∀ next ∈ newest, place ≤ next.place) :
    ∀ next ∈ closure groupsMatter step n reached newest, place ≤ next.place := by
  induction n generalizing reached newest with
  | zero => exact hr
  | succ n ih =>
    rw [closure]
    have hnext : ∀ next ∈ (settle groupsMatter (newest.flatMap step)).filter fun found =>
        !reached.any (same groupsMatter found), place ≤ next.place := by
      intro next h
      obtain ⟨before, hbefore, h⟩ :=
        List.mem_flatMap.1 (mem_of_mem_settle (List.mem_filter.1 h).1)
      exact Nat.le_trans (hn before hbefore) (hstep before next h)
    intro next h
    split at h
    · exact hr next h
    · refine ih _ _ (fun next h => ?_) hnext next h
      rcases List.mem_append.1 h with h | h
      · exact hr next h
      · exact hnext next h

end Steps

/-- A character is passed forwards. -/
theorem le_of_mem_single {subject : Subject} {test : Char → Bool} {found next : Found}
    (h : next ∈ single subject test found) : found.place ≤ next.place := by
  rw [single] at h
  split at h
  · rw [List.mem_singleton.1 h]; exact Nat.le_succ _
  · cases h

/-- An end that is the only one is not before itself. -/
theorem le_of_mem_singleton {found next : Found} (h : next ∈ [found]) :
    found.place ≤ next.place :=
  Nat.le_of_eq (congrArg Found.place (List.mem_singleton.1 h).symm)

/-- No part ends before it starts. -/
theorem le_of_mem_ends (subject : Subject) (groupsMatter : Bool) (regular : Regular) :
    ∀ found, ∀ next ∈ ends subject groupsMatter regular found, found.place ≤ next.place := by
  induction regular with
  | nothing =>
    intro found next h
    rw [ends] at h
    exact le_of_mem_singleton h
  | letter c => intro found next h; rw [ends] at h; exact le_of_mem_single h
  | any => intro found next h; rw [ends] at h; exact le_of_mem_single h
  | set negated members => intro found next h; rw [ends] at h; exact le_of_mem_single h
  | edge kind =>
    intro found next h
    rw [ends] at h
    split at h
    · exact le_of_mem_singleton h
    · cases h
  | both a b iha ihb =>
    intro found next h
    rw [ends] at h
    obtain ⟨middle, hmiddle, h⟩ := List.mem_flatMap.1 (mem_of_mem_settle h)
    exact Nat.le_trans (iha found middle hmiddle) (ihb middle next h)
  | either a b iha ihb =>
    intro found next h
    rw [ends] at h
    rcases List.mem_append.1 (mem_of_mem_settle h) with h | h
    · exact iha found next h
    · exact ihb found next h
  | group number inner ih =>
    intro found next h
    rw [ends] at h
    obtain ⟨last, hlast, rfl⟩ := List.mem_map.1 h
    exact ih found last hlast
  | again number =>
    intro found next h
    rw [ends] at h
    split at h
    · rw [literally] at h
      split at h
      · rw [List.mem_singleton.1 h]; exact Nat.le_add_right _ _
      · cases h
    · cases h
  | repeated inner least most ih =>
    intro found next h
    unfold ends at h
    split at h
    · obtain ⟨k, _, rfl⟩ := List.mem_map.1 h
      exact Nat.le_add_right _ _
    · have hfirst : ∀ next ∈ times groupsMatter (ends subject groupsMatter inner) least [found],
          found.place ≤ next.place :=
        le_of_mem_times ih least [found] fun next h => le_of_mem_singleton h
      exact le_of_mem_closure ih _ _ _ hfirst hfirst next (mem_of_mem_settle h)

end Regular

end GrammarChart.Tool
