import Mathlib
import GrammarChart.Json.Order

/-!
# Sorting by texts

Values whose keys are texts always have an order, so they are always sorted: `exists_sortBy?` says
that the result has the same values with their texts in ascending order. A value is put in behind
the values that do not come after it, at the place that halving finds (`placeBetween?_spec`); the run
at the start of the values is sorted already (`splitRun?_spec`). A text and a value that is no text
have no order, and sorting compares enough to notice (`texts_of_sortBy?`).
-/

set_option autoImplicit false

namespace GrammarChart.Json

section Sorting

variable {α : Type} {key : α → Json} {name : α → String}

/-- The texts of the values ascend. -/
def Ascends (name : α → String) (values : List α) : Prop :=
  values.Pairwise fun a b => name a ≤ name b

theorem before?_of_texts {a b : α} (ha : key a = .str (name a)) (hb : key b = .str (name b)) :
    (key a).before? (key b) = some (decide (name a < name b)) := by
  rw [ha, hb, before?]

/-- Halving ends at a place with no later value before it and no earlier one behind it. -/
theorem placeBetween?_spec {sorted : List α} {value : α} (ascends : Ascends name sorted)
    (texts : ∀ a ∈ sorted, key a = .str (name a)) (text : key value = .str (name value)) :
    ∀ (steps low high : Nat), high - low ≤ steps → low ≤ high → high ≤ sorted.length →
      (∀ i (h : i < sorted.length), i < low → name sorted[i] ≤ name value) →
      (∀ i (h : i < sorted.length), high ≤ i → name value < name sorted[i]) →
      ∃ place, placeBetween? key value sorted steps low high = some place ∧
        place ≤ sorted.length ∧
        (∀ i (h : i < sorted.length), i < place → name sorted[i] ≤ name value) ∧
        ∀ i (h : i < sorted.length), place ≤ i → name value < name sorted[i] := by
  have order := List.pairwise_iff_getElem.mp ascends
  -- The bounds close in on the place: nothing before the lower one is later than the value, and
  -- whatever is from the upper one on is later.
  intro steps
  induction steps with
  | zero =>
    intro low high few bounds inside before behind
    have same : low = high := by omega
    subst same
    exact ⟨low, rfl, inside, before, behind⟩
  | succ steps ih =>
    intro low high few bounds inside before behind
    rw [placeBetween?]
    by_cases more : low < high
    · have lower : low ≤ low + (high - low) / 2 := by omega
      have upper : low + (high - low) / 2 < high := by omega
      generalize low + (high - low) / 2 = middle at lower upper
      have here : middle < sorted.length := by omega
      rw [if_pos more, List.getElem?_eq_getElem here]
      dsimp only
      rw [before?_of_texts text (texts _ (List.getElem_mem here))]
      by_cases less : name value < name sorted[middle]
      · have below : ∀ i (h : i < sorted.length), middle ≤ i → name value < name sorted[i] := by
          intro i h later
          rcases Nat.eq_or_lt_of_le later with rfl | after
          · exact less
          · exact lt_of_lt_of_le less (order middle i here h after)
        obtain ⟨place, found, rest⟩ := ih low middle (by omega) lower
          (by omega) before below
        refine ⟨place, ?_, rest⟩
        simpa [-String.lt_iff_ltb, less] using found
      · have above : ∀ i (h : i < sorted.length), i < middle + 1 → name sorted[i] ≤ name value := by
          intro i h earlier
          rcases Nat.eq_or_lt_of_le (Nat.le_of_lt_succ earlier) with rfl | before'
          · exact le_of_not_gt less
          · exact le_trans (order i middle h here before') (le_of_not_gt less)
        obtain ⟨place, found, rest⟩ := ih (middle + 1) high (by omega) (by omega)
          inside above behind
        refine ⟨place, ?_, rest⟩
        simpa [-String.lt_iff_ltb, less] using found
    · have same : low = high := by omega
      subst same
      rw [if_neg more]
      exact ⟨low, rfl, inside, before, behind⟩

/-- A value is put into ascending values so that they ascend again. -/
theorem insertBy?_spec {sorted : List α} {value : α} (ascends : Ascends name sorted)
    (texts : ∀ a ∈ sorted, key a = .str (name a)) (text : key value = .str (name value)) :
    ∃ longer, insertBy? key sorted value = some longer ∧ longer.Perm (value :: sorted) ∧
      Ascends name longer := by
  obtain ⟨place, found, inside, before, behind⟩ :=
    placeBetween?_spec ascends texts text (sorted.length + 1) 0 sorted.length (by omega)
      (by omega) le_rfl (by omega) (by omega)
  refine ⟨sorted.take place ++ value :: sorted.drop place, ?_, ?_, ?_⟩
  · simp only [insertBy?, found, Option.bind_eq_bind, Option.bind_some, Option.pure_def]
  · have perm : (sorted.take place ++ value :: sorted.drop place).Perm
        (value :: (sorted.take place ++ sorted.drop place)) := List.perm_middle
    rwa [List.take_append_drop] at perm
  · have whole : Ascends name (sorted.take place ++ sorted.drop place) := by
      rwa [List.take_append_drop]
    obtain ⟨first, second, across⟩ := List.pairwise_append.mp whole
    have smaller : ∀ a ∈ sorted.take place, name a ≤ name value := by
      intro a mem
      obtain ⟨i, bound, rfl⟩ := List.mem_iff_getElem.mp mem
      rw [List.length_take] at bound
      rw [List.getElem_take]
      exact before i (by omega) (by omega)
    have larger : ∀ a ∈ sorted.drop place, name value ≤ name a := by
      intro a mem
      obtain ⟨i, bound, rfl⟩ := List.mem_iff_getElem.mp mem
      rw [List.length_drop] at bound
      rw [List.getElem_drop]
      exact le_of_lt (behind (place + i) (by omega) (by omega))
    refine List.pairwise_append.mpr ⟨first, List.pairwise_cons.mpr ⟨larger, second⟩, ?_⟩
    intro a inFirst b inRest
    rcases List.mem_cons.mp inRest with rfl | later
    · exact smaller a inFirst
    · exact across a inFirst b later

/-- Values that are put in one by one leave the values ascending. -/
theorem foldlM_insertBy?_spec {others : List α} (texts' : ∀ a ∈ others, key a = .str (name a)) :
    ∀ {sorted : List α}, Ascends name sorted → (∀ a ∈ sorted, key a = .str (name a)) →
      ∃ longer, others.foldlM (insertBy? key) sorted = some longer ∧
        longer.Perm (sorted ++ others) ∧ Ascends name longer := by
  induction others with
  | nil =>
    intro sorted ascends _
    exact ⟨sorted, rfl, by simp, ascends⟩
  | cons value rest ih =>
    intro sorted ascends texts
    rw [List.forall_mem_cons] at texts'
    obtain ⟨next, inserted, perm, ascends'⟩ := insertBy?_spec ascends texts texts'.1
    have nextTexts : ∀ a ∈ next, key a = .str (name a) := by
      intro a mem
      rcases List.mem_cons.mp (perm.subset mem) with rfl | before
      · exact texts'.1
      · exact texts a before
    obtain ⟨longer, folded, perm', ascends''⟩ := ih texts'.2 ascends' nextTexts
    refine ⟨longer, ?_, ?_, ascends''⟩
    · rw [List.foldlM_cons, inserted]
      exact folded
    · calc longer.Perm (next ++ rest) := perm'
        _ |>.Perm (value :: sorted ++ rest) := perm.append_right rest
        _ |>.Perm (sorted ++ value :: rest) := List.perm_middle.symm

/-- The run at the start of the values is a run, and the other values follow it. -/
theorem splitRun?_spec (falling : Bool) : ∀ {rest : List α} {last : α},
    key last = .str (name last) → (∀ a ∈ rest, key a = .str (name a)) →
      ∃ run others, splitRun? key falling last rest = some (run, others) ∧ rest = run ++ others ∧
        List.IsChain (fun a b => decide (name b < name a) = falling) (last :: run) := by
  intro rest
  induction rest with
  | nil =>
    intro last _ _
    exact ⟨[], [], rfl, rfl, List.isChain_singleton _⟩
  | cons value rest ih =>
    intro last text texts
    rw [List.forall_mem_cons] at texts
    by_cases goesOn : decide (name value < name last) = falling
    · obtain ⟨run, others, split, whole, chain⟩ := ih texts.1 texts.2
      refine ⟨value :: run, others, ?_, by rw [whole]; rfl, ?_⟩
      · rw [splitRun?, before?_of_texts texts.1 text]
        simp [-String.lt_iff_ltb, goesOn, split]
      · exact List.isChain_cons_cons.mpr ⟨goesOn, chain⟩
    · refine ⟨[], value :: rest, ?_, rfl, List.isChain_singleton _⟩
      rw [splitRun?, before?_of_texts texts.1 text]
      simp [-String.lt_iff_ltb, goesOn]

/-- Values with texts for keys are sorted: the result has the same values, and their texts
ascend. -/
theorem exists_sortBy? {values : List α} (texts : ∀ a ∈ values, key a = .str (name a)) :
    ∃ sorted, sortBy? key values = some sorted ∧ sorted.Perm values ∧ Ascends name sorted := by
  match values, texts with
  | [], _ => exact ⟨[], rfl, .refl _, List.Pairwise.nil⟩
  | [a], _ => exact ⟨[a], rfl, .refl _, List.pairwise_singleton _ _⟩
  | first :: second :: rest, texts =>
    rw [List.forall_mem_cons, List.forall_mem_cons] at texts
    obtain ⟨text, text', rest'⟩ := texts
    obtain ⟨run, others, split, whole, chain⟩ :=
      splitRun?_spec (decide (name second < name first)) text' rest'
    have chain' : List.IsChain (fun a b => decide (name b < name a) =
        decide (name second < name first)) (first :: second :: run) :=
      List.isChain_cons_cons.mpr ⟨rfl, chain⟩
    have inRun : ∀ a ∈ run, key a = .str (name a) :=
      fun a mem => rest' a (whole ▸ List.mem_append_left _ mem)
    have inOthers : ∀ a ∈ others, key a = .str (name a) :=
      fun a mem => rest' a (whole ▸ List.mem_append_right _ mem)
    have startTexts : ∀ a ∈ first :: second :: run, key a = .str (name a) := by
      rw [List.forall_mem_cons, List.forall_mem_cons]
      exact ⟨text, text', inRun⟩
    -- A run that falls is turned around, so that it ascends like the other kind of run.
    obtain ⟨start, started, perm, ascends⟩ : ∃ start,
        (if decide (name second < name first) then (first :: second :: run).reverse
          else first :: second :: run) = start ∧
        start.Perm (first :: second :: run) ∧ Ascends name start := by
      refine ⟨_, rfl, ?_, ?_⟩
      · split
        · exact List.reverse_perm _
        · exact .refl _
      · by_cases falls : name second < name first
        · rw [if_pos (by simpa [-String.lt_iff_ltb] using falls), Ascends, List.pairwise_reverse]
          have falling : List.IsChain (fun a b => name b < name a) (first :: second :: run) :=
            chain'.imp fun a b h => by simpa [-String.lt_iff_ltb, falls] using h
          have apart : List.Pairwise (fun a b => name b < name a) (first :: second :: run) := by
            have : Trans (fun a b : α => name b < name a) (fun a b : α => name b < name a)
              (fun a b : α => name b < name a) := ⟨fun h h' => lt_trans h' h⟩
            exact List.isChain_iff_pairwise.mp falling
          exact apart.imp fun h => le_of_lt h
        · rw [if_neg (by simpa [-String.lt_iff_ltb] using falls), Ascends]
          have rising : List.IsChain (fun a b => name a ≤ name b) (first :: second :: run) :=
            chain'.imp fun a b h => by simpa [-String.lt_iff_ltb, falls] using h
          have : Trans (fun a b : α => name a ≤ name b) (fun a b : α => name a ≤ name b)
            (fun a b : α => name a ≤ name b) := ⟨fun h h' => le_trans h h'⟩
          exact List.isChain_iff_pairwise.mp rising
    obtain ⟨sorted, folded, perm', ascends'⟩ := foldlM_insertBy?_spec inOthers ascends
      fun a mem => startTexts a (perm.subset mem)
    refine ⟨sorted, ?_, ?_, ascends'⟩
    · rw [sortBy?, before?_of_texts text' text]
      simp only [Option.bind_eq_bind, Option.bind_some, split, started]
      exact folded
    · calc sorted.Perm (start ++ others) := perm'
        _ |>.Perm (first :: second :: run ++ others) := perm.append_right others
        _ = first :: second :: rest := by rw [whole]; rfl

end Sorting

section Sorted

variable {α : Type} {key : α → Json} {isText : Bool}

/-- Of two values that have an order both are texts or neither is. -/
theorem text?_isSome_of_before? {a b : Json} {result : Bool} (h : a.before? b = some result) :
    a.text?.isSome = b.text?.isSome := by
  cases a <;> cases b <;> first | rfl | simp [before?, place?, wholeNumber?] at h

/-- A value with a place in a sorted list is a text exactly when the values of the list are. -/
theorem text?_isSome_of_placeBetween? {sorted : List α} {value : α} {steps low high place : Nat}
    (texts : ∀ a ∈ sorted, (key a).text?.isSome = isText) (lower : low < high)
    (upper : high ≤ sorted.length)
    (h : placeBetween? key value sorted (steps + 1) low high = some place) :
    (key value).text?.isSome = isText := by
  have here : low + (high - low) / 2 < sorted.length := by omega
  rw [placeBetween?, if_pos lower, List.getElem?_eq_getElem here] at h
  obtain ⟨less, compared, -⟩ := Option.bind_eq_some_iff.mp h
  rw [text?_isSome_of_before? compared]
  exact texts _ (List.getElem_mem here)

/-- Putting a value into a list that has values compares it with one of them. -/
theorem texts_of_insertBy? {sorted longer : List α} {value : α} (some' : sorted ≠ [])
    (texts : ∀ a ∈ sorted, (key a).text?.isSome = isText)
    (h : insertBy? key sorted value = some longer) :
    longer ≠ [] ∧ (key value).text?.isSome = isText ∧
      ∀ a ∈ longer, (key a).text?.isSome = isText := by
  obtain ⟨place, found, inserted⟩ := Option.bind_eq_some_iff.mp h
  cases inserted
  have nonempty : 0 < sorted.length := List.length_pos_iff.mpr some'
  have own := text?_isSome_of_placeBetween? texts nonempty le_rfl found
  refine ⟨by simp, own, fun a mem => ?_⟩
  rcases List.mem_append.mp mem with before | after
  · exact texts a (List.mem_of_mem_take before)
  · rcases List.mem_cons.mp after with rfl | behind
    · exact own
    · exact texts a (List.mem_of_mem_drop behind)

theorem texts_of_foldlM_insertBy? {others : List α} :
    ∀ {sorted longer : List α}, sorted ≠ [] → (∀ a ∈ sorted, (key a).text?.isSome = isText) →
      others.foldlM (insertBy? key) sorted = some longer →
      ∀ a ∈ others, (key a).text?.isSome = isText := by
  induction others with
  | nil =>
    intro _ _ _ _ _ a mem
    cases mem
  | cons value rest ih =>
    intro sorted longer some' texts h
    rw [List.foldlM_cons] at h
    obtain ⟨next, inserted, folded⟩ := Option.bind_eq_some_iff.mp h
    obtain ⟨some'', own, texts'⟩ := texts_of_insertBy? some' texts inserted
    exact List.forall_mem_cons.mpr ⟨own, ih some'' texts' folded⟩

/-- Splitting off a run takes values from the front. -/
theorem append_of_splitRun? (falling : Bool) : ∀ {rest run others : List α} {last : α},
    splitRun? key falling last rest = some (run, others) → rest = run ++ others := by
  intro rest
  induction rest with
  | nil =>
    intro run others last h
    cases h
    rfl
  | cons value rest ih =>
    intro run others last h
    rw [splitRun?] at h
    obtain ⟨less, -, next⟩ := Option.bind_eq_some_iff.mp h
    split at next
    · obtain ⟨⟨run', others'⟩, split', joined⟩ := Option.bind_eq_some_iff.mp next
      cases joined
      exact congrArg (value :: ·) (ih split')
    · cases next
      rfl

/-- The values of a run are compared one by one. -/
theorem texts_of_splitRun? (falling : Bool) : ∀ {rest run others : List α} {last : α},
    (key last).text?.isSome = isText → splitRun? key falling last rest = some (run, others) →
      ∀ a ∈ run, (key a).text?.isSome = isText := by
  intro rest
  induction rest with
  | nil =>
    intro run others last _ h
    cases h
    simp
  | cons value rest ih =>
    intro run others last text h
    rw [splitRun?] at h
    obtain ⟨less, compared, next⟩ := Option.bind_eq_some_iff.mp h
    have own : (key value).text?.isSome = isText := (text?_isSome_of_before? compared).trans text
    split at next
    · obtain ⟨⟨run', others'⟩, split', joined⟩ := Option.bind_eq_some_iff.mp next
      cases joined
      exact List.forall_mem_cons.mpr ⟨own, ih own split'⟩
    · cases next
      simp

/-- Of values that are sorted all have texts for keys or none has. -/
theorem texts_of_sortBy? {values sorted : List α} (h : sortBy? key values = some sorted) :
    ∃ isText, ∀ a ∈ values, (key a).text?.isSome = isText := by
  match values, h with
  | [], _ => exact ⟨true, by simp⟩
  | [a], _ => exact ⟨(key a).text?.isSome, by simp⟩
  | first :: second :: rest, h =>
    rw [sortBy?] at h
    obtain ⟨falling, compared, next⟩ := Option.bind_eq_some_iff.mp h
    obtain ⟨⟨run, others⟩, split, folded⟩ := Option.bind_eq_some_iff.mp next
    obtain rfl := append_of_splitRun? falling split
    have inRun := texts_of_splitRun? falling (text?_isSome_of_before? compared) split
    have start : ∀ a ∈ first :: second :: run,
        (key a).text?.isSome = (key first).text?.isSome := by
      rw [List.forall_mem_cons, List.forall_mem_cons]
      exact ⟨rfl, text?_isSome_of_before? compared, inRun⟩
    refine ⟨(key first).text?.isSome, ?_⟩
    have inOthers : ∀ a ∈ others, (key a).text?.isSome = (key first).text?.isSome := by
      refine texts_of_foldlM_insertBy? ?_ ?_ folded
      · split <;> simp
      · intro a mem
        apply start
        split at mem
        · exact List.mem_reverse.mp mem
        · exact mem
    intro a mem
    rw [← List.cons_append, ← List.cons_append] at mem
    rcases List.mem_append.mp mem with inStart | other
    · exact start a inStart
    · exact inOthers a other

end Sorted

end GrammarChart.Json
