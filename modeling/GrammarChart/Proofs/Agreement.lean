import GrammarChart.Fault

/-!
# Agreement

Two computations agree when they fault in the same way, or give results that are related.
-/

set_option autoImplicit false

namespace GrammarChart

/-- Both computations are the same fault, or their results are related. -/
inductive Agree {α β : Type} (R : α → β → Prop) : Except Fault α → Except Fault β → Prop where
  | fault (fault : Fault) : Agree R (.error fault) (.error fault)
  | ok {a : α} {b : β} (related : R a b) : Agree R (.ok a) (.ok b)

namespace Agree

variable {α β γ δ : Type} {R : α → β → Prop} {S : γ → δ → Prop} {x : Except Fault α}
  {y : Except Fault β}

/-- Computations that agree, followed by ones that agree on related results, agree. -/
theorem bind (h : Agree R x y) {f : α → Except Fault γ} {g : β → Except Fault δ}
    (next : ∀ a b, R a b → Agree S (f a) (g b)) : Agree S (x >>= f) (y >>= g) := by
  cases h with
  | fault fault => exact .fault fault
  | ok related => exact next _ _ related

/-- Results of computations that agree can be replaced by related ones. -/
theorem map (h : Agree R x y) {f : α → γ} {g : β → δ} (next : ∀ a b, R a b → S (f a) (g b)) :
    Agree S (x.map f) (y.map g) := by
  cases h with
  | fault fault => exact .fault fault
  | ok related => exact .ok (next _ _ related)

/-- What is related more strongly is related. -/
theorem mono {S : α → β → Prop} (h : Agree R x y) (weaker : ∀ a b, R a b → S a b) :
    Agree S x y := by
  cases h with
  | fault fault => exact .fault fault
  | ok related => exact .ok (weaker _ _ related)

/-- Computations with equal results are equal when they agree. -/
theorem eq {x y : Except Fault α} (h : Agree (· = ·) x y) : x = y := by
  cases h with
  | fault fault => rfl
  | ok related => rw [related]

end Agree
end GrammarChart
