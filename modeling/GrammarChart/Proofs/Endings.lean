import GrammarChart.Proofs.Emissions

/-!
# Endings

How a computation may end: with a good result, or with a fault that is allowed (`Ends`). Each way of
putting computations together keeps it, so what is true of a run follows the shape of the program.
-/

set_option autoImplicit false

namespace GrammarChart

/-- The computation gives a good result, or ends in a fault that is allowed. -/
inductive Ends {α : Type} (allowed : Fault → Prop) (good : α → Prop) : Except Fault α → Prop where
  | ok {a : α} (h : good a) : Ends allowed good (.ok a)
  | fault {fault : Fault} (h : allowed fault) : Ends allowed good (.error fault)

namespace Ends

variable {α β : Type} {allowed : Fault → Prop} {good : α → Prop} {good' : β → Prop}
  {e : Except Fault α}

/-- A computation that goes on with a good result ends as its second part does. -/
theorem bind {next : α → Except Fault β} (first : Ends allowed good e)
    (second : ∀ a, good a → Ends allowed good' (next a)) : Ends allowed good' (e >>= next) := by
  cases first with
  | ok h => exact second _ h
  | fault h => exact .fault h

/-- A good result that is replaced by a good one. -/
theorem map {f : α → β} (h : Ends allowed good e) (next : ∀ a, good a → good' (f a)) :
    Ends allowed good' (e.map f) := by
  cases h with
  | ok h => exact .ok (next _ h)
  | fault h => exact .fault h

/-- More results may be good, and more faults may be allowed. -/
theorem mono {allowed' : Fault → Prop} {better : α → Prop} (h : Ends allowed good e)
    (faults : ∀ fault, allowed fault → allowed' fault) (results : ∀ a, good a → better a) :
    Ends allowed' better e := by
  cases h with
  | ok h => exact .ok (results _ h)
  | fault h => exact .fault (faults _ h)

/-- A computation that ends well wherever it ends in a result, and in an allowed fault elsewhere. -/
theorem of_cases (result : ∀ a, e = .ok a → good a)
    (fault : ∀ fault, e = .error fault → allowed fault) : Ends allowed good e := by
  cases given : e with
  | ok a => exact .ok (result a given)
  | error f => exact .fault (fault f given)

/-- A result of a computation that ends well is good. -/
theorem of_eq_ok {a : α} (h : Ends allowed good e) (result : e = .ok a) : good a := by
  cases h with
  | ok h => exact Except.ok.inj result ▸ h
  | fault h => cases result

/-- A fault of a computation that ends well is allowed. -/
theorem of_eq_error {fault : Fault} (h : Ends allowed good e) (stopped : e = .error fault) :
    allowed fault := by
  cases h with
  | ok h => cases stopped
  | fault h => exact Except.error.inj stopped ▸ h

/-- A computation on every item of a list ends with a good result for each of them. -/
theorem mapM {f : β → Except Fault α} {xs : List β} (h : ∀ x ∈ xs, Ends allowed good (f x)) :
    Ends allowed (fun ys => ∀ y ∈ ys, good y) (xs.mapM f) := by
  induction xs with
  | nil => exact .ok (by simp)
  | cons x rest ih =>
    rw [List.forall_mem_cons] at h
    rw [List.mapM_cons]
    refine h.1.bind fun y isGood => (ih h.2).bind fun ys areGood => .ok ?_
    exact List.forall_mem_cons.mpr ⟨isGood, areGood⟩

end Ends
end GrammarChart
