/-
Listeners change nothing.

A tree tells its listeners of every status that it sets, and that is all it
does for them. `hushed` takes the listeners away, with all that they were
told. It is a shadow in which the tasks are what they are, so arenas that
differ in their listeners alone go on alike, step by step, and set the same
statuses (`step_hushed`, `step_alike`).
-/
import TaskTree.Proofs.Arena.Shadow
import TaskTree.Proofs.Arena.Tally

namespace TaskTree.Arena

variable {E T : Type}

/-- Nobody listens, and nobody was told of anything. -/
def hushed (a : Arena E T) : Arena E T :=
  { a with listeners := [],
           journal := a.journal.filter fun entry => entry.notice?.isNone }

/-- A result with an arena, hushed. -/
def hushedResult {U : Type} (r : U × Arena E T) : U × Arena E T :=
  (r.1, r.2.hushed)

theorem hushed_eq_shadow (a : Arena E T) :
    a.hushed = a.shadow id fun _ => false := by
  have hslots : a.slots.map (Slot.map id) = a.slots := by
    rw [funext Slot.map_id]
    exact Array.map_id a.slots
  have hlisteners : a.listeners.filter (fun _ => false) = [] :=
    List.filter_eq_nil_iff.2 fun _ _ => Bool.false_ne_true
  have hkept : Entry.kept (fun _ => false) = fun entry =>
      entry.notice?.isNone := by
    funext entry
    cases entry <;> rfl
  rw [shadow, hslots, hlisteners, hkept]
  rfl

variable [Behavior E T]

/-- A step of a hushed tree is the step of the tree, hushed. -/
theorem step_hushed (b : Nat) (delta : Float32) (a : Arena E T) :
    step b delta a.hushed = (step b delta a).map hushedResult := by
  rw [hushed_eq_shadow, step_shadow .id (fun _ => false) b delta a]
  congr 1
  funext r
  rw [shadowResult, hushedResult, hushed_eq_shadow]

/-- Arenas that differ in their listeners alone make the same step. -/
theorem step_alike {b : Nat} {delta : Float32} {a a' c : Arena E T}
    {result : Except Fault Status} (hstep : step b delta a = some (result, a'))
    (halike : c.hushed = a.hushed) :
    ∃ c', step b delta c = some (result, c') ∧ c'.hushed = a'.hushed := by
  have hhushed : (step b delta c).map hushedResult
      = some (result, a'.hushed) := by
    rw [← step_hushed b delta c, halike, step_hushed b delta a, hstep]
    rfl
  obtain ⟨⟨result', c'⟩, hstep', heq⟩ := Option.map_eq_some_iff.1 hhushed
  obtain ⟨rfl, hafter⟩ := Prod.mk.inj heq
  exact ⟨c', hstep', hafter⟩

omit [Behavior E T] in
/-- The listeners have no part in the changes. -/
theorem changes_hushed (a : Arena E T) :
    a.hushed.entries.filterMap Entry.change?
      = a.entries.filterMap Entry.change? := by
  unfold entries hushed
  rw [Array.toList_filter, List.filterMap_filter]
  congr 1
  funext entry
  cases entry <;> rfl

end TaskTree.Arena
