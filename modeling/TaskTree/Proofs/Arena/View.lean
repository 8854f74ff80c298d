/-
What the operations of an arena do to its slots and to what listeners are
told.

The slots of an arena are looked at through `slot?` alone. Every operation
of a step changes at most one slot, and all it does to the rest of the
arena is to write the journal; so two facts say everything about an
operation that later proofs need, the slot that it changes and the notices
that it sends. Both are collected here as rules for `simp`.
-/
import TaskTree.Arena.Step

namespace TaskTree

/-- Whom an entry tells, and what. -/
def Entry.notice? : Entry → Option (Listener × Notice)
  | .told who notice => some (who, notice)
  | _ => none

namespace Arena

variable {E T : Type}

-- ============================================================ the slots

/-- Every slot after one of them was changed. -/
@[simp] theorem slot?_modify (a : Arena E T) (id other : TaskId)
    (f : Slot T → Slot T) :
    (a.modify id f).slot? other
      = if other = id then (a.slot? id).map f else a.slot? other := by
  split
  · rename_i h
    rw [h, slot?_modify_self]
  · rename_i h
    exact slot?_modify_of_ne a f h

/-- Two changes of one slot are one. -/
theorem modify_modify (a : Arena E T) (id : TaskId) (f g : Slot T → Slot T) :
    (a.modify id f).modify id g = a.modify id (g ∘ f) := by
  simp only [modify, Arena.mk.injEq, and_true]
  refine Array.ext_getElem? fun i => ?_
  simp only [Array.getElem?_modify]
  split <;> simp

/-- A change is what it does to the slot that is there. -/
theorem modify_congr {a : Arena E T} {id : TaskId} {f g : Slot T → Slot T}
    (h : ∀ s, a.slot? id = some s → f s = g s) :
    a.modify id f = a.modify id g := by
  simp only [modify, Arena.mk.injEq, and_true]
  refine Array.ext_getElem? fun i => ?_
  simp only [Array.getElem?_modify]
  split
  · rename_i heq
    subst heq
    exact Option.map_congr h
  · rfl

/-- The log has no part in the slots. -/
@[simp] theorem slot?_log (a : Arena E T) (entry : Entry) (id : TaskId) :
    (a.log entry).slot? id = a.slot? id := rfl

/-- Neither has what listeners are told. -/
@[simp] theorem slot?_announce (a : Arena E T) (notice : Notice) (id : TaskId) :
    (a.announce notice).slot? id = a.slot? id := rfl

/-- Neither has the fault of a step. -/
@[simp] theorem slot?_raise (a : Arena E T) (fault : Fault) (id : TaskId) :
    (a.raise fault).slot? id = a.slot? id := rfl

-- ========================================================== the notices

/-- Whom the journal tells, and what, oldest first. -/
def told (a : Arena E T) : List (Listener × Notice) :=
  a.journal.toList.filterMap Entry.notice?

/-- A change of a slot tells nobody anything. -/
@[simp] theorem told_modify (a : Arena E T) (id : TaskId)
    (f : Slot T → Slot T) :
    (a.modify id f).told = a.told := rfl

/-- An entry tells of its notice, if it has one, and otherwise of nothing. -/
@[simp] theorem told_log (a : Arena E T) (entry : Entry) :
    (a.log entry).told = a.told ++ entry.notice?.toList := by
  unfold told log
  rw [Array.toList_push, List.filterMap_append]
  cases entry <;> rfl

/-- The entries of an announcement hold what the listeners are told, in their
order. -/
theorem filterMap_told (listeners : List Listener) (notice : Notice) :
    (listeners.map fun who => Entry.told who notice).filterMap Entry.notice?
      = listeners.map fun who => (who, notice) := by
  induction listeners with
  | nil => rfl
  | cons who rest ih =>
      have hhead : (Entry.told who notice).notice? = some (who, notice) := rfl
      rw [List.map_cons, List.filterMap_cons_some hhead, ih, List.map_cons]

/-- An announcement tells every listener once, in the order in which they are
kept. -/
@[simp] theorem told_announce (a : Arena E T) (notice : Notice) :
    (a.announce notice).told = a.told ++ a.listeners.map fun who =>
      (who, notice) := by
  unfold told announce
  rw [Array.toList_appendList, List.filterMap_append, filterMap_told]

end Arena

end TaskTree
