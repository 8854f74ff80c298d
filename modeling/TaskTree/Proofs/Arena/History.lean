/-
Everything that may have happened to a tree.

A tree is created empty. It grows by tasks that bring their guards and
children with them, at any time, also between two steps of a run. It is
stepped, reset and copied, and from outside somebody may write its board,
change its listeners and take its journal. `History` is any sequence of
this, with a mark that says whether the steps since the tree was last
created or reset have all given a status and no fault.

Whatever happened, the tree is ready for a step (`History.ready`).
-/
import TaskTree.Proofs.Arena.Stack

namespace TaskTree.Arena

variable {E T : Type} [Behavior E T]

/-- The arenas that come about, and whether all steps of the present run
have gone well. -/
inductive History : (fine : Bool) → Arena E T → Prop where
  | empty (board : E) (dice : Nat → Nat) : History true (Arena.empty board dice)
  | setRoot {fine : Bool} {a a' : Arena E T} {root : Blueprint T} {id : TaskId}
      (before : History fine a) (grown : a.setRoot root = .ok (id, a')) :
      History fine a'
  | attach {fine : Bool} {a a' : Arena E T} {parent id : TaskId}
      {child : Blueprint T} (before : History fine a)
      (grown : a.attach parent child = .ok (id, a')) : History fine a'
  | setGuard {fine : Bool} {a a' : Arena E T} {owner id : TaskId}
      {guard : Blueprint T} (before : History fine a)
      (grown : a.setGuard owner guard = .ok (id, a')) : History fine a'
  | step {fine : Bool} {a a' : Arena E T} {budget : Nat} {delta : Float32}
      {result : Except Fault Status} (before : History fine a)
      (stepped : Arena.step budget delta a = some (result, a')) :
      History (fine && result.isOk) a'
  | reset {fine : Bool} {a : Arena E T} (before : History fine a) :
      History true a.reset
  | instantiate {fine : Bool} {a : Arena E T} (before : History fine a)
      (board : E) :
      History true (a.instantiate board)
  | outside {fine : Bool} {a : Arena E T} (before : History fine a) (board : E)
      (listeners : List Listener) (journal : Array Entry) :
      History fine { a with board, listeners, journal }

variable {a a' : Arena E T}

-- ============================================================== growing

omit [Behavior E T] in
/-- A task that may be asked about may be linked to. -/
theorem open_of_shown {id : TaskId} {s : Slot T} (h : a.shown? id = some s) :
    id ≠ .evaluator ∧ id.index < a.slots.size := by
  unfold shown? at h
  split at h
  · cases h
  · rename_i hne
    exact ⟨hne, (Array.getElem?_eq_some_iff.1 h).1⟩

/-- The root is planted where there is none. -/
theorem setRoot_eq_ok {root : Blueprint T} {id : TaskId}
    (h : a.setRoot root = .ok (id, a')) :
    Link.root.Open a ∧ a' = plant .root root a := by
  unfold setRoot at h
  split at h
  · cases h
  · rename_i hroot
    cases h
    exact ⟨hroot, rfl⟩

/-- A child is planted under a task that has room for it. -/
theorem attach_eq_ok {parent id : TaskId} {child : Blueprint T}
    (h : a.attach parent child = .ok (id, a')) :
    (Link.child parent).Open a ∧ a' = plant (.child parent) child a
      ∧ ∃ s, a.slot? parent = some s
      ∧ s.arity.exceeded? s.children.length = none := by
  unfold attach at h
  split at h
  · cases h
  · rename_i s hs
    split at h
    · cases h
    · rename_i hroom
      cases h
      have hopen := open_of_shown hs
      rw [shown?, if_neg hopen.1] at hs
      exact ⟨hopen, rfl, s, hs, hroom⟩

/-- A guard is planted on a task that has none. -/
theorem setGuard_eq_ok {owner id : TaskId} {guard : Blueprint T}
    (h : a.setGuard owner guard = .ok (id, a')) :
    (Link.guard owner).Open a ∧ a' = plant (.guard owner) guard a
      ∧ ∃ s, a.slot? owner = some s ∧ s.guard = none := by
  unfold setGuard at h
  split at h
  · cases h
  · rename_i s hs
    split at h
    · cases h
    · rename_i hnone
      cases h
      have hopen := open_of_shown hs
      rw [shown?, if_neg hopen.1] at hs
      exact ⟨hopen, rfl, s, hs, hnone⟩

/-- Whatever happened to a tree, it is ready for a step. -/
theorem History.ready {fine : Bool} (h : History fine a) : Ready a := by
  induction h with
  | empty board dice => exact ready_empty board dice
  | setRoot _ grown ih =>
      obtain ⟨hopen, rfl⟩ := setRoot_eq_ok grown
      exact ih.plant _ hopen
  | attach _ grown ih =>
      obtain ⟨hopen, rfl, -⟩ := attach_eq_ok grown
      exact ih.plant _ hopen
  | setGuard _ grown ih =>
      obtain ⟨hopen, rfl, -⟩ := setGuard_eq_ok grown
      exact ih.plant _ hopen
  | step _ stepped ih => exact ih.step stepped
  | reset _ ih => exact ih.reset
  | instantiate _ board ih => exact ih.instantiate board
  | outside _ board listeners journal ih => exact ih.congr rfl rfl ih.rest.fault

end TaskTree.Arena
