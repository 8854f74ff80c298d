/-
The handles of a tree are names and nothing more.

A task's handle stands in the notices about it and in the faults that it
causes, and an evaluation uses it for nothing else. So a tree with other
handles has the same turns, with the other handles in what they tell
(`turn_renumber`). Nothing is asked of the new handles. They may even all be
the same one, and a tree without its handles is the tree in which they are
(`nameless`).

Trees that are the same without their handles and without what is left over
from earlier runs go on alike (`turn_nameless`). So it makes no difference
to a subtree where in a larger tree it stands (`renumber_number`).
-/
import TaskTree.Proofs.Direct.Leftovers

namespace TaskTree

-- ====================================================== other handles

/-- A fault with other handles. -/
def Fault.renumber (f : TaskId → TaskId) : Fault → Fault
  | .stranger task => .stranger (f task)
  | .missingChild task name index => .missingChild (f task) name index
  | .silentUpdate task name => .silentUpdate (f task) name
  | .secondReport task name => .secondReport (f task) name
  | .unsettledGuard task name status => .unsettledGuard (f task) name status
  | .reentry task name => .reentry (f task) name
  | .secondRoot => .secondRoot
  | .noRoot => .noRoot
  | .childLimit name limit => .childLimit name limit
  | .secondGuard name => .secondGuard name

/-- A notice with other handles. -/
def Notice.renumber (f : TaskId → TaskId) : Notice → Notice
  | .status task name previous current => .status (f task) name previous current
  | .added parent index => .added (parent.map f) index

namespace Direct

variable {E A : Type}

namespace Live

mutual

/-- A tree with other handles. -/
def renumber (f : TaskId → TaskId) : Live E A → Live E A
  | .node id task status guard children =>
    .node (f id) task status (renumberGuard f guard) (renumberAll f children)

/-- A guard with other handles. -/
def renumberGuard (f : TaskId → TaskId) : Option (Live E A) → Option (Live E A)
  | none => none
  | some guard => some (renumber f guard)

/-- A row of trees with other handles. -/
def renumberAll (f : TaskId → TaskId) : List (Live E A) → List (Live E A)
  | [] => []
  | child :: rest => renumber f child :: renumberAll f rest

end

/-- Children get other handles one by one. -/
theorem renumberAll_eq_map (f : TaskId → TaskId) (children : List (Live E A)) :
    renumberAll f children = children.map (renumber f) := by
  induction children with
  | nil => rfl
  | cons child rest ih => rw [renumberAll, List.map_cons, ih]

/-- Children in two parts. -/
theorem renumberAll_append (f : TaskId → TaskId)
    (front back : List (Live E A)) :
    renumberAll f (front ++ back)
      = renumberAll f front ++ renumberAll f back := by
  simp only [renumberAll_eq_map, List.map_append]

/-- The first of the children. -/
theorem renumberAll_take (f : TaskId → TaskId) (n : Nat)
    (children : List (Live E A)) :
    renumberAll f (children.take n) = (renumberAll f children).take n := by
  simp only [renumberAll_eq_map, List.map_take]

/-- The rest of the children. -/
theorem renumberAll_drop (f : TaskId → TaskId) (n : Nat)
    (children : List (Live E A)) :
    renumberAll f (children.drop n) = (renumberAll f children).drop n := by
  simp only [renumberAll_eq_map, List.map_drop]

end Live

open Live

/-- A world in which everybody was told of other handles. -/
def World.renumber (f : TaskId → TaskId) (w : World E) : World E :=
  { w with notices := w.notices.map (Notice.renumber f) }

section

variable {α : Type} (f : Fault → Fault)

/-- A result that is no fault names nobody. -/
theorem mapError_ok (value : α) :
    (Except.ok value : Except Fault α).mapError f = .ok value := rfl

/-- A fault names somebody else. -/
theorem mapError_error (fault : Fault) :
    (Except.error fault : Except Fault α).mapError f = .error (f fault) := rfl

end

/-- What comes of an evaluation, with other handles. -/
def Ran.renumber {L α : Type} (f : TaskId → TaskId) (relabel : L → L)
    (ran : Ran E L α) : Ran E L α where
  result := ran.result.mapError (Fault.renumber f)
  live := relabel ran.live
  world := ran.world.renumber f

-- ======================================================= single tasks

section

variable (f : TaskId → TaskId) (self : TaskId) (task : Stock E A)
  (status : Status) (guard : Option (Live E A)) (children : List (Live E A))
  (w : World E)

/-- A task concludes under another handle as it does under its own: the notice
of it names the handle, and nothing else does. -/
theorem conclude_renumber (outcome : Outcome) :
    conclude (f self) task status (renumberGuard f guard)
      (renumberAll f children) outcome
        (w.renumber f)
      = (conclude self task status guard children outcome w).renumber f
        (Live.renumber f) := by
  simp only [conclude, World.tell, World.renumber, Ran.renumber, mapError_ok,
    Live.renumber, Notice.renumber, List.map_append, List.map_cons,
    List.map_nil]

/-- Whether it finishes with an outcome or with a fault. -/
theorem finish_renumber (result : Except Fault Outcome) :
    finish (f self) task status (renumberGuard f guard) (renumberAll f children)
        (result.mapError (Fault.renumber f)) (w.renumber f)
      = (finish self task status guard children result w).renumber f
        (Live.renumber f) := by
  cases result with
  | ok outcome =>
      exact conclude_renumber f self task status guard children w outcome
  | error fault => rfl

/-- Entering a task has nothing to do with handles. -/
theorem enter_renumber :
    enter (w.renumber f) task
      = ((enter w task).1, (enter w task).2.renumber f) := by
  cases task with
  | repeating count remaining =>
      simp only [enter]
      split <;> rfl
  | _ => rfl

/-- What a guard's outcome means for its task does not depend on handles, except
that an unsettled guard is named. -/
theorem admission_renumber (name : String) (result : Except Fault Outcome) :
    admission (f self) name (result.mapError (Fault.renumber f))
      = (admission self name result).mapError (Fault.renumber f) := by
  rcases result with fault | (_ | _ | _) <;> rfl

end

-- ========================================================== no handles

/-- The handle of all tasks of a tree without handles. -/
def anyone (_ : TaskId) : TaskId := .evaluator

/-- A tree without its handles, and without what is left over from earlier
runs. -/
def nameless (live : Live E A) : Live E A := pruned (live.renumber anyone)

mutual

/-- Where a blueprint's handles begin is nothing to a tree without them. -/
theorem renumber_number (b : Blueprint (Stock E A)) (m n : Nat) :
    (number m b).renumber anyone = (number n b).renumber anyone := by
  match b with
  | .node task guard children =>
      rw [number, number, renumber, renumber,
        renumberGuard_number guard (m + 1) (n + 1),
        renumberAll_number children _ (n + 1 + Blueprint.countGuard guard)]
      rfl

/-- The same for a guard. -/
theorem renumberGuard_number (guard : Option (Blueprint (Stock E A)))
    (m n : Nat) :
    renumberGuard anyone (numberGuard m guard)
      = renumberGuard anyone (numberGuard n guard) := by
  match guard with
  | none => rfl
  | some g =>
      rw [numberGuard, numberGuard, renumberGuard, renumberGuard,
        renumber_number g m n]

/-- The same for children, one after another. -/
theorem renumberAll_number (children : List (Blueprint (Stock E A)))
    (m n : Nat) :
    renumberAll anyone (numberAll m children)
      = renumberAll anyone (numberAll n children) := by
  match children with
  | [] => rfl
  | child :: rest =>
      rw [numberAll, numberAll, renumberAll, renumberAll,
        renumber_number child m n, renumberAll_number rest _ (n + child.count)]

end

-- =============================================================== turns

variable [Deed E A] {f : TaskId → TaskId} {delta : Float32}

/-- The turns of a tree, and its being asked as a guard, are the same with
other handles. -/
structure Renumbers (f : TaskId → TaskId) (delta : Float32)
    (live : Live E A) : Prop where
  turn : ∀ w, turn delta (live.renumber f) (w.renumber f)
    = (turn delta live w).renumber f (Live.renumber f)
  ask : ∀ w, ask delta (some (live.renumber f)) (w.renumber f)
    = (ask delta (some live) w).renumber f (renumberGuard f)

/-- Children in a row are run alike, if each of them is. By induction on the
children; whether the next one is run depends on the outcome only. -/
theorem row_renumber {children : List (Live E A)}
    (h : ∀ c ∈ children, Renumbers f delta c) (goOn : Outcome) (w : World E) :
    row delta goOn (renumberAll f children) (w.renumber f)
      = (row delta goOn children w).renumber f
        (Prod.map id (renumberAll f)) := by
  induction children generalizing w with
  | nil =>
      rw [renumberAll, row, row]
      rfl
  | cons child rest ih =>
      have hrest := ih fun c hc => h c (List.mem_cons_of_mem _ hc)
      rw [renumberAll, row, row]
      dsimp only
      rw [(h child List.mem_cons_self).turn w]
      cases hresult : (turn delta child w).result with
      | error fault =>
          simp only [Ran.renumber, hresult, mapError_error, Prod.map,
            renumberAll, id_eq]
      | ok outcome =>
          simp only [Ran.renumber, hresult, mapError_ok]
          split
          · rw [hrest]
            rfl
          · rfl

/-- A task without children does not look at handles at all. -/
theorem work_leaf_renumber (self : TaskId) {task : Stock E A}
    (hleaf : task.arity = .leaf) (status : Status) (guard : Option (Live E A))
    (children : List (Live E A)) (w : World E) :
    work delta (f self) task status (renumberGuard f guard)
      (renumberAll f children) (w.renumber f)
      = (work delta self task status guard children w).renumber f
        (Live.renumber f) := by
  cases task with
  | success | failure | wait _ _ | condition _ _ =>
      rw [work, work]
      exact conclude_renumber ..
  | action name deed =>
      -- What a deed does depends on the board, which is the same.
      rw [work, work]
      have hboard : (w.renumber f).board = w.board := rfl
      rw [hboard]
      cases (Deed.act deed w.board delta).1 with
      | fresh => rfl
      | running | succeeded | failed =>
          exact conclude_renumber f self _ status guard children
            { w with board := (Deed.act deed w.board delta).2.1 } _
  | sequence _ | selector _ | invert | alwaysSucceed | alwaysFail | untilSuccess
  | untilFail
  | repeating _ _ => cases hleaf

/-- A task does its work alike, if its children are evaluated alike: a
composite, a task with one child, or a leaf. -/
theorem work_renumber {children : List (Live E A)}
    (h : ∀ c ∈ children, Renumbers f delta c) (self : TaskId) (task : Stock E A)
    (status : Status) (guard : Option (Live E A)) (w : World E) :
    work delta (f self) task status (renumberGuard f guard)
      (renumberAll f children) (w.renumber f)
      = (work delta self task status guard children w).renumber f
        (Live.renumber f) := by
  rcases arity_cases task with ⟨mk, goOn, current, hmk, rfl⟩ | hsingle | hleaf
  · rw [work_composite hmk, work_composite hmk, ← renumberAll_drop,
      row_renumber (fun c hc => h c (List.mem_of_mem_drop hc))]
    dsimp only [Ran.renumber, Prod.map]
    rw [← renumberAll_take, ← renumberAll_append]
    exact finish_renumber ..
  · rw [work_single _ _ _ _ _ _ hsingle, work_single _ _ _ _ _ _ hsingle]
    split
    · exact conclude_renumber ..
    -- Without its child such a task is at fault.
    · cases children with
      | nil => rfl
      | cons child rest =>
          dsimp only [renumberAll]
          rw [(h child List.mem_cons_self).turn w]
          cases hresult : (turn delta child w).result with
          | error fault =>
              simp only [Ran.renumber, hresult, mapError_error]
              rfl
          | ok outcome =>
              simp only [Ran.renumber, hresult, mapError_ok]
              exact conclude_renumber f self _ status guard
                ((turn delta child w).live :: rest) _ _
  · exact work_leaf_renumber self hleaf status guard children w

/-- A guard is asked alike. -/
theorem ask_renumber {guard : Option (Live E A)}
    (h : ∀ g, guard = some g → Renumbers f delta g) (w : World E) :
    ask delta (renumberGuard f guard) (w.renumber f)
      = (ask delta guard w).renumber f (renumberGuard f) := by
  cases guard with
  | none =>
      rw [renumberGuard, ask, ask]
      rfl
  | some g => exact (h g rfl).ask w

/-- Handles make no difference to any evaluation. A turn and the asking of a
guard, both by the tree's own induction. -/
theorem renumbers (f : TaskId → TaskId) (delta : Float32) (live : Live E A) :
    Renumbers f delta live := by
  induction live using Live.induction with
  | step self task status guard children hguard hchildren =>
      have hask := ask_renumber hguard
      have hwork := work_renumber hchildren self
      refine ⟨fun w => ?_, fun w => ?_⟩
      · rw [renumber, turn, turn]
        split
        · exact hwork task status guard w
        · dsimp only
          rw [hask]
          cases hresult : (ask delta guard w).result with
          | error fault =>
              simp only [Ran.renumber, hresult, mapError_error]
              rfl
          | ok admitted =>
              simp only [Ran.renumber, hresult, mapError_ok]
              cases admitted with
              | false => exact conclude_renumber ..
              | true =>
                  dsimp only
                  rw [enter_renumber]
                  exact hwork _ status _ _
      · rw [renumber, ask, ask]
        dsimp only
        rw [hask]
        cases hresult : (ask delta guard w).result with
        | error fault =>
            simp only [Ran.renumber, hresult, mapError_error]
            rfl
        | ok admitted =>
            simp only [Ran.renumber, hresult, mapError_ok]
            cases admitted with
            | false => rfl
            | true =>
                dsimp only
                rw [enter_renumber, hwork]
                dsimp only [Ran.renumber]
                rw [admission_renumber]
                rfl

/-- A turn with other handles. -/
theorem turn_renumber (f : TaskId → TaskId) (delta : Float32) (live : Live E A)
    (w : World E) :
    turn delta (live.renumber f) (w.renumber f)
      = (turn delta live w).renumber f (Live.renumber f) :=
  (renumbers f delta live).turn w

/-- Trees that are the same but for their handles, and for what they have
left over, have turns that come to the same but for the handles. -/
theorem turn_nameless (delta : Float32) {live live' : Live E A} {w w' : World E}
    (h : nameless live = nameless live') (hworld : w.Like w') :
    (turn delta live w).result.mapError (Fault.renumber anyone)
        = (turn delta live' w').result.mapError (Fault.renumber anyone)
      ∧ nameless (turn delta live w).live = nameless (turn delta live' w').live
      ∧ (turn delta live w).world.Like (turn delta live' w').world := by
  have hlike : (w.renumber anyone).Like (w'.renumber anyone) :=
    ⟨hworld.board, hworld.draws⟩
  obtain ⟨hresult, hlive, hboard, hdraws⟩ :=
    (agrees delta (live.renumber anyone)).turn
      (live'.renumber anyone) _ _ h hlike
  rw [turn_renumber, turn_renumber] at hresult hlive hboard
  simp only [turn_renumber] at hdraws
  exact ⟨hresult, hlive, hboard, hdraws⟩

end Direct

end TaskTree
