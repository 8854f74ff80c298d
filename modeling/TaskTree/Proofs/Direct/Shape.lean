/-
What no evaluation of a tree changes.

A turn moves tasks on, sets statuses and lets deeds change themselves. All
else about a tree stays: its handles, which task stands where, and every
parameter. `skeleton` is what is left of a tree when the changing parts are
struck out, and `turn_skeleton` says that a turn does not change it. The
handles of a tree can be read off its skeleton.

Facts about an evaluation are proved along one route, here and in the
modules that follow: first for `row` and `work`, given the same fact about
the turn of every child, then for `ask` and `turn`, and by `Live.induction`
for all trees.
-/
import TaskTree.Proofs.Direct.Evaluator

namespace TaskTree

-- ============================================================= the kinds

/-- A stock task without its run and without what its deed remembers. -/
def Stock.kind {E A : Type} : Stock E A → Stock E Unit
  | .sequence _ => .sequence 0
  | .selector _ => .selector 0
  | .invert => .invert
  | .alwaysSucceed => .alwaysSucceed
  | .alwaysFail => .alwaysFail
  | .untilSuccess => .untilSuccess
  | .untilFail => .untilFail
  | .repeating count _ => .repeating count 0
  | .success => .success
  | .failure => .failure
  | .wait seconds _ => .wait seconds 0
  | .condition name holds => .condition name holds
  | .action name _ => .action name ()

/-- A kind determines the arity. -/
@[simp] theorem Stock.kind_arity {E A : Type} (task : Stock E A) :
    task.kind.arity = task.arity := by
  cases task <;> rfl

/-- A kind determines the name. -/
@[simp] theorem Stock.kind_name {E A : Type} (task : Stock E A) :
    task.kind.name = task.name := by
  cases task <;> rfl

namespace Direct

variable {E A : Type}

namespace Live

-- ============================================================= induction

/-- Induction over a tree: a property holds of a tree if it holds of its
guard and of its children. -/
@[elab_as_elim] theorem induction {motive : Live E A → Prop}
    (step : ∀ id task status guard children, (∀ g, guard = some g → motive g) →
      (∀ c ∈ children, motive c) →
        motive (.node id task status guard children)) :
    ∀ live, motive live
  | .node id task status guard children =>
    step id task status guard children
      (fun g _ => induction step g) (fun c _ => induction step c)
termination_by live => sizeOf live
decreasing_by
  · subst_vars
    simp only [node.sizeOf_spec, Option.some.sizeOf_spec]
    omega
  · have := List.sizeOf_lt_of_mem ‹c ∈ children›
    simp only [node.sizeOf_spec]
    omega

-- =========================================================== the handles

mutual

/-- The handles of a tree in preorder. -/
def ids : Live E A → List TaskId
  | .node id _ _ guard children => id :: (guardIds guard ++ allIds children)

/-- The handles of a guard. -/
def guardIds : Option (Live E A) → List TaskId
  | none => []
  | some guard => guard.ids

/-- The handles of a row of trees. -/
def allIds : List (Live E A) → List TaskId
  | [] => []
  | child :: rest => child.ids ++ allIds rest

end

/-- The root's handle is one of the tree's. -/
theorem id_mem_ids (live : Live E A) : live.id ∈ live.ids := by
  cases live
  rw [ids]
  exact List.mem_cons_self

/-- The handles of children are those of each of them, in order. -/
theorem allIds_eq_flatMap (children : List (Live E A)) :
    allIds children = children.flatMap ids := by
  induction children with
  | nil => rfl
  | cons child rest ih => rw [allIds, ih, List.flatMap_cons]

/-- Children in two parts. -/
theorem allIds_append (front back : List (Live E A)) :
    allIds (front ++ back) = allIds front ++ allIds back := by
  rw [allIds_eq_flatMap, allIds_eq_flatMap, allIds_eq_flatMap,
    List.flatMap_append]

/-- A handle below a row is a handle below one of its trees. -/
theorem mem_allIds {id : TaskId} {children : List (Live E A)} :
    id ∈ allIds children ↔ ∃ c ∈ children, id ∈ c.ids := by
  rw [allIds_eq_flatMap, List.mem_flatMap]

-- ========================================================== the skeleton

mutual

/-- What no evaluation of a tree changes. -/
def skeleton : Live E A → Live E Unit
  | .node id task _ guard children =>
    .node id task.kind .fresh (guardSkeleton guard) (skeletons children)

/-- The skeleton of a guard. -/
def guardSkeleton : Option (Live E A) → Option (Live E Unit)
  | none => none
  | some guard => some guard.skeleton

/-- The skeletons of a row of trees. -/
def skeletons : List (Live E A) → List (Live E Unit)
  | [] => []
  | child :: rest => child.skeleton :: skeletons rest

end

/-- The skeleton of a tree stands where the tree stands. -/
theorem skeleton_id (live : Live E A) : live.skeleton.id = live.id := by
  cases live
  rfl

/-- Children in two parts. -/
theorem skeletons_append (front back : List (Live E A)) :
    skeletons (front ++ back) = skeletons front ++ skeletons back := by
  induction front with
  | nil => rfl
  | cons child rest ih =>
      rw [List.cons_append, skeletons, ih, skeletons, List.cons_append]

/-- A row of children that is cut in two is still the same row. -/
theorem skeletons_take_append_drop (n : Nat) (children : List (Live E A)) :
    skeletons (children.take n) ++ skeletons (children.drop n)
      = skeletons children := by
  rw [← skeletons_append, List.take_append_drop]

/-- The skeletons of children stand where the children stand. -/
theorem skeletons_map_id (children : List (Live E A)) :
    (skeletons children).map id = children.map id := by
  induction children with
  | nil => rfl
  | cons child rest ih =>
      rw [skeletons, List.map_cons, List.map_cons, skeleton_id, ih]

/-- So does that of a guard. -/
theorem guardSkeleton_map_id (guard : Option (Live E A)) :
    (guardSkeleton guard).map id = guard.map id := by
  cases guard with
  | none => rfl
  | some guard =>
      rw [guardSkeleton, Option.map_some, Option.map_some, skeleton_id]

mutual

/-- A skeleton has the handles of its tree. -/
theorem skeleton_ids : (live : Live E A) → live.skeleton.ids = live.ids
  | .node id _ _ guard children => by
    rw [skeleton, ids, ids, guardSkeleton_ids guard, skeletons_ids children]

/-- The skeleton of a guard has the guard's handles. -/
theorem guardSkeleton_ids :
    (guard : Option (Live E A)) →
      guardIds (guardSkeleton guard) = guardIds guard
  | none => rfl
  | some guard => by
    rw [guardSkeleton, guardIds, guardIds, skeleton_ids guard]

/-- Those of children have the children's. -/
theorem skeletons_ids :
    (children : List (Live E A)) → allIds (skeletons children) = allIds children
  | [] => rfl
  | child :: rest => by
    rw [skeletons, allIds, allIds, skeleton_ids child, skeletons_ids rest]

end

end Live

-- ======================================================= leaves at work

open Live

variable [Deed E A]

/-- What the update of a task without children comes to: a report, or none where
an action gave none. The task keeps its kind, and of the world only the board
may change. All leaves but the action conclude with an outcome. The action is at
fault if its deed leaves it fresh. -/
theorem work_leaf (delta : Float32) (id : TaskId) {task : Stock E A}
    (status : Status) (guard : Option (Live E A)) (children : List (Live E A))
    (w : World E) (h : task.arity = .leaf) :
    ∃ task' board, task'.kind = task.kind
      ∧ ((∃ outcome, work delta id task status guard children w
            = conclude id task' status guard children outcome { w with board })
          ∨ (∃ name deed, task = .action name deed
            ∧ work delta id task status guard children w
              = abort id task' status guard children (.silentUpdate id name)
                { w with board })) := by
  cases task with
  | success =>
      refine ⟨.success, w.board, rfl, Or.inl ⟨.succeeded, ?_⟩⟩
      rw [work]
  | failure =>
      refine ⟨.failure, w.board, rfl, Or.inl ⟨.failed, ?_⟩⟩
      rw [work]
  | wait seconds elapsed =>
      refine ⟨.wait seconds
          (if status = .running then elapsed + delta else elapsed), w.board,
        rfl,
          Or.inl ⟨if seconds
            ≤ (if status = .running then elapsed + delta else elapsed)
          then .succeeded else .running, ?_⟩⟩
      rw [work]
  | condition name holds =>
      refine ⟨.condition name holds, w.board, rfl,
        Or.inl ⟨if holds w.board then .succeeded else .failed, ?_⟩⟩
      rw [work]
  | action name deed =>
      refine ⟨.action name (Deed.act deed w.board delta).2.2,
        (Deed.act deed w.board delta).2.1, rfl, ?_⟩
      rw [work]
      cases hstatus : (Deed.act deed w.board delta).1 with
      | fresh => exact Or.inr ⟨name, deed, rfl, rfl⟩
      | running => exact Or.inl ⟨.running, rfl⟩
      | succeeded => exact Or.inl ⟨.succeeded, rfl⟩
      | failed => exact Or.inl ⟨.failed, rfl⟩
  | sequence _ | selector _ | invert | alwaysSucceed | alwaysFail | untilSuccess
  | untilFail
  | repeating _ _ => cases h

/-- What the update of a decorator comes to. Six kinds of task with one
definition of their work; the others have another arity. -/
theorem work_single (delta : Float32) (id : TaskId) {task : Stock E A}
    (status : Status) (guard : Option (Live E A)) (children : List (Live E A))
    (w : World E) (h : task.arity = .single) :
    work delta id task status guard children w
      = if isSpent task then conclude id task status guard children .succeeded w
        else
          match children with
          | [] => abort id task status guard [] (.missingChild id task.name 0) w
          | child :: rest =>
            match (turn delta child w).result with
            | .error fault =>
              abort id task status guard
                ((turn delta child w).live :: rest) fault
                (turn delta child w).world
            | .ok outcome =>
              conclude id (passOn outcome task).2 status guard
                ((turn delta child w).live :: rest) (passOn outcome task).1
                (turn delta child w).world := by
  cases task with
  | invert | alwaysSucceed | alwaysFail | untilSuccess | untilFail
  | repeating _ _ =>
      refine (work.eq_def ..).trans ?_
      cases children <;> rfl
  | sequence _ | selector _ | success | failure | wait _ _ | condition _ _
  | action _ _ => cases h

/-- The turn of a task that nobody guards. -/
theorem turn_unguarded (delta : Float32) (self : TaskId) (task : Stock E A)
    (status : Status) (children : List (Live E A)) (w : World E) :
    turn delta (.node self task status none children) w
      = if status = .running then work delta self task status none children w
        else work delta self (enter w task).1 status none children
        (enter w task).2 := by
  rw [turn, ask]

-- ================================================== composites at work

/-- The two composites: what they are at each place, and the outcome of a
child on which they go on to the next. -/
inductive Composite : (Nat → Stock E A) → Outcome → Prop where
  | sequence : Composite .sequence .succeeded
  | selector : Composite .selector .failed

omit [Deed E A] in
/-- A composite is of the same kind at any place among its children. -/
theorem Composite.kind_eq {mk : Nat → Stock E A} {goOn : Outcome}
    (h : Composite mk goOn) (m n : Nat) : (mk m).kind = (mk n).kind := by
  cases h <;> rfl

/-- What the update of a composite comes to. -/
theorem work_composite {mk : Nat → Stock E A} {goOn : Outcome}
    (h : Composite mk goOn) (delta : Float32) (id : TaskId) (current : Nat)
    (status : Status) (guard : Option (Live E A)) (children : List (Live E A))
    (w : World E) :
    work delta id (mk current) status guard children w
      = let ran := row delta goOn (children.drop current) w
        finish id (mk (current + ran.live.1)) status guard
          (children.take current ++ ran.live.2) ran.result ran.world := by
  cases h with
  | sequence => rw [work]
  | selector => rw [work]

omit [Deed E A] in
/-- Every task is a composite, a decorator or a leaf. -/
theorem arity_cases (task : Stock E A) :
    (∃ mk goOn current, Composite mk goOn ∧ task = mk current)
      ∨ task.arity = .single ∨ task.arity = .leaf := by
  cases task with
  | sequence current => exact Or.inl ⟨_, _, current, .sequence, rfl⟩
  | selector current => exact Or.inl ⟨_, _, current, .selector, rfl⟩
  | invert | alwaysSucceed | alwaysFail | untilSuccess | untilFail
  | repeating _ _ =>
      exact Or.inr (Or.inl rfl)
  | success | failure | wait _ _ | condition _ _
  | action _ _ => exact Or.inr (Or.inr rfl)

-- ===================================================== nothing else moves

omit [Deed E A] in
/-- Entering a task keeps its kind: at most its count is drawn. -/
theorem enter_kind (w : World E) (task : Stock E A) :
    (enter w task).1.kind = task.kind := by
  cases task with
  | repeating count _ =>
      rw [enter]
      split <;> rfl
  | _ => rfl

omit [Deed E A] in
/-- So does passing an outcome on. -/
theorem passOn_kind (outcome : Outcome) (task : Stock E A) :
    (passOn outcome task).2.kind = task.kind := by
  cases outcome <;> cases task <;> rfl

omit [Deed E A] in
/-- A task that concludes is the same task in the same place, with other
leftovers. -/
@[simp] theorem conclude_skeleton (id : TaskId) (task : Stock E A)
    (status : Status) (guard : Option (Live E A)) (children : List (Live E A))
    (outcome : Outcome) (w : World E) :
    (conclude id task status guard children outcome w).live.skeleton
      = .node id task.kind .fresh (guardSkeleton guard) (skeletons children) :=
  rfl

omit [Deed E A] in
/-- So is one that finishes. -/
@[simp] theorem finish_skeleton (id : TaskId) (task : Stock E A)
    (status : Status) (guard : Option (Live E A)) (children : List (Live E A))
    (result : Except Fault Outcome) (w : World E) :
    (finish id task status guard children result w).live.skeleton
      = .node id task.kind .fresh (guardSkeleton guard)
        (skeletons children) := by
  cases result <;> rfl

omit [Deed E A] in
/-- So is one at fault. -/
@[simp] theorem abort_skeleton {α : Type} (id : TaskId) (task : Stock E A)
    (status : Status) (guard : Option (Live E A)) (children : List (Live E A))
    (fault : Fault) (w : World E) :
    (abort (α := α) id task status guard children fault w).live.skeleton
      = .node id task.kind .fresh (guardSkeleton guard) (skeletons children) :=
  rfl

/-- The turn of a tree, and the asking of it as a guard, leave its skeleton
alone. -/
structure Unchanged (delta : Float32) (live : Live E A) : Prop where
  turn : ∀ w, (turn delta live w).live.skeleton = live.skeleton
  ask : ∀ w, guardSkeleton (ask delta (some live) w).live = some live.skeleton

/-- A row of children keeps its shape. -/
theorem row_skeletons {delta : Float32} {children : List (Live E A)}
    (h : ∀ c ∈ children, Unchanged delta c) (goOn : Outcome) (w : World E) :
    skeletons (row delta goOn children w).live.2 = skeletons children := by
  induction children generalizing w with
  | nil => rw [row]
  | cons child rest ih =>
      have hchild := (h child List.mem_cons_self).turn w
      have hrest := ih fun c hc => h c (List.mem_cons_of_mem _ hc)
      rw [row]
      dsimp only
      split
      · rw [skeletons, skeletons, hchild]
      · split
        · rw [skeletons, skeletons, hchild, hrest]
        · rw [skeletons, skeletons, hchild]

/-- The work of a task keeps its shape. -/
theorem work_skeleton {delta : Float32} {children : List (Live E A)}
    (h : ∀ c ∈ children, Unchanged delta c) (id : TaskId) (task : Stock E A)
    (status : Status) (guard : Option (Live E A)) (w : World E) :
    (work delta id task status guard children w).live.skeleton
      = .node id task.kind .fresh (guardSkeleton guard)
        (skeletons children) := by
  rcases arity_cases task with ⟨mk, goOn, current, hmk, rfl⟩ | hsingle | hleaf
  -- The children before the place are untouched, and those from it on keep
  -- their shapes.
  · have hrow : skeletons (row delta goOn (children.drop current) w).live.2
        = skeletons (children.drop current) :=
      row_skeletons (fun c hc => h c (List.mem_of_mem_drop hc)) goOn w
    have hkind :=
      hmk.kind_eq (current + (row delta goOn (children.drop current) w).live.1)
        current
    rw [work_composite hmk, finish_skeleton, skeletons_append, hrow,
      skeletons_take_append_drop, hkind]
  · rw [work_single _ _ _ _ _ _ hsingle]
    split
    · rfl
    · cases children with
      | nil => rfl
      | cons child rest =>
          have hchild := (h child List.mem_cons_self).turn w
          dsimp only
          -- The child is at fault, or its outcome is passed on.
          split
          · rw [abort_skeleton, skeletons, skeletons, hchild]
          · rw [conclude_skeleton, skeletons, skeletons, hchild, passOn_kind]
  · obtain ⟨task', board, hkind, ⟨outcome, hwork⟩ | ⟨name, deed, -, hwork⟩⟩ :=
      work_leaf delta id status guard children w hleaf
    · rw [hwork, conclude_skeleton, hkind]
    · rw [hwork, abort_skeleton, hkind]

/-- Every update ends with a report or with a fault. A composite finishes with
what its row comes to, a task with one child with what it makes of the child's
outcome, and a leaf with its own. -/
theorem work_finish (delta : Float32) (id : TaskId) (task : Stock E A)
    (status : Status) (guard : Option (Live E A)) (children : List (Live E A))
    (w : World E) :
    ∃ task' children' result w', work delta id task status guard children w
      = finish id task' status guard children' result w' := by
  rcases arity_cases task with ⟨mk, goOn, current, hmk, rfl⟩ | hsingle | hleaf
  · exact ⟨_, _, _, _, work_composite hmk ..⟩
  · rw [work_single _ _ _ _ _ _ hsingle]
    split
    · exact ⟨task, children, .ok .succeeded, w, rfl⟩
    · cases children with
      | nil => exact ⟨task, [], .error _, w, rfl⟩
      | cons child rest =>
          dsimp only
          split
          · exact ⟨task, _, .error _, _, rfl⟩
          · exact ⟨_, _, .ok _, _, rfl⟩
  · obtain ⟨task', board, -, ⟨outcome, hwork⟩ | ⟨name, deed, -, hwork⟩⟩ :=
      work_leaf delta id status guard children w hleaf
    · exact ⟨task', children, .ok outcome, _, hwork⟩
    · exact ⟨task', children, .error _, _, hwork⟩

/-- A task that reports has the status that it reports. -/
theorem work_status {delta : Float32} {id : TaskId} {task : Stock E A}
    {status : Status} {guard : Option (Live E A)} {children : List (Live E A)}
    {w : World E} {outcome : Outcome}
    (h : (work delta id task status guard children w).result = .ok outcome) :
    (work delta id task status guard children w).live.status
      = outcome.status := by
  obtain ⟨task', children', result, w', hwork⟩ :=
    work_finish delta id task status guard children w
  rw [hwork] at h ⊢
  cases result with
  | ok outcome' =>
      cases h
      rfl
  | error fault => cases h

/-- A task that had its turn has the status that it reports. -/
theorem turn_status {delta : Float32} {live : Live E A} {w : World E}
    {outcome : Outcome} (h : (turn delta live w).result = .ok outcome) :
    (turn delta live w).live.status = outcome.status := by
  cases live with
  | node id task status guard children =>
      rw [turn] at h ⊢
      split at h
      -- A running task is at work at once. Any other one asks its guard first,
      -- and concludes by itself if the guard is against it.
      · rename_i hrunning
        rw [if_pos hrunning]
        exact work_status h
      · rename_i hidle
        rw [if_neg hidle]
        dsimp only at h ⊢
        split at h
        · cases h
        · cases h
          rfl
        · exact work_status h

/-- Asking a guard keeps its shape. -/
theorem ask_skeleton {delta : Float32} {guard : Option (Live E A)}
    (h : ∀ g, guard = some g → Unchanged delta g) (w : World E) :
    guardSkeleton (ask delta guard w).live = guardSkeleton guard := by
  cases guard with
  | none => rw [ask]
  | some g => exact (h g rfl).ask w

/-- No evaluation changes the skeleton of a tree. -/
theorem unchanged (delta : Float32) (live : Live E A) :
    Unchanged delta live := by
  induction live using Live.induction with
  | step id task status guard children hguard hchildren =>
      have hask := ask_skeleton hguard
      have hwork := work_skeleton hchildren id
      -- The two evaluations of a tree: its turn, and its being asked as a
      -- guard.
      refine ⟨fun w => ?_, fun w => ?_⟩
      · rw [turn, skeleton]
        split
        · rw [hwork]
        · dsimp only
          split
          · rw [abort_skeleton, hask]
          · rw [conclude_skeleton, hask]
          · rw [hwork, hask, enter_kind]
      · rw [ask, skeleton]
        dsimp only
        split
        · rw [guardSkeleton, skeleton, hask]
        · rw [guardSkeleton, skeleton, hask]
        · rw [guardSkeleton, hwork, hask, enter_kind]

/-- A turn keeps the shape of its tree. -/
theorem turn_skeleton (delta : Float32) (live : Live E A) (w : World E) :
    (turn delta live w).live.skeleton = live.skeleton :=
  (unchanged delta live).turn w

/-- Asking a guard keeps its handles. -/
theorem ask_guardIds (delta : Float32) (guard : Option (Live E A))
    (w : World E) :
    guardIds (ask delta guard w).live = guardIds guard := by
  rw [← guardSkeleton_ids, ask_skeleton (fun g _ => unchanged delta g),
    guardSkeleton_ids]

/-- A guard stands where it stood. -/
theorem ask_map_id (delta : Float32) (guard : Option (Live E A)) (w : World E) :
    (ask delta guard w).live.map Live.id = guard.map Live.id := by
  have h : guardSkeleton (ask delta guard w).live = guardSkeleton guard :=
    ask_skeleton (fun g _ => unchanged delta g) w
  rw [← guardSkeleton_map_id, h, guardSkeleton_map_id]

/-- A turn keeps the handles of a tree. -/
theorem turn_ids (delta : Float32) (live : Live E A) (w : World E) :
    (turn delta live w).live.ids = live.ids := by
  rw [← skeleton_ids, turn_skeleton, skeleton_ids]

/-- A tree stands where it stood. -/
theorem turn_id (delta : Float32) (live : Live E A) (w : World E) :
    (turn delta live w).live.id = live.id := by
  rw [← skeleton_id, turn_skeleton, skeleton_id]

end Direct

end TaskTree
