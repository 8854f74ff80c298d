/-
What a tree has left over from earlier runs.

A task that is not running still has a status, a place, a count or a clock
from the last time that it ran. `pruned` strikes all this out and keeps
what the running tasks know. Two trees that are the same when pruned, in
worlds with the same board and the same random numbers to come, go on
alike: `agrees` says that their turns have the same outcome, leave the
same board, and leave two trees that are again the same when pruned. The
reason is that a task which is not running is entered before it is
updated, and entering it overwrites what it has left over.

So a tree in which nothing runs goes on as if it had been reset
(`pruned_of_calm`), and a run of a tree that has come to its end leaves
nothing behind (`step_finished`).
-/
import TaskTree.Proofs.Direct.SingleChain

namespace TaskTree

/-- What the steps of a run give: the result of each and the board after
it. -/
def Arena.outcomes {E T : Type} [Behavior E T] (budget : Nat) :
    List Float32 → Arena E T → Option (List (Except Fault Status × E))
  | [], _ => some []
  | delta :: rest, a => do
    let (result, a) ← step budget delta a
    let later ← outcomes budget rest a
    return (result, a.board) :: later

namespace Direct

open Arena Live

variable {E A : Type}

-- ========================================================= pruned trees

/-- What a task knows of its run, if it is running. -/
def atWork (task : Stock E A) (status : Status) : Stock E A × Status :=
  if status = .running then (task, .running) else (task.rewind, .fresh)

mutual

/-- A tree without what is left over from earlier runs. -/
def pruned : Live E A → Live E A
  | .node self task stand guard children =>
    .node self (atWork task stand).1 (atWork task stand).2 (prunedGuard guard)
      (prunedAll children)

/-- A guard pruned. -/
def prunedGuard : Option (Live E A) → Option (Live E A)
  | none => none
  | some guard => some (pruned guard)

/-- A row of trees pruned. -/
def prunedAll : List (Live E A) → List (Live E A)
  | [] => []
  | child :: rest => pruned child :: prunedAll rest

end

/-- A running task is at work as it is. -/
theorem atWork_of_running (task : Stock E A) :
    atWork task .running = (task, .running) := if_pos rfl

/-- Any other one is as good as rewound. -/
theorem atWork_of_ne {status : Status} (h : status ≠ .running)
    (task : Stock E A) :
    atWork task status = (task.rewind, .fresh) :=
  if_neg h

/-- Whether a task runs can still be told. -/
theorem atWork_status {status : Status} (task : Stock E A) :
    (atWork task status).2 = .running ↔ status = .running := by
  by_cases h : status = .running
  · rw [h, atWork_of_running]
  · rw [atWork_of_ne h]
    exact iff_of_false (fun heq => nomatch heq) h

/-- The same task, running or not running in both places. -/
theorem atWork_congr {status status' : Status} (task : Stock E A)
    (h : status = .running ↔ status' = .running) :
    atWork task status = atWork task status' := by
  by_cases hrunning : status = .running
  · rw [hrunning, h.1 hrunning]
  · rw [atWork_of_ne hrunning, atWork_of_ne fun h' => hrunning (h.2 h')]

/-- What a row of trees comes to, pruned. -/
def prunedRow (row : Nat × List (Live E A)) : Nat × List (Live E A) :=
  (row.1, prunedAll row.2)

/-- Children are pruned one by one. -/
theorem prunedAll_eq_map (children : List (Live E A)) :
    prunedAll children = children.map pruned := by
  induction children with
  | nil => rfl
  | cons child rest ih => rw [prunedAll, List.map_cons, ih]

/-- Children in two parts. -/
theorem prunedAll_append (front back : List (Live E A)) :
    prunedAll (front ++ back) = prunedAll front ++ prunedAll back := by
  rw [prunedAll_eq_map, prunedAll_eq_map, prunedAll_eq_map, List.map_append]

/-- The first of the children, where all of them are pruned alike. -/
theorem prunedAll_take {children children' : List (Live E A)}
    (h : prunedAll children = prunedAll children') (n : Nat) :
    prunedAll (children.take n) = prunedAll (children'.take n) := by
  rw [prunedAll_eq_map, prunedAll_eq_map] at h
  rw [prunedAll_eq_map, prunedAll_eq_map, List.map_take, List.map_take, h]

/-- The rest of them. -/
theorem prunedAll_drop {children children' : List (Live E A)}
    (h : prunedAll children = prunedAll children') (n : Nat) :
    prunedAll (children.drop n) = prunedAll (children'.drop n) := by
  rw [prunedAll_eq_map, prunedAll_eq_map] at h
  rw [prunedAll_eq_map, prunedAll_eq_map, List.map_drop, List.map_drop, h]

/-- Trees that are the same when pruned have the same handles, the same
tasks at work, and parts that are the same when pruned. -/
theorem pruned_node {self self' : TaskId} {task task' : Stock E A}
    {status status' : Status} {guard guard' : Option (Live E A)}
    {children children' : List (Live E A)} :
    pruned (.node self task status guard children)
      = pruned (.node self' task' status' guard' children')
      ↔ self = self' ∧ atWork task status = atWork task' status'
        ∧ prunedGuard guard = prunedGuard guard'
        ∧ prunedAll children = prunedAll children' := by
  rw [pruned, pruned, Live.node.injEq, Prod.ext_iff, and_assoc]

mutual

/-- Where nothing runs, everything is left over. -/
theorem pruned_of_calm (live : Live E A) (h : Calm live) :
    pruned live = renewed live := by
  match live with
  | .node self task stand guard children =>
      obtain ⟨hstatus, hbelow, hbeneath⟩ := calm_node.1 h
      rw [pruned, renewed, atWork_of_ne hstatus,
        prunedGuard_of_calm guard hbelow, prunedAll_of_calm children hbeneath]

/-- A calm guard is pruned to its renewal. -/
theorem prunedGuard_of_calm (guard : Option (Live E A)) (h : CalmGuard guard) :
    prunedGuard guard = renewedGuard guard := by
  match guard with
  | none => rfl
  | some g => rw [prunedGuard, renewedGuard, pruned_of_calm g (h g rfl)]

/-- So are calm children. -/
theorem prunedAll_of_calm (children : List (Live E A)) (h : AllCalm children) :
    prunedAll children = renewedAll children := by
  match children with
  | [] => rfl
  | child :: rest =>
      obtain ⟨hchild, hrest⟩ := allCalm_cons.1 h
      rw [prunedAll, renewedAll, pruned_of_calm child hchild,
        prunedAll_of_calm rest hrest]

end

/-- Rewinding twice is rewinding once. -/
theorem rewind_rewind (task : Stock E A) :
    task.rewind.rewind = task.rewind := by
  cases task <;> rfl

mutual

/-- Renewing twice is renewing once. -/
theorem renewed_renewed (live : Live E A) :
    renewed (renewed live) = renewed live := by
  match live with
  | .node self task stand guard children =>
      rw [renewed, renewed, rewind_rewind, renewedGuard_renewed,
        renewedAll_renewed]

/-- The same for a guard. -/
theorem renewedGuard_renewed (guard : Option (Live E A)) :
    renewedGuard (renewedGuard guard) = renewedGuard guard := by
  match guard with
  | none => rfl
  | some g => rw [renewedGuard, renewedGuard, renewed_renewed]

/-- The same for children. -/
theorem renewedAll_renewed (children : List (Live E A)) :
    renewedAll (renewedAll children) = renewedAll children := by
  match children with
  | [] => rfl
  | child :: rest =>
      rw [renewedAll, renewedAll, renewed_renewed, renewedAll_renewed]

end

-- ========================================================= alike worlds

/-- The same board, and the same random numbers to come. -/
structure World.Like (w w' : World E) : Prop where
  board : w.board = w'.board
  draws : ∀ n, w.dice (w.rolled + n) = w'.dice (w'.rolled + n)

/-- A world is like itself. -/
theorem World.Like.refl (w : World E) : w.Like w := ⟨rfl, fun _ => rfl⟩

/-- What comes of two evaluations is alike: the same result, worlds that are
alike, and the same when what is left over is struck out with `strip`. -/
structure Alike {L α : Type} (strip : L → L) (r r' : Ran E L α) : Prop where
  result : r.result = r'.result
  live : strip r.live = strip r'.live
  world : r.world.Like r'.world

section

variable {w w' : World E} (self : TaskId) (task : Stock E A)
  {status status' : Status} {guard guard' : Option (Live E A)}
  {children children' : List (Live E A)}

/-- Entering a task overwrites what it has left over. Only a repetition that has
not drawn its count looks at the world, and then at the next draw only. -/
theorem enter_alike {task task' : Stock E A} (hworld : w.Like w')
    (htask : task.rewind = task'.rewind) :
    (enter w task).1 = (enter w' task').1
      ∧ (enter w task).2.Like (enter w' task').2 := by
  cases task with
  | repeating count remaining =>
      cases task' <;> cases htask
      have hdraw : w.dice w.rolled = w'.dice w'.rolled := hworld.draws 0
      simp only [enter]
      split
      · refine ⟨congrArg (fun roll => Stock.repeating count (count.draw roll))
            hdraw, hworld.board,
          fun n => ?_⟩
        -- The draws after this one are the same as well.
        have hnext := hworld.draws (1 + n)
        rw [← Nat.add_assoc, ← Nat.add_assoc] at hnext
        exact hnext
      · exact ⟨rfl, hworld⟩
  | _ =>
      cases task' <;> cases htask
      exact ⟨rfl, hworld⟩

variable (hstatus : status = .running ↔ status' = .running)
  (hguard : prunedGuard guard = prunedGuard guard')
  (hchildren : prunedAll children = prunedAll children') (hworld : w.Like w')

include hguard hchildren hworld

/-- A task that concludes is left alike: with its outcome for a status, whatever
it had before. -/
theorem conclude_alike (status status' : Status) (outcome : Outcome) :
    Alike pruned (conclude self task status guard children outcome w)
      (conclude self task status' guard' children' outcome w') :=
  ⟨rfl, pruned_node.2 ⟨rfl, rfl, hguard, hchildren⟩, hworld.board, hworld.draws⟩

include hstatus

/-- A task at fault is left with the status that it had, which the two trees
need not share as long as it does not run. -/
theorem abort_alike {α : Type} (fault : Fault) :
    Alike (α := α) pruned (abort self task status guard children fault w)
      (abort self task status' guard' children' fault w') :=
  ⟨rfl, pruned_node.2 ⟨rfl, atWork_congr task hstatus, hguard, hchildren⟩,
    hworld⟩

/-- A task that finishes, with an outcome or with a fault. -/
theorem finish_alike (result : Except Fault Outcome) :
    Alike pruned (finish self task status guard children result w)
      (finish self task status' guard' children' result w') := by
  cases result with
  | ok outcome =>
      exact conclude_alike self task hguard hchildren hworld status
        status' outcome
  | error fault =>
      exact abort_alike self task hstatus hguard hchildren hworld fault

end

-- ================================================================ turns

variable [Deed E A] {w w' : World E} {delta : Float32}

/-- Trees that are the same as `live` when pruned have turns that are alike,
and are asked alike as guards. -/
structure Agrees (delta : Float32) (live : Live E A) : Prop where
  turn : ∀ live' w w', pruned live = pruned live' → w.Like w' →
    Alike pruned (turn delta live w) (turn delta live' w')
  ask : ∀ live' w w', pruned live = pruned live' → w.Like w' →
    Alike prunedGuard (ask delta (some live) w) (ask delta (some live') w')

/-- Two rows of children that are pruned alike are run alike. By induction on
the children. The rows have the same length, since their prunings are the same
list. -/
theorem row_alike {children children' : List (Live E A)}
    (h : ∀ c ∈ children, Agrees delta c) (goOn : Outcome)
    (hchildren : prunedAll children = prunedAll children')
    (hworld : w.Like w') :
    Alike prunedRow (row delta goOn children w)
      (row delta goOn children' w') := by
  induction children generalizing children' w w' with
  | nil =>
      cases children' with
      | nil =>
          rw [row, row]
          exact ⟨rfl, rfl, hworld⟩
      | cons child' rest' => cases hchildren
  | cons child rest ih =>
      cases children' with
      | nil => cases hchildren
      | cons child' rest' =>
          rw [prunedAll, prunedAll] at hchildren
          obtain ⟨hchild, hrest⟩ := List.cons.inj hchildren
          obtain ⟨hresult, hlive, hafter⟩ :=
            (h child List.mem_cons_self).turn child' w w' hchild hworld
          rw [row, row]
          dsimp only
          -- Whether the row goes on is decided by an outcome that is the same.
          rw [← hresult]
          cases (turn delta child w).result with
          | error fault =>
              refine ⟨rfl, ?_, hafter⟩
              simp only [prunedRow, prunedAll, hlive, hrest]
          | ok outcome =>
              dsimp only
              split
              · obtain ⟨hresult', hlive', hafter'⟩ :=
                  ih (fun c hc => h c (List.mem_cons_of_mem _ hc)) hrest hafter
                obtain ⟨hcount, hrow⟩ := Prod.mk.inj hlive'
                refine ⟨hresult', ?_, hafter'⟩
                simp only [prunedRow, prunedAll, hlive, hcount, hrow]
              · refine ⟨rfl, ?_, hafter⟩
                simp only [prunedRow, prunedAll, hlive, hrest]

/-- The update of a task without children reads nothing but its own state,
whether it is running, and the board. A leaf looks at the board, at the time and
at whether it runs. An action may write the board, and may be silent. -/
theorem work_leaf_alike (self : TaskId) {task : Stock E A}
    (hleaf : task.arity = .leaf) {status status' : Status}
    {guard guard' : Option (Live E A)} {children children' : List (Live E A)}
    (hstatus : status = .running ↔ status' = .running)
    (hguard : prunedGuard guard = prunedGuard guard')
    (hchildren : prunedAll children = prunedAll children')
    (hworld : w.Like w') :
    Alike pruned (work delta self task status guard children w)
      (work delta self task status' guard' children' w') := by
  cases task with
  | success =>
      rw [work, work]
      exact conclude_alike self _ hguard hchildren hworld _ _ _
  | failure =>
      rw [work, work]
      exact conclude_alike self _ hguard hchildren hworld _ _ _
  | wait seconds elapsed =>
      rw [work, work]
      simp only [hstatus]
      exact conclude_alike self _ hguard hchildren hworld _ _ _
  | condition name holds =>
      rw [work, work, hworld.board]
      exact conclude_alike self _ hguard hchildren hworld _ _ _
  | action name deed =>
      have hwritten : ∀ board : E,
          World.Like { w with board } { w' with board } :=
        fun _ => ⟨rfl, hworld.draws⟩
      rw [work, work, hworld.board]
      cases hdone : (Deed.act deed w'.board delta).1 with
      | fresh =>
          exact abort_alike self _ hstatus hguard hchildren (hwritten _) _
      | running | succeeded | failed =>
          exact conclude_alike self _ hguard hchildren (hwritten _) _ _ _
  | sequence _ | selector _ | invert | alwaysSucceed | alwaysFail | untilSuccess
  | untilFail
  | repeating _ _ => cases hleaf

/-- A task does its work alike in both trees. A composite runs a row, a task
with one child runs that one, and a leaf runs nobody. -/
theorem work_alike {children children' : List (Live E A)}
    (h : ∀ c ∈ children, Agrees delta c) (self : TaskId) (task : Stock E A)
    {status status' : Status} {guard guard' : Option (Live E A)}
    (hstatus : status = .running ↔ status' = .running)
    (hguard : prunedGuard guard = prunedGuard guard')
    (hchildren : prunedAll children = prunedAll children')
    (hworld : w.Like w') :
    Alike pruned (work delta self task status guard children w)
      (work delta self task status' guard' children' w') := by
  rcases arity_cases task with ⟨mk, goOn, current, hmk, rfl⟩ | hsingle | hleaf
  · obtain ⟨hresult, hlive, hafter⟩ :=
      row_alike (fun c hc => h c (List.mem_of_mem_drop hc)) goOn
        (prunedAll_drop hchildren current) hworld
    obtain ⟨hcount, hrow⟩ := Prod.mk.inj hlive
    rw [work_composite hmk, work_composite hmk]
    dsimp only
    rw [hresult, hcount]
    refine finish_alike self _ hstatus hguard ?_ hafter _
    rw [prunedAll_append, prunedAll_append, prunedAll_take hchildren current,
      hrow]
  · rw [work_single _ _ _ _ _ _ hsingle, work_single _ _ _ _ _ _ hsingle]
    split
    · exact conclude_alike self _ hguard hchildren hworld _ _ _
    · cases children with
      | nil =>
          cases children' with
          | nil => exact abort_alike self _ hstatus hguard rfl hworld _
          | cons child' rest' => cases hchildren
      | cons child rest =>
          cases children' with
          | nil => cases hchildren
          | cons child' rest' =>
              rw [prunedAll, prunedAll] at hchildren
              obtain ⟨hchild, hrest⟩ := List.cons.inj hchildren
              obtain ⟨hresult, hlive, hafter⟩ :=
                (h child List.mem_cons_self).turn child' w w' hchild hworld
              have hall : prunedAll ((turn delta child w).live :: rest)
                  = prunedAll ((turn delta child' w').live :: rest') := by
                rw [prunedAll, prunedAll, hlive, hrest]
              dsimp only
              rw [← hresult]
              cases (turn delta child w).result with
              | error fault =>
                  exact abort_alike self _ hstatus hguard hall hafter _
              | ok outcome =>
                  exact conclude_alike self _ hguard hall hafter _ _ _
  · exact work_leaf_alike self hleaf hstatus hguard hchildren hworld

/-- A guard is asked alike in both trees. -/
theorem ask_alike {guard guard' : Option (Live E A)}
    (h : ∀ g, guard = some g → Agrees delta g)
    (hguard : prunedGuard guard = prunedGuard guard') (hworld : w.Like w') :
    Alike prunedGuard (ask delta guard w) (ask delta guard' w') := by
  cases guard with
  | none =>
      cases guard' with
      | none =>
          rw [ask, ask]
          exact ⟨rfl, rfl, hworld⟩
      | some g' => cases hguard
  | some g =>
      cases guard' with
      | none => cases hguard
      | some g' => exact (h g rfl).ask g' w w' (Option.some.inj hguard) hworld

omit [Deed E A] in
/-- Tasks that know the same of their runs are both running or both not,
and differ in what is left over at most. -/
theorem atWork_eq {task task' : Stock E A} {status status' : Status}
    (h : atWork task status = atWork task' status') :
    (status = .running ↔ status' = .running) ∧ task.rewind = task'.rewind := by
  have hstatus : status = .running ↔ status' = .running := by
    rw [← atWork_status task, h, atWork_status]
  refine ⟨hstatus, ?_⟩
  by_cases hrunning : status = .running
  · rw [hrunning, hstatus.1 hrunning, atWork_of_running, atWork_of_running] at h
    rw [(Prod.mk.inj h).1]
  · rw [atWork_of_ne hrunning,
      atWork_of_ne fun h' => hrunning (hstatus.2 h')] at h
    exact (Prod.mk.inj h).1

/-- Trees that are the same when pruned go on alike. -/
theorem agrees (delta : Float32) (live : Live E A) : Agrees delta live := by
  induction live using Live.induction with
  | step id task status guard children hguard hchildren =>
      refine ⟨fun live' w w' hpruned hworld => ?_,
        fun live' w w' hpruned hworld => ?_⟩
      · obtain ⟨id', task', status', guard', children'⟩ := live'
        obtain ⟨rfl, htask, hbelow, hbeneath⟩ := pruned_node.1 hpruned
        rw [turn, turn]
        -- A task that runs knows the same in both trees, and any other one is
        -- entered, so that only what is left of it when rewound matters.
        obtain ⟨hstatus, hrewind⟩ := atWork_eq htask
        by_cases hrunning : status = .running
        · have hrunning' := hstatus.1 hrunning
          rw [hrunning, hrunning', atWork_of_running,
            atWork_of_running] at htask
          obtain rfl := (Prod.mk.inj htask).1
          rw [if_pos hrunning, if_pos hrunning']
          exact work_alike hchildren id task hstatus hbelow hbeneath hworld
        · obtain ⟨hresult, hlive, hafter⟩ := ask_alike hguard hbelow hworld
          rw [if_neg hrunning, if_neg fun h => hrunning (hstatus.2 h)]
          dsimp only
          rw [← hresult]
          cases (ask delta guard w).result with
          | error fault =>
              exact ⟨rfl, pruned_node.2 ⟨rfl, htask, hlive, hbeneath⟩, hafter⟩
          | ok admitted =>
              cases admitted with
              | false =>
                  -- The task fails without being entered. What it was doing is
                  -- thrown away the next time, so it does not matter.
                  have hfailed : Status.failed ≠ .running := by decide
                  have hended : atWork task .failed = atWork task' .failed := by
                    rw [atWork_of_ne hfailed, atWork_of_ne hfailed, hrewind]
                  exact ⟨rfl, pruned_node.2 ⟨rfl, hended, hlive, hbeneath⟩,
                    hafter.board, hafter.draws⟩
              | true =>
                  obtain ⟨hentered, hworld'⟩ := enter_alike hafter hrewind
                  dsimp only
                  rw [hentered]
                  exact work_alike hchildren id _ hstatus hlive hbeneath hworld'
      · obtain ⟨id', task', status', guard', children'⟩ := live'
        obtain ⟨rfl, htask, hbelow, hbeneath⟩ := pruned_node.1 hpruned
        obtain ⟨hstatus, hrewind⟩ := atWork_eq htask
        -- The name shows in the fault of an unsettled guard; it is left by
        -- rewinding.
        have hname : task.name = task'.name := by
          rw [← Stock.kind_name task, ← rewind_kind task, hrewind, rewind_kind,
            Stock.kind_name]
        obtain ⟨hresult, hlive, hafter⟩ := ask_alike hguard hbelow hworld
        have hstill :
            prunedGuard
              (some (.node id task status (ask delta guard w).live children))
            = prunedGuard (some
              (.node id task' status' (ask delta guard' w').live children')) :=
          congrArg some (pruned_node.2 ⟨rfl, htask, hlive, hbeneath⟩)
        rw [ask, ask]
        dsimp only
        rw [← hresult]
        cases (ask delta guard w).result with
        | error fault => exact ⟨rfl, hstill, hafter⟩
        | ok admitted =>
            cases admitted with
            | false => exact ⟨rfl, hstill, hafter⟩
            | true =>
                -- a guard is entered even where a fault has left it running
                obtain ⟨hentered, hworld'⟩ := enter_alike hafter hrewind
                dsimp only
                rw [hentered]
                obtain ⟨hresult', hlive', hafter'⟩ :=
                  work_alike hchildren id
                    (enter (ask delta guard' w').world task').1 hstatus hlive
                    hbeneath hworld'
                refine ⟨?_, congrArg some hlive', hafter'⟩
                dsimp only
                rw [hresult', hname]

-- =============================================================== steps

/-- What the steps of a run give in the direct evaluation. -/
def outcomes :
    List Float32 → Live E A → World E → List (Except Fault Status × E)
  | [], _, _ => []
  | delta :: rest, live, w =>
    let ran := step delta live w
    (ran.result, ran.world.board) :: outcomes rest ran.live ran.world

/-- Trees that are the same when pruned go on alike for ever. -/
theorem outcomes_alike {live live' : Live E A} (h : pruned live = pruned live')
    (hworld : w.Like w') (deltas : List Float32) :
    outcomes deltas live w = outcomes deltas live' w' := by
  induction deltas generalizing live live' w w' with
  | nil => rfl
  | cons delta rest ih =>
      obtain ⟨hresult, hlive, hafter⟩ :=
        (agrees delta live).turn live' w w' h hworld
      rw [outcomes, outcomes]
      dsimp only [step]
      rw [hresult, hafter.board, ih hlive hafter]

/-- The steps of a run give in an arena what they give in the direct
evaluation of the tree that it bears. -/
theorem outcomes_bears {base : List (Listener × Notice)}
    {a : Arena E (Stock E A)} {live : Live E A} (h : Bears base a live w)
    (deltas : List Float32) :
    Settles (fun b => a.outcomes b deltas) (outcomes deltas live w) := by
  induction deltas generalizing a live w with
  | nil => exact Settles.const _
  | cons delta rest ih =>
      obtain ⟨a', hstep, hbears, -⟩ := step_bears h delta
      simp only [Arena.outcomes]
      refine hstep.bind ((ih hbears).bind ?_)
      rw [outcomes, ← hbears.shares.board]
      exact Settles.const _

end Direct

namespace Arena

open Direct Live

variable {E A : Type} [Deed E A] {a a' : Arena E (Stock E A)}

/-- A run that has come to its end leaves nothing behind. From then on all
steps give the same results and the same boards as after a reset, also
when some of them are aborted by a fault. -/
theorem step_finished (hhistory : History true a) {budget : Nat}
    {delta : Float32} {status : Status}
    (hstep : step budget delta a = some (.ok status, a'))
    (hfinished : status.isTerminal = true) (deltas : List Float32) :
    ∃ seen, Settles (fun b => a'.outcomes b deltas) seen
      ∧ Settles (fun b => a'.reset.outcomes b deltas) seen := by
  rcases hhistory.grows with hbare | ⟨live, hbears, hchained⟩
  · rw [step, hbare.root] at hstep
    cases hstep
  · obtain ⟨a₁, hsettles, hafter, -⟩ := step_bears hbears delta
    obtain ⟨hresult, rfl⟩ := Prod.mk.inj ((step_settles hstep).unique hsettles)
    -- The root is done, so nothing beneath it runs, and pruning the tree renews
    -- it.
    have hcalm : Calm (Direct.step delta live (worldOf a)).live := by
      rw [Direct.step] at hresult ⊢
      -- A step that gave a status is a turn without a fault.
      cases hturn : (turn delta live (worldOf a)).result with
      | error fault =>
          rw [hturn] at hresult
          cases hresult
      | ok outcome =>
          rw [hturn] at hresult
          cases hresult
          have hended :=
            (orderly delta live).turn _ outcome hturn (hchained rfl)
          refine hended.calm_of_status ?_
          rw [turn_status hturn]
          exact fun hrunning =>
            absurd hfinished
              (congrArg Status.isTerminal hrunning ▸ Bool.false_ne_true)
    refine ⟨_, outcomes_bears hafter deltas, ?_⟩
    -- Both trees are pruned to the renewed one.
    rw [outcomes_alike (pruned_of_calm _ hcalm |>.trans ?_) (.refl _)]
    · exact outcomes_bears (reset_bears hafter).1 deltas
    · rw [pruned_of_calm _ (calm_renewed _), renewed_renewed]

/-- Two laps of a child that has a place of its own. -/
def laps : Blueprint (Stock Nat Patience) :=
  .node (.repeating (.fixed 2) 0) none
    [.node (.sequence 0) none
      [.single (.action "wait" .patience), .single .success]]

/-- After the second lap all tasks still stand where they came to their end,
and the next steps do not show it. -/
theorem step_finished_laps :
    ∃ a a' :
    Arena Nat (Stock Nat Patience), History true a
      ∧ step 20 0 a = some (.ok .succeeded, a')
      ∧ a'.tasks.map a'.statusOf
        = [.succeeded, .succeeded, .succeeded, .succeeded]
      ∧ Status.succeeded.isTerminal = true
      ∧ ∀ deltas, ∃ seen, Settles (fun b => a'.outcomes b deltas) seen
        ∧ Settles (fun b => a'.reset.outcomes b deltas) seen := by
  -- The outcomes and the statuses can be evaluated; the arenas in between need
  -- not be.
  have hrun :
      ((step 20 0 (ofBlueprint laps 0 id)).bind fun r =>
        (step 20 0 r.2).map fun r' =>
          (r.1.toOption, r'.1.toOption, r'.2.tasks.map r'.2.statusOf))
        = some (some .running, some .succeeded,
          [.succeeded, .succeeded, .succeeded, .succeeded]) := by
    decide +kernel
  obtain ⟨⟨first, a⟩, hfirst, hrun⟩ := Option.bind_eq_some_iff.1 hrun
  obtain ⟨⟨second, a'⟩, hsecond, hshown⟩ := Option.map_eq_some_iff.1 hrun
  simp only [Prod.mk.injEq] at hshown
  obtain ⟨hrunning, hsucceeded, hstand⟩ := hshown
  cases first with
  | error fault => cases hrunning
  | ok status =>
      cases second with
      | error fault => cases hsucceeded
      | ok status' =>
          cases hsucceeded
          have hstart : History true (ofBlueprint laps 0 id) :=
            (History.empty 0 id).setRoot rfl
          have hhistory : History true a := hstart.step hfirst
          exact ⟨a, a', hhistory, hsecond, hstand, rfl,
            step_finished hhistory hsecond rfl⟩

end Arena

end TaskTree
