/-
Running a tree of stock tasks by direct recursion.

This is what a tree means when nothing stands between a parent and its
child: a parent calls its child, has the child's outcome as the value of
that call, and reacts to it at once. There is no arena, no inbox and no
report that waits for its receiver. The tasks are nested in each other as
they are in the tree, each with its handle, its status, its guard and its
children; what they share is the `World`.

A fault ends the evaluation where it arises. Everything above it returns
without doing anything further, so that the tree shows what had happened
until then.

# Main definitions

- `Live`: a tree of stock tasks at one moment of its run.
- `turn`, `ask`, `work`, `row`: the evaluation of a task, of a guard, of
  the update of a task, and of a row of children.
- `step`: a turn of the root, as a step of the tree.
- `Live.number`: a blueprint as a tree that was never entered, its tasks
  numbered in preorder.
-/
import TaskTree.Blueprint
import TaskTree.Journal
import TaskTree.Stock.Basic

namespace TaskTree.Direct

variable {E A : Type}

-- ============================================================ the trees

/-- A tree of stock tasks at one moment of its run. -/
inductive Live (E A : Type) where
  | node (id : TaskId) (task : Stock E A) (status : Status)
      (guard : Option (Live E A)) (children : List (Live E A))

namespace Live

/-- The handle of the task at the top. -/
def id : Live E A → TaskId
  | .node id _ _ _ _ => id

/-- Where the task at the top stands. -/
def status : Live E A → Status
  | .node _ _ status _ _ => status

mutual

/-- All tasks with their statuses, in preorder: a task, its guard, its
children. -/
def statuses : Live E A → List (TaskId × Status)
  | .node id _ status guard children =>
    (id, status) :: (guardStatuses guard ++ allStatuses children)

/-- The statuses of a guard and below it. -/
def guardStatuses : Option (Live E A) → List (TaskId × Status)
  | none => []
  | some guard => guard.statuses

/-- The statuses of a row of trees. -/
def allStatuses : List (Live E A) → List (TaskId × Status)
  | [] => []
  | child :: rest => child.statuses ++ allStatuses rest

end

mutual

/-- A blueprint as a tree that was never entered. Its tasks are numbered in
preorder, from `next` on. -/
def number (next : Nat) : Blueprint (Stock E A) → Live E A
  | .node task guard children =>
    .node ⟨next⟩ task .fresh (numberGuard (next + 1) guard)
      (numberAll (next + 1 + Blueprint.countGuard guard) children)

/-- A guard, numbered. -/
def numberGuard (next : Nat) :
    Option (Blueprint (Stock E A)) → Option (Live E A)
  | none => none
  | some guard => some (number next guard)

/-- A row of blueprints, numbered one after another. -/
def numberAll (next : Nat) : List (Blueprint (Stock E A)) → List (Live E A)
  | [] => []
  | child :: rest => number next child :: numberAll (next + child.count) rest

end

end Live

-- ============================================================ the world

/-- What the tasks of a tree share: the board, the random numbers and how
many of them are used up, and the notices of status changes, oldest
first. -/
structure World (E : Type) where
  board : E
  dice : Nat → Nat
  rolled : Nat
  notices : List Notice

/-- Adds a notice. -/
def World.tell (w : World E) (notice : Notice) : World E :=
  { w with notices := w.notices ++ [notice] }

/-- What comes of an evaluation: a value or the fault that ended it, what
became of the tasks, and the world. -/
structure Ran (E L α : Type) where
  result : Except Fault α
  live : L
  world : World E

-- ====================================================== single tasks

/-- Entering a task: composites go to their first child, `repeating` draws
its count and `wait` starts its clock. -/
def enter (w : World E) : Stock E A → Stock E A × World E
  | .sequence _ => (.sequence 0, w)
  | .selector _ => (.selector 0, w)
  | .repeating count _ =>
    if count.isRandom then
      (.repeating count (count.draw (w.dice w.rolled)),
        { w with rolled := w.rolled + 1 })
    else (.repeating count (count.draw 0), w)
  | .wait seconds _ => (.wait seconds 0, w)
  | task => (task, w)

/-- Whether a task with one child has nothing left to run it for. -/
def isSpent : Stock E A → Bool
  | .repeating _ remaining => remaining = 0
  | _ => false

/-- What a task with one child reports when that child has reported, and
what becomes of the task. -/
def passOn : Outcome → Stock E A → Outcome × Stock E A
  | .running, task => (.running, task)
  | .succeeded, .invert => (.failed, .invert)
  | .failed, .invert => (.succeeded, .invert)
  | _, .alwaysSucceed => (.succeeded, .alwaysSucceed)
  | _, .alwaysFail => (.failed, .alwaysFail)
  | .succeeded, .untilSuccess => (.succeeded, .untilSuccess)
  | .failed, .untilSuccess => (.running, .untilSuccess)
  | .succeeded, .untilFail => (.running, .untilFail)
  | .failed, .untilFail => (.succeeded, .untilFail)
  | _, .repeating count remaining =>
    let left := if 0 < remaining then remaining - 1 else remaining
    (if left = 0 then .succeeded else .running, .repeating count left)
  | outcome, task => (outcome, task)

/-- What the outcome of a guard means for the task behind it. A guard that
is still running is at fault. -/
def admission (id : TaskId) (name : String) :
    Except Fault Outcome → Except Fault Bool
  | .error fault => .error fault
  | .ok .succeeded => .ok true
  | .ok .failed => .ok false
  | .ok .running => .error (.unsettledGuard id name .running)

/-- A task reports: its status is set and the listeners are told. -/
def conclude (id : TaskId) (task : Stock E A) (status : Status)
    (guard : Option (Live E A)) (children : List (Live E A)) (outcome : Outcome)
    (w : World E) : Ran E (Live E A) Outcome where
  result := .ok outcome
  live := .node id task outcome.status guard children
  world := w.tell (.status id task.name status outcome.status)

/-- A fault leaves a task where it stands. -/
def abort {α : Type} (id : TaskId) (task : Stock E A) (status : Status)
    (guard : Option (Live E A)) (children : List (Live E A)) (fault : Fault)
    (w : World E) :
    Ran E (Live E A) α where
  result := .error fault
  live := .node id task status guard children
  world := w

/-- The end of an update, with a report or with a fault. -/
def finish (id : TaskId) (task : Stock E A) (status : Status)
    (guard : Option (Live E A)) (children : List (Live E A))
    (result : Except Fault Outcome) (w : World E) :
    Ran E (Live E A) Outcome :=
  match result with
  | .ok outcome => conclude id task status guard children outcome w
  | .error fault => abort id task status guard children fault w

-- ======================================================== evaluation

private theorem sizeOf_drop_le {α : Type} [SizeOf α] (n : Nat) (xs : List α) :
    sizeOf (xs.drop n) ≤ sizeOf xs := by
  induction xs generalizing n with
  | nil => simp
  | cons x rest ih =>
      cases n with
      | zero => simp
      | succ n =>
          have := ih n
          simp only [List.drop_succ_cons, List.cons.sizeOf_spec]
          omega

variable [Deed E A]

mutual

/-- Gives a task its turn. A running task goes on. Any other is entered if
its guard lets it, and fails if the guard does not. -/
def turn (delta : Float32) : Live E A → World E → Ran E (Live E A) Outcome
  | .node id task status guard children, w =>
    if status = .running then work delta id task status guard children w
    else
      let asked := ask delta guard w
      match asked.result with
      | .error fault =>
        abort id task status asked.live children fault asked.world
      | .ok false =>
        conclude id task status asked.live children .failed asked.world
      | .ok true =>
        let entered := enter asked.world task
        work delta id entered.1 status asked.live children entered.2
termination_by live _ => (sizeOf live, 0)

/-- Asks a guard, if there is one, whether the task behind it may run. The
guard's own guard is asked first. A guard is entered each time it is
asked, and has to come to an end at once. -/
def ask (delta : Float32) :
    Option (Live E A) → World E → Ran E (Option (Live E A)) Bool
  | none, w => { result := .ok true, live := none, world := w }
  | some (.node id task status guard children), w =>
    let asked := ask delta guard w
    let still := some (.node id task status asked.live children)
    match asked.result with
    | .error fault =>
      { result := .error fault, live := still, world := asked.world }
    | .ok false => { result := .ok false, live := still, world := asked.world }
    | .ok true =>
      let entered := enter asked.world task
      let ran := work delta id entered.1 status asked.live children entered.2
      { result := admission id task.name ran.result, live := some ran.live,
        world := ran.world }
termination_by guard _ => (sizeOf guard, 0)

/-- Updates a task. A composite runs its children from its current place
on; a decorator runs its child and passes the outcome on; any other task
reports by itself. -/
def work (delta : Float32) (id : TaskId) (task : Stock E A) (status : Status)
    (guard : Option (Live E A)) (children : List (Live E A)) (w : World E) :
    Ran E (Live E A) Outcome :=
  match task with
  | .sequence current =>
    let ran := row delta .succeeded (children.drop current) w
    finish id (.sequence (current + ran.live.1)) status guard
      (children.take current ++ ran.live.2) ran.result ran.world
  | .selector current =>
    let ran := row delta .failed (children.drop current) w
    finish id (.selector (current + ran.live.1)) status guard
      (children.take current ++ ran.live.2) ran.result ran.world
  | .success => conclude id task status guard children .succeeded w
  | .failure => conclude id task status guard children .failed w
  | .wait seconds elapsed =>
    let elapsed := if status = .running then elapsed + delta else elapsed
    let outcome := if seconds ≤ elapsed then .succeeded else .running
    conclude id (.wait seconds elapsed) status guard children outcome w
  | .condition name holds =>
    conclude id (.condition name holds) status guard children
      (if holds w.board then .succeeded else .failed) w
  | .action name deed =>
    let done := Deed.act deed w.board delta
    let task := .action name done.2.2
    let w := { w with board := done.2.1 }
    match done.1 with
    | .fresh => abort id task status guard children (.silentUpdate id name) w
    | .running => conclude id task status guard children .running w
    | .succeeded => conclude id task status guard children .succeeded w
    | .failed => conclude id task status guard children .failed w
  | task =>
    if isSpent task then conclude id task status guard children .succeeded w
    else
      match children with
      | [] => abort id task status guard [] (.missingChild id task.name 0) w
      | child :: rest =>
        let ran := turn delta child w
        match ran.result with
        | .error fault =>
          abort id task status guard (ran.live :: rest) fault ran.world
        | .ok outcome =>
          let (outcome, task) := passOn outcome task
          conclude id task status guard (ran.live :: rest) outcome ran.world
termination_by (sizeOf children, 1)
decreasing_by
  · have := sizeOf_drop_le current children
    simp only [Prod.lex_def]
    omega
  · have := sizeOf_drop_le current children
    simp only [Prod.lex_def]
    omega
  · simp only [Prod.lex_def, List.cons.sizeOf_spec]
    omega

/-- Runs children one after another while their outcome is `goOn`. Gives
how many of them came through, and their outcome: `goOn` if all of them
did, and otherwise the outcome of the child that did not. -/
def row (delta : Float32) (goOn : Outcome) :
    List (Live E A) → World E → Ran E (Nat × List (Live E A)) Outcome
  | [], w => { result := .ok goOn, live := (0, []), world := w }
  | child :: rest, w =>
    let ran := turn delta child w
    match ran.result with
    | .error fault =>
      { result := .error fault, live := (0, ran.live :: rest),
        world := ran.world }
    | .ok outcome =>
      if outcome = goOn then
        let after := row delta goOn rest ran.world
        { after with live := (after.live.1 + 1, ran.live :: after.live.2) }
      else { result := .ok outcome, live := (0, ran.live :: rest),
             world := ran.world }
termination_by children _ => (sizeOf children, 0)

end

/-- A step of a tree is a turn of its root. -/
def step (delta : Float32) (live : Live E A) (w : World E) :
    Ran E (Live E A) Status :=
  let ran := turn delta live w
  { ran with result := ran.result.map Outcome.status }

end TaskTree.Direct
