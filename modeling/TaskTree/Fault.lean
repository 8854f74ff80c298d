/-
What can go wrong with a tree.

The first six faults refuse a call and leave the tree as it was. The
others are breaches of a task's contract: they abort the step in which
they are found.
-/
import TaskTree.Behavior

namespace TaskTree

/-- A fault of a tree. -/
inductive Fault where
  /-- The tree has its root already. -/
  | secondRoot
  /-- There is no root to step. -/
  | noRoot
  /-- The handle names no task of the tree. -/
  | stranger (task : TaskId)
  /-- The task's arity allows no further child. -/
  | childLimit (name : String) (limit : Nat)
  /-- The task has its guard already. -/
  | secondGuard (name : String)
  /-- The task ran a child that it does not have. -/
  | missingChild (task : TaskId) (name : String) (index : Nat)
  /-- The task's update ended without a report. -/
  | silentUpdate (task : TaskId) (name : String)
  /-- The task reported twice in one update. -/
  | secondReport (task : TaskId) (name : String)
  /-- The guard was neither succeeded nor failed when its turn was over. -/
  | unsettledGuard (task : TaskId) (name : String) (status : Status)
  /-- The task was called while one of its hooks was running. -/
  | reentry (task : TaskId) (name : String)
  deriving DecidableEq, Repr

namespace Fault

/-- The wording of a fault. -/
def message : Fault → String
  | .secondRoot => "a behavior tree cannot have more than one root task"
  | .noRoot => "behavior tree has no root task"
  | .stranger task => "task " ++ task.text ++ " does not belong to this tree"
  | .childLimit name limit =>
    "task '" ++ name ++ "' accepts at most " ++ toString limit
      ++ " child task(s)"
  | .secondGuard name => "task '" ++ name ++ "' already has a guard"
  | .missingChild task name index =>
    "task '" ++ name ++ "' (" ++ task.text ++ ") has no child at index "
      ++ toString index
  | .silentUpdate task name =>
    "task '" ++ name ++ "' (" ++ task.text
      ++ ") finished its update without reporting a status"
  | .secondReport task name =>
    "task '" ++ name ++ "' (" ++ task.text
      ++ ") reported more than one status in a single update"
  | .unsettledGuard task name status =>
    "guard '" ++ name ++ "' (" ++ task.text
      ++ ") did not complete during evaluation (status: " ++ status.text ++ ")"
  | .reentry task name =>
    "task '" ++ name ++ "' (" ++ task.text
      ++ ") was re-entered while already executing"

/-- The stable code of a fault. -/
def code : Fault → String
  | .secondRoot => "TREE_ROOT_ALREADY_SET"
  | .noRoot => "TREE_NO_ROOT"
  | .stranger _ => "TREE_UNKNOWN_TASK"
  | .childLimit _ _ => "TREE_CHILD_LIMIT_EXCEEDED"
  | .secondGuard _ => "TREE_GUARD_ALREADY_SET"
  | .missingChild _ _ _ => "TASK_CHILD_OUT_OF_RANGE"
  | .silentUpdate _ _ => "TASK_NO_TRANSITION"
  | .secondReport _ _ => "TASK_MULTIPLE_TRANSITIONS"
  | .unsettledGuard _ _ _ => "GUARD_NOT_TERMINAL"
  | .reentry _ _ => "TASK_REENTERED"

/-- Whether a task broke its contract, rather than a caller the rules of
construction. -/
def isBreach : Fault → Bool
  | .missingChild _ _ _ | .silentUpdate _ _ | .secondReport _ _
  | .unsettledGuard _ _ _
  | .reentry _ _ => true
  | .secondRoot | .noRoot | .stranger _ | .childLimit _ _
  | .secondGuard _ => false

end Fault

end TaskTree
