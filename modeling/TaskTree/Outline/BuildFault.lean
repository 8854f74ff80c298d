/-
Statements that are well formed and still describe no tree.
-/
import TaskTree.Fault

namespace TaskTree.Outline

/-- Why statements make no tree. -/
inductive BuildFault where
  /-- No task of that name is known. -/
  | unknownTask (name : String)
  /-- No subtree of that name is known. -/
  | unknownSubtree (name : String)
  | unknownAttribute (task key : String)
  | missingAttribute (task key : String)
  | repeatedAttribute (task key : String)
  /-- The attribute has a value of another type. -/
  | wrongType (key expected found : String)
  /-- A reference to a subtree was given attributes. -/
  | referenceAttributes (name : String)
  /-- The task needs a child and was closed without one. -/
  | childless (name : String)
  | secondRoot
  /-- The document ended with a guard that guards nothing. -/
  | danglingGuard (name : String)
  /-- The document has no task. -/
  | noTasks
  /-- Tasks cannot be put together like this. -/
  | tree (fault : Fault)
  deriving DecidableEq, Repr

namespace BuildFault

/-- The wording of a fault. -/
def message : BuildFault → String
  | .unknownTask name => "unknown task type '" ++ name ++ "'"
  | .unknownSubtree name => "unknown subtree '" ++ name ++ "'"
  | .unknownAttribute task key =>
    "task '" ++ task ++ "' has no attribute '" ++ key ++ "'"
  | .missingAttribute task key =>
    "task '" ++ task ++ "' requires attribute '" ++ key ++ "'"
  | .repeatedAttribute task key =>
    "attribute '" ++ key ++ "' of task '" ++ task ++ "' is given more than once"
  | .wrongType key expected found =>
    "attribute '" ++ key ++ "' expects a value of type " ++ expected
      ++ ", found " ++ found
  | .referenceAttributes name =>
    "subtree reference '" ++ name ++ "' cannot take attributes"
  | .childless name => "task '" ++ name ++ "' requires a child task"
  | .secondRoot => "a behavior tree definition can only have one root task"
  | .danglingGuard name =>
    "guard '" ++ name ++ "' is not followed by a task to guard"
  | .noTasks => "behavior tree definition contains no tasks"
  | .tree fault => fault.message

/-- The stable code of a fault. -/
def code : BuildFault → String
  | .unknownTask _ => "BUILD_UNKNOWN_TASK"
  | .unknownSubtree _ => "BUILD_UNKNOWN_SUBTREE"
  | .unknownAttribute _ _ => "BUILD_UNKNOWN_ATTRIBUTE"
  | .missingAttribute _ _ => "BUILD_MISSING_ATTRIBUTE"
  | .repeatedAttribute _ _ => "BUILD_DUPLICATE_ATTRIBUTE"
  | .wrongType _ _ _ => "BUILD_INVALID_ATTRIBUTE"
  | .referenceAttributes _ => "BUILD_SUBTREE_ATTRIBUTES"
  | .childless _ => "BUILD_MISSING_CHILD"
  | .secondRoot => "BUILD_MULTIPLE_ROOTS"
  | .danglingGuard _ => "BUILD_DANGLING_GUARD"
  | .noTasks => "BUILD_EMPTY_DOCUMENT"
  | .tree fault => fault.code

end BuildFault

end TaskTree.Outline
