/-
Trees of tasks that belong to no arena yet.

A blueprint is a task with its guard, itself a blueprint, and its
children. Blueprints are built up child by child under the arity of each
task, shown one task a line, and copied with `renewed`, which keeps every
parameter and forgets every run.
-/
import TaskTree.Fault
import TaskTree.Text.Escape

namespace TaskTree

/-- A task with its guard and its children. -/
inductive Blueprint (T : Type) where
  | node (task : T) (guard : Option (Blueprint T))
      (children : List (Blueprint T))

namespace Blueprint

variable {E T : Type}

/-- The task at the top. -/
def task : Blueprint T → T
  | .node task _ _ => task

/-- The guard of the task at the top. -/
def guard : Blueprint T → Option (Blueprint T)
  | .node _ guard _ => guard

/-- The children of the task at the top. -/
def children : Blueprint T → List (Blueprint T)
  | .node _ _ children => children

/-- A task alone. -/
def single (task : T) : Blueprint T := .node task none []

-- ================================================================= size

mutual

/-- The number of tasks, guards included. -/
def count : Blueprint T → Nat
  | .node _ guard children => 1 + countGuard guard + countAll children

/-- The number of tasks of a guard. -/
def countGuard : Option (Blueprint T) → Nat
  | none => 0
  | some guard => guard.count

/-- The number of tasks of a row of blueprints. -/
def countAll : List (Blueprint T) → Nat
  | [] => 0
  | child :: rest => child.count + countAll rest

end

-- ============================================================== renewal

variable [Behavior E T]

mutual

/-- A copy without anything left of a run. -/
def renewed : Blueprint T → Blueprint T
  | .node task guard children =>
    .node (Behavior.rewind task) (renewedGuard guard) (renewedAll children)

/-- A guard copied. -/
def renewedGuard : Option (Blueprint T) → Option (Blueprint T)
  | none => none
  | some guard => some guard.renewed

/-- A row of blueprints copied. -/
def renewedAll : List (Blueprint T) → List (Blueprint T)
  | [] => []
  | child :: rest => child.renewed :: renewedAll rest

end

-- ============================================================== assembly

/-- The name of the task at the top. -/
def name (b : Blueprint T) : String := Behavior.name b.task

/-- The arity of the task at the top. -/
def arity (b : Blueprint T) : Arity := Behavior.arity b.task

/-- Appends a child, if the task's arity allows it. -/
def addChild (b child : Blueprint T) : Except Fault (Blueprint T) :=
  match b.arity.exceeded? b.children.length with
  | some limit => .error (.childLimit b.name limit)
  | none => .ok (.node b.task b.guard (b.children ++ [child]))

/-- Guards the task at the top, if it has no guard. -/
def setGuard (b guard : Blueprint T) : Except Fault (Blueprint T) :=
  match b.guard with
  | some _ => .error (.secondGuard b.name)
  | none => .ok (.node b.task (some guard) b.children)

-- ================================================================ texts

/-- What stands before a guarded task on its line. -/
def guardMark : Option (Blueprint T) → String
  | none => ""
  | some guard => "?" ++ guard.name ++ " "

mutual

/-- One task a line, two spaces of indentation a level; a guard stands
before its task, as `?` and the guard's name. -/
def lines (depth : Nat) : Blueprint T → List String
  | .node task guard children =>
    (String.ofList (List.replicate (2 * depth) ' ') ++ guardMark guard
        ++ Behavior.name task)
      :: linesAll (depth + 1) children

/-- The lines of a row of blueprints. -/
def linesAll (depth : Nat) : List (Blueprint T) → List String
  | [] => []
  | child :: rest => child.lines depth ++ linesAll depth rest

end

/-- The blueprint as text, every line ended. -/
def text (b : Blueprint T) : String :=
  String.join ((b.lines 0).map (· ++ "\n"))

mutual

/-- The structure in full, on one line. -/
def description : Blueprint T → String
  | .node task guard children =>
    "TaskNode \x7b name: " ++ Text.quotedName (Behavior.name task)
      ++ ", guard: " ++ guardDescription guard
      ++ ", children: [" ++ ", ".intercalate (descriptions children) ++ "] \x7d"

/-- A guard in full. -/
def guardDescription : Option (Blueprint T) → String
  | none => "None"
  | some guard => "Some(" ++ guard.description ++ ")"

/-- A row of blueprints in full. -/
def descriptions : List (Blueprint T) → List String
  | [] => []
  | child :: rest => child.description :: descriptions rest

end

end Blueprint

end TaskTree
