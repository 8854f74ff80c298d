/-
The tree that a document declares, without a stack.

A guard goes to the next statement, so what is left of a document are its
tasks in their order. The parent of a task that is not the first of its
line is the task before it; the parent of the first task of a line is the
last one that is indented less. A task's children are those that name it
as their parent, in their order, after the ones that it was built with.

Tasks are known by their number. What goes before a task is a list with
the nearest one first, so that the number of a task is the length of what
went before it.
-/
import Mathlib.Data.List.Chain
import Mathlib.Data.List.TakeWhile
import TaskTree.Outline.Dialect
import TaskTree.Outline.Lines

namespace TaskTree

variable {E T : Type}

namespace Blueprint

/-- A blueprint with the guard that waited for it, if one did. -/
def guardedBy (b : Blueprint T) : Option (Blueprint T) → Blueprint T
  | none => b
  | some guard => .node b.task (some guard) b.children

/-- A blueprint with more children. -/
def withMore (b : Blueprint T) (more : List (Blueprint T)) : Blueprint T :=
  .node b.task b.guard (b.children ++ more)

@[simp] theorem guardedBy_task (b : Blueprint T)
    (waiting : Option (Blueprint T)) :
    (b.guardedBy waiting).task = b.task := by
  cases waiting <;> rfl

@[simp] theorem guardedBy_children (b : Blueprint T)
    (waiting : Option (Blueprint T)) :
    (b.guardedBy waiting).children = b.children := by
  cases waiting <;> rfl

theorem withMore_withMore (b : Blueprint T)
    (more further : List (Blueprint T)) :
    (b.withMore more).withMore further = b.withMore (more ++ further) :=
  congrArg (Blueprint.node b.task b.guard) (List.append_assoc ..)

theorem withMore_nil (b : Blueprint T) : b.withMore [] = b := by
  cases b
  exact congrArg (Blueprint.node _ _) (List.append_nil _)

/-- With so many more children a task has those that it needs, and none of
them is one too many. The children that come with a blueprint are not counted
again: they are too many for it only if there are more. -/
structure Takes [Behavior E T] (b : Blueprint T) (more : Nat) : Prop where
  least : b.arity.least ≤ b.children.length + more
  most : ∀ limit, b.arity.most = some limit → 0 < more →
    b.children.length + more ≤ limit

end Blueprint

namespace Outline

-- =========================================================== statements

/-- A statement in its place. -/
structure Placed where
  /-- The number of its line, among the lines with statements. -/
  line : Nat
  /-- The indentation of its line. -/
  indent : Nat
  statement : Statement

/-- The statements of a line. -/
def Line.spread (number : Nat) (line : Line) : List Placed :=
  line.statements.map fun statement =>
    { line := number, indent := line.indent, statement }

/-- The statements of lines, the first of which has the given number. -/
def spread (number : Nat) : List Line → List Placed
  | [] => []
  | line :: lines => line.spread number ++ spread (number + 1) lines

/-- What a statement builds, in its place. -/
structure Sited (T : Type) where
  line : Nat
  indent : Nat
  isGuard : Bool
  node : Blueprint T

/-- A node in the place of a statement. -/
def Placed.sited (x : Placed) (node : Blueprint T) : Sited T :=
  { line := x.line, indent := x.indent, isGuard := x.statement.isGuard, node }

/-- Builds a statement in its place. -/
def Dialect.site [Behavior E T] (dialect : Dialect T) (x : Placed) :
    Except BuildFault (Sited T) :=
  (dialect.build x.statement).map x.sited

/-- The statements of a document with their guards, where `waiting` is the
guard that waits for the first one. -/
def guarded (waiting : Option (Blueprint T)) : List (Sited T) → List (Sited T)
  | [] => []
  | x :: rest =>
    { x with node := x.node.guardedBy waiting }
      :: guarded (if x.isGuard then some (x.node.guardedBy waiting) else none)
        rest

/-- The tasks among statements, which are no guards themselves. -/
def tasks (waiting : Option (Blueprint T)) (doc : List (Sited T)) :
    List (Sited T) :=
  (guarded waiting doc).filter fun x => !x.isGuard

theorem tasks_cons_of_guard {x : Sited T} (h : x.isGuard = true)
    (waiting : Option (Blueprint T)) (doc : List (Sited T)) :
    tasks waiting (x :: doc) = tasks (some (x.node.guardedBy waiting)) doc := by
  unfold tasks
  rw [guarded, List.filter_cons_of_neg (by simp [h]), if_pos h]

theorem tasks_cons_of_task {x : Sited T} (h : x.isGuard = false)
    (waiting : Option (Blueprint T)) (doc : List (Sited T)) :
    tasks waiting (x :: doc)
      = { x with node := x.node.guardedBy waiting } :: tasks none doc := by
  unfold tasks
  rw [guarded, List.filter_cons_of_pos (by simp [h]), h,
    if_neg Bool.false_ne_true]

-- ============================================================== parents

/-- The number of the last task that is indented less than `indent`. All
tasks of a line are indented as the line is, so it is the last task of the
nearest such line. -/
def lessIndented (indent : Nat) : List (Sited T) → Option Nat
  | [] => none
  | last :: before =>
    if last.indent < indent then some before.length
    else lessIndented indent before

/-- Whether a line has a task already. -/
def hasTask (line : Nat) (before : List (Sited T)) : Prop :=
  before.head?.map (·.line) = some line

instance (line : Nat) (before : List (Sited T)) :
    Decidable (hasTask line before) :=
  inferInstanceAs (Decidable (_ = _))

/-- The number of the parent of a task. -/
def parent? (before : List (Sited T)) (task : Sited T) : Option Nat :=
  if hasTask task.line before then some (before.length - 1)
  else lessIndented task.indent before

/-- A task with its number and that of its parent. -/
structure Entry (T : Type) where
  number : Nat
  parent : Option Nat
  node : Blueprint T

/-- The entries of the tasks that come after others. -/
def entries (before : List (Sited T)) : List (Sited T) → List (Entry T)
  | [] => []
  | task :: rest =>
    { number := before.length, parent := parent? before task,
      node := task.node }
      :: entries (task :: before) rest

/-- The trees of the entries that name a task as their parent. -/
def below (number : Nat) : List (Entry T) → List (Blueprint T)
  | [] => []
  | e :: rest =>
    if e.parent = some number then
      e.node.withMore (below e.number rest) :: below number rest
    else below number rest

/-- The tree of a task and of the tasks after it. -/
def declared : List (Entry T) → Option (Blueprint T)
  | [] => none
  | first :: rest => some (first.node.withMore (below first.number rest))

-- ============================================================= validity

/-- What makes a document valid, once all its statements are built. -/
structure Valid [Behavior E T] (doc : List (Sited T)) : Prop where
  /-- The last statement is no guard. -/
  closed : ∀ x, doc.getLast? = some x → x.isGuard = false
  /-- What comes right after a guard has no guard of its own. -/
  free : doc.IsChain fun x y => x.isGuard = true → y.node.guard = none
  /-- A guard has the children that it needs. -/
  ready : ∀ x ∈ doc, x.isGuard = true →
    x.node.arity.least ≤ x.node.children.length
  /-- There is a task, and the first one is the only one without a parent. -/
  rooted : ∃ first rest, entries [] (tasks none doc) = first :: rest
    ∧ first.parent = none ∧ ∀ e ∈ rest, e.parent ≠ none
  /-- Every task takes the children that name it as their parent. -/
  takes : ∀ e ∈ entries [] (tasks none doc),
    e.node.Takes ((entries [] (tasks none doc)).countP fun child =>
      child.parent = some e.number)

end Outline

end TaskTree
