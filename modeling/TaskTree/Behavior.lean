/-
What a task is.

A task is a value of some type `T` with an instance of `Behavior E T`,
where `E` is the board that all tasks of one tree share. Its tree calls
three hooks: `start` when the task is entered, `update` on every step
while it is active, and `respond` when a child that it runs has reported.
A hook is a finite program over its surroundings, a `Hook`: it may look
around, write the board, draw a random number, run one of the task's
children, report, and in the end it leaves the task's new value. A task
never holds its children and never calls its parent; the arena that runs
the hook does both.

The contract of a task: between the moment it is driven and the end of
that update it reports exactly once, from whichever hook.
-/
import TaskTree.Status

namespace TaskTree

/-- The handle of a task in its arena. -/
structure TaskId where
  index : Nat
  deriving DecidableEq, Repr

/-- A handle in messages. -/
def TaskId.text (id : TaskId) : String := "#" ++ toString id.index

/-- How many children a task takes. -/
inductive Arity where
  | leaf
  | single
  | many
  deriving DecidableEq, Repr

namespace Arity

/-- The largest number of children, if there is one. -/
def most : Arity → Option Nat
  | .leaf => some 0
  | .single => some 1
  | .many => none

/-- The number of children without which the task cannot run. -/
def least : Arity → Nat
  | .single => 1
  | .leaf | .many => 0

/-- The limit that forbids one more child beside `present` ones. -/
def exceeded? (arity : Arity) (present : Nat) : Option Nat :=
  arity.most.filter (· ≤ present)

/-- One more child is not forbidden if there is room for it. -/
theorem exceeded?_eq_none_iff {arity : Arity} {present : Nat} :
    arity.exceeded? present = none
      ↔ ∀ limit, arity.most = some limit → present + 1 ≤ limit := by
  unfold exceeded?
  rw [Option.filter_eq_none_iff]
  constructor
  · intro h limit hlimit
    have hlt := h limit hlimit
    simp only [decide_eq_true_eq] at hlt
    omega
  · intro h limit hlimit
    have hle := h limit hlimit
    simp only [decide_eq_true_eq]
    omega

/-- The word for an arity. -/
def text : Arity → String
  | .leaf => "leaf"
  | .single => "single"
  | .many => "many"

/-- The word for an arity in descriptions of a structure. -/
def label : Arity → String
  | .leaf => "Leaf"
  | .single => "Single"
  | .many => "Many"

end Arity

/-- What a hook can see of its surroundings. -/
structure View (E : Type) where
  /-- The task's own handle. -/
  id : TaskId
  /-- Seconds since the step before. -/
  delta : Float32
  /-- The board shared by all tasks of the tree. -/
  board : E
  /-- Where the task stands. -/
  status : Status
  /-- Where its children stand, in order. -/
  children : List Status

/-- One hook of a task: a finite program over the task's surroundings that
leaves the new value of the task. -/
inductive Hook (E T : Type) where
  /-- The end of the hook, with the task's new value. -/
  | done (task : T)
  /-- Reports the task's own outcome. -/
  | report (outcome : Outcome) (next : Hook E T)
  /-- Runs the child at an index. -/
  | runChild (index : Nat) (next : Hook E T)
  /-- Looks around. -/
  | look (next : View E → Hook E T)
  /-- Replaces the board. -/
  | write (board : E) (next : Hook E T)
  /-- Draws a random natural number. -/
  | draw (next : Nat → Hook E T)

namespace Hook

variable {E T U : Type}

/-- Applies a function to the value that a hook leaves. -/
def map (f : T → U) : Hook E T → Hook E U
  | .done task => .done (f task)
  | .report outcome next => .report outcome (next.map f)
  | .runChild index next => .runChild index (next.map f)
  | .look next => .look fun view => (next view).map f
  | .write board next => .write board (next.map f)
  | .draw next => .draw fun roll => (next roll).map f

/-- Goes on with another hook where this one ends. -/
def andThen : Hook E T → (T → Hook E U) → Hook E U
  | .done task, k => k task
  | .report outcome next, k => .report outcome (next.andThen k)
  | .runChild index next, k => .runChild index (next.andThen k)
  | .look next, k => .look fun view => (next view).andThen k
  | .write board next, k => .write board (next.andThen k)
  | .draw next, k => .draw fun roll => (next roll).andThen k

end Hook

/-- A call of a tree to one of its tasks, which runs one of the task's
hooks. -/
inductive Call where
  | start
  | update
  /-- The child at an index has reported. -/
  | respond (outcome : Outcome) (child : Nat)
  deriving DecidableEq, Repr

/-- Values of `T` are tasks on a board of type `E`. -/
class Behavior (E : outParam Type) (T : Type) where
  /-- The task's name in messages. -/
  name : T → String
  /-- How many children the task takes. -/
  arity : T → Arity
  /-- Runs when the task is entered. -/
  start : T → Hook E T
  /-- Advances the task by one step. -/
  update : T → Hook E T
  /-- Answers the report of the child at an index. -/
  respond : Outcome → Nat → T → Hook E T
  /-- Clears what the task remembers of a run; its parameters stay. -/
  rewind : T → T

/-- The hook that a call runs. -/
def Call.hook {E T : Type} [Behavior E T] : Call → T → Hook E T
  | .start, task => Behavior.start task
  | .update, task => Behavior.update task
  | .respond outcome child, task => Behavior.respond outcome child task

end TaskTree
