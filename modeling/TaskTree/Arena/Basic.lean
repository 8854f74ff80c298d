/-
The arena: all tasks of one tree, in slots, with the wiring between them.

A slot holds a task, its status and its links. Slot zero is taken by the
guard evaluator, to which guards report; it is never linked to and never
shown. A task is out of its slot exactly while one of its hooks runs.

Reports travel by mail. A task that reports while its controller is still
in the hook that ran it must not call the controller back, so the report
goes to the controller's inbox, and the controller answers it when that
hook is over.

Every access is total: the handles that an arena holds are always valid
ones, and a handle from elsewhere reads as an absent task.
-/
import TaskTree.Blueprint
import TaskTree.Journal

namespace TaskTree

/-- Who receives the reports of a task. -/
inductive Control where
  /-- The tree itself, for the root. -/
  | tree
  /-- Another task, or the guard evaluator. -/
  | task (id : TaskId)
  deriving DecidableEq, Repr

/-- A report in an inbox: which child, and its outcome. -/
structure Report where
  child : Nat
  outcome : Outcome
  deriving DecidableEq, Repr

/-- What stands in a slot: the guard evaluator, or a task. -/
inductive Occupant (T : Type) where
  | evaluator
  | task (task : T)

/-- The evaluator takes no children and lets every report pass. -/
instance {E T : Type} [Behavior E T] : Behavior E (Occupant T) where
  name
    | .evaluator => "guard-evaluator"
    | .task t => Behavior.name t
  arity
    | .evaluator => .leaf
    | .task t => Behavior.arity t
  start
    | .evaluator => .done .evaluator
    | .task t => (Behavior.start t).map .task
  update
    | .evaluator => .done .evaluator
    | .task t => (Behavior.update t).map .task
  respond outcome child
    | .evaluator => .done .evaluator
    | .task t => (Behavior.respond outcome child t).map .task
  rewind
    | .evaluator => .evaluator
    | .task t => .task (Behavior.rewind t)

/-- A task in its arena. -/
structure Slot (T : Type) where
  /-- Absent exactly while a hook of the task runs. -/
  occupant : Option (Occupant T)
  name : String
  arity : Arity
  status : Status
  /-- The task whose child this one is. Roots and guards have none. -/
  parent : Option TaskId
  /-- Who receives the reports. -/
  control : Option Control
  guard : Option TaskId
  children : List TaskId
  /-- Reports of children that the task has not answered yet. -/
  inbox : List Report
  /-- How often the task reported since it was last driven. -/
  reports : Nat

/-- A slot for a task that was never entered. -/
def Slot.of {E T : Type} [Behavior E T] (occupant : Occupant T)
    (parent : Option TaskId) :
    Slot T where
  occupant := some occupant
  name := Behavior.name occupant
  arity := Behavior.arity occupant
  status := .fresh
  parent := parent
  control := none
  guard := none
  children := []
  inbox := []
  reports := 0

/-- A tree of tasks over a board, with the listeners that are told of its
changes. -/
structure Arena (E T : Type) where
  slots : Array (Slot T)
  root : Option TaskId
  /-- The board shared by all tasks. -/
  board : E
  /-- Where the tree stands after its last step. -/
  status : Status
  /-- The listeners in the order of their registration. -/
  listeners : List Listener
  /-- The fault that is aborting the present step. -/
  fault : Option Fault
  /-- The random numbers, and how many of them are used up. -/
  dice : Nat → Nat
  rolled : Nat
  /-- What happened since the journal was last taken, oldest first. -/
  journal : Array Entry

/-- The handle of the guard evaluator. -/
def TaskId.evaluator : TaskId := ⟨0⟩

namespace Arena

variable {E T : Type}

/-- A tree without a root. -/
def empty [Behavior E T] (board : E) (dice : Nat → Nat) : Arena E T where
  slots := #[Slot.of .evaluator none]
  root := none
  board := board
  status := .fresh
  listeners := []
  fault := none
  dice := dice
  rolled := 0
  journal := #[]

-- ================================================================ access

/-- The slot of a handle. -/
def slot? (a : Arena E T) (id : TaskId) : Option (Slot T) := a.slots[id.index]?

/-- Changes the slot of a handle. -/
def modify (a : Arena E T) (id : TaskId) (f : Slot T → Slot T) : Arena E T :=
  { a with slots := a.slots.modify id.index f }

/-- Where the task of a handle stands. -/
def statusOf (a : Arena E T) (id : TaskId) : Status :=
  ((a.slot? id).map (·.status)).getD .fresh

/-- The name under a handle. -/
def nameOf (a : Arena E T) (id : TaskId) : String :=
  ((a.slot? id).map (·.name)).getD ""

/-- The children under a handle. -/
def childrenOf (a : Arena E T) (id : TaskId) : List TaskId :=
  ((a.slot? id).map (·.children)).getD []

/-- The guard under a handle. -/
def guardOf (a : Arena E T) (id : TaskId) : Option TaskId :=
  (a.slot? id).bind (·.guard)

/-- Who receives the reports of the task under a handle. -/
def controlOf (a : Arena E T) (id : TaskId) : Option Control :=
  (a.slot? id).bind (·.control)

/-- The task under a handle, unless it is out of its slot. -/
def occupantOf (a : Arena E T) (id : TaskId) : Option (Occupant T) :=
  (a.slot? id).bind (·.occupant)

/-- What a hook of the task under a handle can see. -/
def view (a : Arena E T) (id : TaskId) (delta : Float32) : View E where
  id := id
  delta := delta
  board := a.board
  status := a.statusOf id
  children := (a.childrenOf id).map a.statusOf

/-- Writes an entry into the journal. -/
def log (a : Arena E T) (entry : Entry) : Arena E T :=
  { a with journal := a.journal.push entry }

/-- Tells all listeners of a change, in the order of their registration. -/
def announce (a : Arena E T) (notice : Notice) : Arena E T :=
  { a with
    journal := a.journal ++ (a.listeners.map fun who => Entry.told who notice) }

-- ============================================================ inspection

/-- The slot of a handle that a caller may ask about: the guard evaluator
is hidden. -/
def shown? (a : Arena E T) (id : TaskId) : Option (Slot T) :=
  if id = .evaluator then none else a.slot? id

/-- The handles of all tasks, guards included, oldest first. -/
def tasks (a : Arena E T) : List TaskId :=
  (List.range (a.slots.size - 1)).map fun i => ⟨i + 1⟩

/-- The number of tasks, guards included. -/
def count (a : Arena E T) : Nat := a.slots.size - 1

/-- The tree in brief, as descriptions show it. -/
def description (a : Arena E T) : String :=
  let root :=
    match a.root with
    | none => "None"
    | some id => "Some(TaskId(" ++ toString id.index ++ "))"
  "BehaviorTree \x7b root: " ++ root ++ ", status: " ++ a.status.label
    ++ ", tasks: " ++ toString a.count ++ ", listeners: "
    ++ toString a.listeners.length
    ++ ", .. \x7d"

-- ============================================================= listeners

/-- Registers a listener. -/
def addListener (a : Arena E T) (who : Listener) : Arena E T :=
  { a with listeners := a.listeners ++ [who] }

/-- Removes the first registration of a listener, and says whether there
was one. -/
def removeListener (a : Arena E T) (who : Listener) : Bool × Arena E T :=
  (a.listeners.contains who, { a with listeners := a.listeners.erase who })

/-- Removes every listener. -/
def clearListeners (a : Arena E T) : Arena E T := { a with listeners := [] }

-- ======================================================== slots and sizes

@[simp] theorem modify_size (a : Arena E T) (id : TaskId)
    (f : Slot T → Slot T) :
    (a.modify id f).slots.size = a.slots.size := by
  simp [modify]

/-- A changed slot reads as changed. -/
theorem slot?_modify_self (a : Arena E T) (id : TaskId) (f : Slot T → Slot T) :
    (a.modify id f).slot? id = (a.slot? id).map f := by
  simp [modify, slot?, Array.getElem?_modify]

/-- Changing one slot leaves the others alone. -/
theorem slot?_modify_of_ne (a : Arena E T) {id other : TaskId}
    (f : Slot T → Slot T) (h : other ≠ id) :
    (a.modify id f).slot? other = a.slot? other := by
  have : id.index ≠ other.index :=
    fun e => h (by cases id; cases other; simp_all)
  simp [modify, slot?, Array.getElem?_modify, this]

end Arena

end TaskTree
