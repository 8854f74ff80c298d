/-
The journal of a tree: everything that happens in it, in its order.

The journal is a full account of what a tree does: which tasks had their
turn, which of their hooks were called, what they reported, which statuses
were set, what listeners were told, and the faults. Others see two parts
of it, the notices that listeners get and the records of the log.

A listener is known by its key alone, so the same listener may be
registered twice and is then notified twice. A `tracer` is a listener that
turns each notice into a log record.
-/
import TaskTree.Fault
import TaskTree.Number.Bits

namespace TaskTree

/-- Someone who is notified of a tree's changes, known by a key. -/
inductive Listener where
  | observer (key : Nat)
  | tracer (key : Nat)
  deriving DecidableEq, Repr

/-- A change of a tree. -/
inductive Notice where
  /-- The status of a task was set; it may be the one it had before. -/
  | status (task : TaskId) (name : String) (previous current : Status)
  /-- A task became the child of `parent` at an index; without a parent it
  became the root. -/
  | added (parent : Option TaskId) (index : Nat)
  deriving DecidableEq, Repr

/-- An entry of a tree's journal. -/
inductive Entry where
  | stepBegan (root : TaskId) (delta : Float32)
  /-- A task's turn began: it is entered or gone on with. -/
  | turnBegan (task : TaskId)
  /-- The task's turn is over, and with it those of its children. -/
  | turnEnded (task : TaskId)
  /-- A hook of a task began. -/
  | called (task : TaskId) (call : Call)
  /-- The hook of a task came to its end. -/
  | returned (task : TaskId)
  /-- A task reported. -/
  | reported (task : TaskId) (outcome : Outcome)
  /-- The status of a task was set. -/
  | statusSet (task : TaskId) (name : String) (previous status : Status)
  /-- The status of the tree itself was set. -/
  | settled (previous status : Status)
  /-- A listener was told. -/
  | told (listener : Listener) (notice : Notice)
  /-- A fault was found. The first one of a step aborts it. -/
  | raised (fault : Fault)
  | stepAborted (fault : Fault)
  deriving DecidableEq

-- =============================================================== records

/-- How much a record matters, the most severe first. -/
inductive Severity where
  | warn
  | info
  | debug
  | trace
  deriving DecidableEq, Repr

namespace Severity

/-- The rank of a severity; the most severe comes first. -/
def rank : Severity → Nat
  | .warn => 1
  | .info => 2
  | .debug => 3
  | .trace => 4

/-- The severity as records show it. -/
def text : Severity → String
  | .warn => "WARN"
  | .info => "INFO"
  | .debug => "DEBUG"
  | .trace => "TRACE"

end Severity

/-- A record of the log: a message with named fields. -/
structure Record where
  severity : Severity
  message : String
  fields : List (String × String)
  deriving DecidableEq, Repr

/-- The record that a tracer makes of a notice. -/
def Notice.record : Notice → Record
  | .status task name previous current =>
    { severity := .debug
      message := "task status updated"
      fields := [("task", task.text), ("name", name),
        ("previous", previous.text), ("status", current.text)] }
  | .added (some parent) index =>
    { severity := .debug
      message := "child task added"
      fields := [("parent", parent.text), ("index", toString index)] }
  | .added none _ =>
    { severity := .debug, message := "root task set", fields := [] }

/-- The record that an entry leaves in the log, if it leaves one. What an
observer is told stays between the tree and the observer, and the tree's
status is logged when a run has ended. -/
def Entry.record? : Entry → Option Record
  | .stepBegan root delta =>
    some {
      severity := .trace
      message := "stepping behavior tree"
      fields := [("root", root.text), ("dt", Binary64.bitText delta.toFloat)] }
  | .statusSet task name previous status =>
    some {
      severity := .trace
      message := "task status set"
      fields := [("task", task.text), ("name", name),
        ("previous", previous.text), ("status", status.text)] }
  | .settled previous status =>
    if status.isTerminal then
      some {
        severity := .debug
        message := "behavior tree run finished"
        fields := [("previous", previous.text), ("status", status.text)] }
    else none
  | .told (.tracer _) notice => some notice.record
  | .stepAborted fault =>
    some {
      severity := .warn
      message := "behavior tree step aborted: " ++ fault.message
      fields := [("code", fault.code)] }
  | .told (.observer _) _ | .turnBegan _ | .turnEnded _ | .called _ _
  | .returned _
  | .reported _ _ | .raised _ => none

end TaskTree
