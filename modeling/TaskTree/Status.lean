/-
Where a task stands, and what it may report.

A task is `fresh` until its tree enters it for the first time. From then
on it is running, has succeeded or has failed, until a reset makes it
fresh again. A report is one of the last three: no task can report itself
fresh, and `Outcome` leaves that word out.
-/

namespace TaskTree

/-- Where a task stands. -/
inductive Status where
  | fresh
  | running
  | succeeded
  | failed
  deriving DecidableEq, Repr, Inhabited

/-- What a task reports about itself. -/
inductive Outcome where
  | running
  | succeeded
  | failed
  deriving DecidableEq, Repr, Inhabited

/-- The status that a report leads to. -/
def Outcome.status : Outcome → Status
  | .running => .running
  | .succeeded => .succeeded
  | .failed => .failed

namespace Status

/-- The report that leads to a status; nothing leads back to `fresh`. -/
def outcome? : Status → Option Outcome
  | .fresh => none
  | .running => some .running
  | .succeeded => some .succeeded
  | .failed => some .failed

/-- Whether a task has ended, one way or the other. -/
def isTerminal : Status → Bool
  | .succeeded | .failed => true
  | .fresh | .running => false

/-- The word for a status in messages. -/
def text : Status → String
  | .fresh => "fresh"
  | .running => "running"
  | .succeeded => "succeeded"
  | .failed => "failed"

/-- The word for a status in descriptions of a structure. -/
def label : Status → String
  | .fresh => "Fresh"
  | .running => "Running"
  | .succeeded => "Succeeded"
  | .failed => "Failed"

/-- The status that a word of a message stands for. -/
def ofText? (s : String) : Option Status :=
  [Status.fresh, .running, .succeeded, .failed].find? fun status =>
    status.text = s

end Status

@[simp] theorem Outcome.status_ne_fresh (o : Outcome) : o.status ≠ .fresh := by
  cases o <;> decide

@[simp] theorem Status.outcome?_status (o : Outcome) :
    o.status.outcome? = some o := by
  cases o <;> rfl

end TaskTree
