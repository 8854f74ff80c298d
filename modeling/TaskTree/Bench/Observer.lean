/-
The observers of a workbench: listeners with a name, which write down
what they are told.
-/
import TaskTree.Journal

namespace TaskTree.Bench

/-- What an observer writes down. -/
inductive Manner where
  /-- Every notice, with names and earlier statuses. -/
  | full
  /-- New statuses only. -/
  | brief
  /-- Nothing: the notices go to the log instead. -/
  | traced
  deriving DecidableEq, Repr

/-- A named listener of the workbench. -/
structure Observer where
  key : Nat
  manner : Manner
  deriving DecidableEq, Repr

namespace Observer

/-- The listener that trees know. -/
def listener (o : Observer) : Listener :=
  match o.manner with
  | .traced => .tracer o.key
  | .full | .brief => .observer o.key

/-- What the observer of a name writes down about a notice. -/
def line? (name : String) (o : Observer) : Notice → Option String
  | .status task taskName previous current =>
    match o.manner with
    | .full =>
      some (name ++ " " ++ task.text ++ " " ++ taskName ++ " "
          ++ previous.text ++ ">"
        ++ current.text)
    | .brief => some (name ++ " " ++ task.text ++ " " ++ current.text)
    | .traced => none
  | .added parent index =>
    match o.manner with
    | .full =>
      let place := (parent.map TaskId.text).getD "tree"
      some (name ++ " added " ++ place ++ "[" ++ toString index ++ "]")
    | .brief | .traced => none

end Observer

end TaskTree.Bench
