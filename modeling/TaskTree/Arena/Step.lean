/-
Stepping a tree.

`drive` enters a task or goes on with it. A running task is updated.
Otherwise its controller is noted, its guard is asked, and it is started
and updated, or fails if the guard turns it away. Every hook runs through
`perform`, with the task out of its slot, and when it is over the
task answers the reports that its children have left in its inbox, one by
one and in their order (`answer`).

The first fault stops everything: from then on no task is driven or
called, no status changes and no report is taken, while the hooks that
are already running come to their end with calls that do nothing.

A task may run children without end, so `drive` and the functions around
it take a budget that bounds how deep they nest, and give nothing when it
runs out. The budget plays no other part: with any larger one a finished
step is the same step (`step_mono`).
-/
import TaskTree.Arena.Basic

namespace TaskTree.Arena

variable {E T : Type} [Behavior E T]

-- ================================================================ faults

/-- Notes a fault. The first one stays the tree's fault. -/
def raise (a : Arena E T) (fault : Fault) : Arena E T :=
  { a.log (.raised fault) with fault := a.fault.or (some fault) }

/-- Whether a fault is aborting the step. -/
def isAborting (a : Arena E T) : Bool := a.fault.isSome

-- =============================================================== reports

/-- Takes the next report from an inbox. An aborting step empties the
inbox instead. -/
def takeReport (a : Arena E T) (id : TaskId) : Option Report × Arena E T :=
  match a.fault with
  | some _ => (none, a.modify id fun s => { s with inbox := [] })
  | none =>
    ((a.slot? id).bind (·.inbox.head?),
      a.modify id fun s => { s with inbox := s.inbox.tail })

/-- The position of a child in its controller's children; a guard has none
and reports as child zero. -/
def childIndex (a : Arena E T) (controller child : TaskId) : Nat :=
  ((a.childrenOf controller).findIdx? (· = child)).getD 0

/-- Leaves a report in the controller's inbox. -/
def post (a : Arena E T) (controller child : TaskId)
    (outcome : Outcome) : Arena E T :=
  let report := { child := a.childIndex controller child, outcome }
  a.modify controller fun s => { s with inbox := s.inbox ++ [report] }

/-- Sets the tree's own status. -/
def settle (a : Arena E T) (outcome : Outcome) : Arena E T :=
  { a.log (.settled a.status outcome.status) with status := outcome.status }

/-- Sets the status of a task and tells the listeners. -/
def setStatus (a : Arena E T) (id : TaskId) (outcome : Outcome) : Arena E T :=
  let previous := a.statusOf id
  let name := a.nameOf id
  let changed := a.modify id fun s => { s with status := outcome.status }
  (changed.log (.statusSet id name previous outcome.status)).announce
    (.status id name previous outcome.status)

/-- Counts a report of a task. -/
def countReport (a : Arena E T) (id : TaskId) (outcome : Outcome) : Arena E T :=
  (a.log (.reported id outcome)).modify id fun s =>
    { s with reports := s.reports + 1 }

/-- How often a task has reported in its turn. -/
def reportsOf (a : Arena E T) (id : TaskId) : Nat :=
  ((a.slot? id).map (·.reports)).getD 0

/-- Begins a turn of a task, which has not reported in it yet. -/
def beginTurn (a : Arena E T) (id : TaskId) : Arena E T :=
  (a.log (.turnBegan id)).modify id fun s => { s with reports := 0 }

/-- Ends a turn of a task. -/
def endTurn (a : Arena E T) (id : TaskId) : Arena E T := a.log (.turnEnded id)

/-- Notes who receives a task's reports. -/
def setControl (a : Arena E T) (id : TaskId) (control : Control) : Arena E T :=
  a.modify id fun s => { s with control := some control }

/-- Takes a task out of its slot. -/
def vacate (a : Arena E T) (id : TaskId) : Arena E T :=
  a.modify id fun s => { s with occupant := none }

/-- Puts a task back into its slot. -/
def refill (a : Arena E T) (id : TaskId) (occupant : Occupant T) : Arena E T :=
  a.modify id fun s => { s with occupant := some occupant }

/-- The next random number. -/
def roll (a : Arena E T) : Nat × Arena E T :=
  (a.dice a.rolled, { a with rolled := a.rolled + 1 })

/-- A fault if the task was driven to the end of its update without a
report. -/
def checkReported (a : Arena E T) (id : TaskId) : Arena E T :=
  if a.reportsOf id = 0 then a.raise (.silentUpdate id (a.nameOf id)) else a

/-- Whether a guard that had its turn lets its task in. A guard that came
to no end is at fault. -/
def verdict (a : Arena E T) (guard : TaskId) : Bool × Arena E T :=
  if a.isAborting then (false, a)
  else
    match a.statusOf guard with
    | .succeeded => (true, a)
    | .failed => (false, a)
    | status => (false, a.raise (.unsettledGuard guard (a.nameOf guard) status))

-- ================================================================= hooks

/-- Runs a hook of the task under a handle. What it takes to report and to
run a child is given, since either may run other hooks. -/
def perform {U : Type} (report : Outcome → Arena E T → Option (Arena E T))
    (run : TaskId → Arena E T → Option (Arena E T)) (delta : Float32)
    (id : TaskId) :
    Hook E U → Arena E T → Option (U × Arena E T)
  | .done task, a => some (task, a)
  | .report outcome next, a =>
    (report outcome a).bind (perform report run delta id next)
  | .runChild index next, a =>
    match (a.childrenOf id)[index]? with
    | some child => (run child a).bind (perform report run delta id next)
    | none =>
      perform report run delta id next
        (a.raise (.missingChild id (a.nameOf id) index))
  | .look next, a => perform report run delta id (next (a.view id delta)) a
  | .write board next, a => perform report run delta id next { a with board }
  | .draw next, a => perform report run delta id (next a.roll.1) a.roll.2

-- =============================================================== driving

mutual

/-- Enters a task, or goes on with it, on behalf of its controller. -/
def drive (budget : Nat) (delta : Float32) (id : TaskId) (control : Control)
    (a : Arena E T) :
    Option (Arena E T) :=
  match budget with
  | 0 => none
  | budget + 1 =>
    if a.isAborting then some a
    else if a.statusOf id = .running then do
      let a ← update budget delta id (a.beginTurn id)
      return a.endTurn id
    else do
      let (admitted, a) ← consult budget delta id
          ((a.beginTurn id).setControl id control)
      if admitted then
        let a ← attend budget delta id .start a
        let a ← update budget delta id a
        return a.endTurn id
      else
        let a ← transition budget delta id .failed a
        return a.endTurn id

/-- Updates a task, which has to report in the course of it. -/
def update (budget : Nat) (delta : Float32) (id : TaskId) (a : Arena E T) :
    Option (Arena E T) :=
  match budget with
  | 0 => none
  | budget + 1 => do
    let a ← attend budget delta id .update a
    return if a.isAborting then a else a.checkReported id

/-- Asks the guard of a task whether the task may run. The guard's own
guard is asked first. -/
def consult (budget : Nat) (delta : Float32) (id : TaskId) (a : Arena E T) :
    Option (Bool × Arena E T) :=
  match budget with
  | 0 => none
  | budget + 1 =>
    match a.guardOf id with
    | none => some (true, a)
    | some guard => do
      let (admitted, a) ← consult budget delta guard a
      if admitted then
        let a := (a.setControl guard (.task .evaluator)).beginTurn guard
        let a ← attend budget delta guard .start a
        let a ← update budget delta guard a
        return (a.endTurn guard).verdict guard
      else
        return (false, a)

/-- Calls a task, then lets it answer what came in. -/
def attend (budget : Nat) (delta : Float32) (id : TaskId) (call : Call)
    (a : Arena E T) :
    Option (Arena E T) :=
  match budget with
  | 0 => none
  | budget + 1 =>
    if a.isAborting then some a
    else
      match a.occupantOf id with
      | none => some (a.raise (.reentry id (a.nameOf id)))
      | some occupant => do
        let (occupant, a) ←
          perform (transition budget delta id)
            (fun child => drive budget delta child (.task id)) delta id
            (call.hook occupant) ((a.vacate id).log (.called id call))
        answer budget delta id occupant (a.log (.returned id))

/-- Lets a task that is out of its slot answer the reports in its inbox,
then puts it back. -/
def answer (budget : Nat) (delta : Float32) (id : TaskId)
    (occupant : Occupant T) (a : Arena E T) : Option (Arena E T) :=
  match budget with
  | 0 => none
  | budget + 1 =>
    match a.takeReport id with
    | (none, a) => some (a.refill id occupant)
    | (some report, a) => do
      let call := Call.respond report.outcome report.child
      let (occupant, a) ←
        perform (transition budget delta id)
          (fun child => drive budget delta child (.task id)) delta id
          (call.hook occupant) (a.log (.called id call))
      answer budget delta id occupant (a.log (.returned id))

/-- Sets the status that a task reports, and passes the report on to its
controller. A controller that no hook is running answers at once. -/
def transition (budget : Nat) (delta : Float32) (id : TaskId)
    (outcome : Outcome) (a : Arena E T) : Option (Arena E T) :=
  match budget with
  | 0 => none
  | budget + 1 =>
    if a.isAborting then some a
    else
      let a := a.countReport id outcome
      if 1 < a.reportsOf id then some (a.raise (.secondReport id (a.nameOf id)))
      else
        let a := a.setStatus id outcome
        match a.controlOf id with
        | none => some a
        | some .tree => some (a.settle outcome)
        | some (.task controller) =>
          let a := a.post controller id outcome
          match a.occupantOf controller with
          | some occupant =>
            answer budget delta controller occupant (a.vacate controller)
          | none => some a

end

/-- Advances a tree by one step of `delta` seconds. Gives the tree's status
or the fault that aborted the step, and nothing if the budget ran out. -/
def step (budget : Nat) (delta : Float32) (a : Arena E T) :
    Option (Except Fault Status × Arena E T) :=
  match a.root with
  | none => some (.error .noRoot, a)
  | some root => do
    let begun := { a.log (.stepBegan root delta) with fault := none }
    let a ← drive budget delta root .tree begun
    match a.fault with
    | some fault =>
      return (.error fault, { a with fault := none }.log (.stepAborted fault))
    | none => return (.ok a.status, a)

end TaskTree.Arena
