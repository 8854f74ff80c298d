/-
The tasks that every tree may use.

* `sequence` runs its children in order until one fails; `selector` runs
  them until one succeeds. Both keep their place over steps.
* `invert`, `alwaysSucceed`, `alwaysFail`, `untilSuccess`, `untilFail` and
  `repeating` have one child and answer for it. The looping ones run it
  once a step at most.
* `success`, `failure`, `wait`, `condition` and `action` have no children.

The type is open in one place: what an action does is a `Deed`, which may
have a state of its own. That state belongs to the action and is neither
a parameter nor part of a run, so it outlives a reset.
-/
import TaskTree.Behavior
import TaskTree.Stock.RepeatCount
import TaskTree.Text.Escape

namespace TaskTree

/-- Values of `A` are deeds: on a board and a time step they give a status,
change the board and change themselves. -/
class Deed (E : outParam Type) (A : Type) where
  act : A → E → Float32 → Status × E × A

/-- A stock task over boards `E` with deeds `A`. -/
inductive Stock (E A : Type) where
  | sequence (current : Nat)
  | selector (current : Nat)
  | invert
  | alwaysSucceed
  | alwaysFail
  | untilSuccess
  | untilFail
  | repeating (count : RepeatCount) (remaining : Int64)
  | success
  | failure
  | wait (seconds elapsed : Float32)
  | condition (name : String) (holds : E → Bool)
  | action (name : String) (deed : A)

namespace Stock

variable {E A : Type}

/-- The name of a stock task. -/
def name : Stock E A → String
  | .sequence _ => "sequence"
  | .selector _ => "selector"
  | .invert => "invert"
  | .alwaysSucceed => "always-succeed"
  | .alwaysFail => "always-fail"
  | .untilSuccess => "until-success"
  | .untilFail => "until-fail"
  | .repeating _ _ => "repeat"
  | .success => "success"
  | .failure => "failure"
  | .wait _ _ => "wait"
  | .condition name _ => name
  | .action name _ => name

/-- The arity of a stock task. -/
def arity : Stock E A → Arity
  | .sequence _ | .selector _ => .many
  | .invert | .alwaysSucceed | .alwaysFail | .untilSuccess | .untilFail
  | .repeating _ _ =>
    .single
  | .success | .failure | .wait _ _ | .condition _ _ | .action _ _ => .leaf

/-- Runs the child at a place, or reports `atEnd` when there is none. -/
def runAt (current : Nat) (atEnd : Outcome) (task : Stock E A) :
    Hook E (Stock E A) :=
  .look fun view =>
    if current < view.children.length then .runChild current (.done task)
    else .report atEnd (.done task)

/-- Entering a task: composites go to their first child, `repeating` gets
its number of repetitions and `wait` its full time. -/
def start : Stock E A → Hook E (Stock E A)
  | .sequence _ => .done (.sequence 0)
  | .selector _ => .done (.selector 0)
  | .repeating count _ =>
    if count.isRandom then .draw fun roll =>
      .done (.repeating count (count.draw roll))
    else .done (.repeating count (count.draw 0))
  | .wait seconds _ => .done (.wait seconds 0)
  | task => .done task

/-- One step of a task. `wait` does not count the step in which it is
entered. -/
def update [Deed E A] : Stock E A → Hook E (Stock E A)
  | .sequence current => runAt current .succeeded (.sequence current)
  | .selector current => runAt current .failed (.selector current)
  | .repeating count remaining =>
    if remaining = 0 then
      .report .succeeded (.done (.repeating count remaining))
    else .runChild 0 (.done (.repeating count remaining))
  | .success => .report .succeeded (.done .success)
  | .failure => .report .failed (.done .failure)
  | .wait seconds elapsed =>
    .look fun view =>
      let elapsed :=
        if view.status = .running then elapsed + view.delta else elapsed
      .report (if seconds ≤ elapsed then .succeeded else .running)
      (.done (.wait seconds elapsed))
  | .condition name holds =>
    .look fun view =>
      .report (if holds view.board then .succeeded else .failed)
        (.done (.condition name holds))
  | .action name deed =>
    .look fun view =>
      let (status, board, deed) := Deed.act deed view.board view.delta
      match status.outcome? with
      | some outcome =>
        .write board (.report outcome (.done (.action name deed)))
      | none => .write board (.done (.action name deed))
  | task => .runChild 0 (.done task)

/-- What a task with one child reports when that child has ended. -/
def answerEnd? (succeeded : Bool) : Stock E A → Option (Outcome × Stock E A)
  | .invert => some (if succeeded then .failed else .succeeded, .invert)
  | .alwaysSucceed => some (.succeeded, .alwaysSucceed)
  | .alwaysFail => some (.failed, .alwaysFail)
  | .untilSuccess =>
    some (if succeeded then .succeeded else .running, .untilSuccess)
  | .untilFail => some (if succeeded then .running else .succeeded, .untilFail)
  | .repeating count remaining =>
    let remaining := if 0 < remaining then remaining - 1 else remaining
    some (if remaining = 0 then .succeeded else .running,
      .repeating count remaining)
  | _ => none

/-- The answer to a child's report. A task whose child is running is
running itself. -/
def respond (outcome : Outcome) (task : Stock E A) : Hook E (Stock E A) :=
  match outcome, task with
  | .running, task => .report .running (.done task)
  | .succeeded, .sequence current =>
    runAt (current + 1) .succeeded (.sequence (current + 1))
  | .failed, .sequence current => .report .failed (.done (.sequence current))
  | .succeeded, .selector current =>
    .report .succeeded (.done (.selector current))
  | .failed, .selector current =>
    runAt (current + 1) .failed (.selector (current + 1))
  | ended, task =>
    match task.answerEnd? (ended = .succeeded) with
    | some (outcome, task) => .report outcome (.done task)
    | none => .done task

/-- Forgets the run; the parameters and the deed stay. -/
def rewind : Stock E A → Stock E A
  | .sequence _ => .sequence 0
  | .selector _ => .selector 0
  | .repeating count _ => .repeating count 0
  | .wait seconds _ => .wait seconds 0
  | task => task

instance [Deed E A] : Behavior E (Stock E A) where
  name := name
  arity := arity
  start := start
  update := update
  respond outcome _ task := respond outcome task
  rewind := rewind

-- ============================================================== building

/-- A repeating task that was never entered. -/
def repeats (count : RepeatCount) : Stock E A := .repeating count 0

/-- A waiting task that was never entered. -/
def waits (seconds : Float32) : Stock E A := .wait seconds 0

-- ================================================================= texts

/-- A condition or an action in descriptions of a structure. What it does
is not shown. -/
def description? : Stock E A → Option String
  | .condition name _ =>
    some ("Condition \x7b name: " ++ Text.quotedName name ++ " \x7d")
  | .action name _ =>
    some ("Action \x7b name: " ++ Text.quotedName name ++ " \x7d")
  | _ => none

end Stock

end TaskTree
