/-
Tasks that follow a script.

A probe has a list of commands for every hook. Its updates go through a
list of such lists, of which the last one repeats, and it counts them;
the count is what it remembers of a run. Commands that follow a breach of
the contract are followed all the same, and show what a task can still
see and do then.
-/
import TaskTree.Bench.Chore
import TaskTree.Bench.Command

namespace TaskTree.Bench

/-- A task that follows a script. -/
structure Probe where
  name : String
  arity : Arity
  onStart : List Command
  onSuccess : List Command
  onFailure : List Command
  onRunning : List Command
  updates : List (List Command)
  /-- Whether a reset begins the count of updates again. -/
  forgets : Bool
  /-- The updates made so far. -/
  calls : Nat

namespace Probe

/-- Writes a line about what the probe sees to the log. -/
def tell (p : Probe) (line : View Store → String) : Hook Store Probe :=
  .look fun view =>
    .write (view.board.say (p.name ++ " " ++ line view)) (.done p)

/-- A number, or a word where there is none. -/
def optionText {α : Type} (text : α → String) : Option α → String
  | some value => text value
  | none => "none"

/-- Follows one command, in a hook that answers for a child or for none. -/
def follow (child : Option Nat) : Command → Probe → Hook Store Probe
  | .report outcome, p => .report outcome (.done p)
  | .run index, p => .runChild index (.done p)
  | .rewind, p => .done { p with calls := 0 }
  | .add name amount, p =>
    .look fun view => .write (view.board.add name amount) (.done p)
  | .only index command, p =>
    if child = some index then follow child command p else .done p
  | .say text, p => p.tell fun _ => text
  | .showStatus, p => p.tell fun view => "status " ++ view.status.text
  | .showCount, p =>
    p.tell fun view => "count " ++ toString view.children.length
  | .showId, p => p.tell fun view => "id " ++ view.id.text
  | .showDelta, p => p.tell fun view => "dt " ++ Binary32.bitText view.delta
  | .showCounter name, p =>
    p.tell fun view =>
      "var " ++ name ++ " " ++ toString (view.board.get name).toInt
  | .showIndex, p => p.tell fun _ => "index " ++ optionText toString child
  | .showChild index, p =>
    p.tell fun view =>
      "child " ++ toString index ++ " "
        ++ optionText Status.text view.children[index]?
  | .unknown, p => p.tell fun _ => "?"

/-- Follows commands in their order. -/
def followAll (child : Option Nat) : List Command → Probe → Hook Store Probe
  | [], p => .done p
  | command :: commands, p =>
    (follow child command p).andThen (followAll child commands)

/-- The commands for each kind of report. -/
def commandsFor (p : Probe) : Outcome → List Command
  | .running => p.onRunning
  | .succeeded => p.onSuccess
  | .failed => p.onFailure

instance : Behavior Store Probe where
  name p := p.name
  arity p := p.arity
  start p := followAll none p.onStart p
  update p :=
    followAll none ((entryAt p.updates p.calls).getD [])
      { p with calls := p.calls + 1 }
  respond outcome child p := followAll (some child) (p.commandsFor outcome) p
  rewind p := if p.forgets then { p with calls := 0 } else p

end Probe

/-- What acts on a workbench: the stock tasks, and probes. -/
inductive Cast where
  | common (task : Common)
  | probe (probe : Probe)

instance : Behavior Store Cast where
  name
    | .common t => Behavior.name t
    | .probe p => Behavior.name p
  arity
    | .common t => Behavior.arity t
    | .probe p => Behavior.arity p
  start
    | .common t => (Behavior.start t).map .common
    | .probe p => (Behavior.start p).map .probe
  update
    | .common t => (Behavior.update t).map .common
    | .probe p => (Behavior.update p).map .probe
  respond outcome child
    | .common t => (Behavior.respond outcome child t).map .common
    | .probe p => (Behavior.respond outcome child p).map .probe
  rewind
    | .common t => .common (Behavior.rewind t)
    | .probe p => .probe (Behavior.rewind p)

end TaskTree.Bench
