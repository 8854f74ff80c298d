/-
A workbench: one dialect, and blueprints, trees and observers by name.

Everything is an action on the workbench that gives an answer or a
`Trouble`; an action in trouble keeps what was done before it. Trees and
readings write their journals as they go. `harvest` collects what was
written since it was last called: what observers were told, what went to
the log, and what tasks logged on their boards.
-/
import TaskTree.Arena.Growth
import TaskTree.Arena.Renewal
import TaskTree.Arena.Step
import TaskTree.Bench.Observer
import TaskTree.Bench.Probe
import TaskTree.Outline.Document

namespace TaskTree

open Outline

/-- A tree of the workbench. -/
abbrev Bench.Subject := Arena Bench.Store Bench.Cast

/-- A blueprint of the workbench. -/
abbrev Bench.Plan := Blueprint Bench.Cast

/-- What keeps an action from being done. -/
inductive Bench.Trouble where
  /-- Nothing has the name; the word says what was looked for. -/
  | missing (what : String)
  | tree (fault : Fault)
  | build (fault : BuildFault)
  | document (fault : DocumentFault)
  /-- The text is no repeat count. -/
  | count (text : String)
  /-- The hooks of a step nest deeper than the workbench allows. -/
  | endless

/-- A workbench. -/
structure Bench where
  dialect : Dialect Bench.Cast
  plans : Roster Bench.Plan
  subjects : Roster Bench.Subject
  observers : Roster Bench.Observer
  /-- What readings wrote to the log, oldest first. -/
  records : List Record

namespace Bench

/-- An action on a workbench. -/
abbrev Act := ExceptT Trouble (StateM Bench)

/-- The workbench at the start. -/
def fresh (settings : Settings) : Bench :=
  { dialect := Dialect.standard Cast.common settings
    plans := Roster.empty
    subjects := Roster.empty
    observers := Roster.empty
    records := [] }

/-- The random numbers of the trees of a workbench. -/
def dice (n : Nat) : Nat :=
  (n * 6364136223846793005 + 1442695040888963407) / Nat.pow 2 32 % Nat.pow 2 31

/-- How deep the hooks of one step may nest. -/
def stepBudget : Nat := Nat.pow 10 9

-- =============================================================== plumbing

/-- Gives an answer, or the trouble in its place. -/
def settleOr {α β : Type} (trouble : β → Trouble) : Except β α → Act α
  | .ok value => pure value
  | .error cause => throw (trouble cause)

/-- The tree of a name. -/
def subject (name : String) : Act Subject := do
  match (← get).subjects.get? name with
  | some arena => return arena
  | none => throw (.missing "tree")

/-- Puts a tree under a name. -/
def keepSubject (name : String) (arena : Subject) : Act Unit :=
  modify fun bench => { bench with subjects := bench.subjects.put name arena }

/-- The blueprint of a name. -/
def plan (name : String) : Act Plan := do
  match (← get).plans.get? name with
  | some blueprint => return blueprint
  | none => throw (.missing "node")

/-- Puts a blueprint under a name. -/
def keepPlan (name : String) (blueprint : Plan) : Act Unit :=
  modify fun bench => { bench with plans := bench.plans.put name blueprint }

/-- Takes the blueprint of a name off the workbench. -/
def takePlan (name : String) : Act Plan := do
  let blueprint ← plan name
  modify fun bench => { bench with plans := bench.plans.drop name }
  return blueprint

/-- Changes the dialect. -/
def modifyDialect (f : Dialect Cast → Dialect Cast) : Act Unit :=
  modify fun bench => { bench with dialect := f bench.dialect }

/-- Takes over what a reading wrote to the log, and gives its result. -/
def takeReading {α : Type}
    (reading : List Record × Except DocumentFault α) : Act α := do
  modify fun bench => { bench with records := bench.records ++ reading.1 }
  settleOr .document reading.2

-- ================================================================ harvest

/-- What was written since the last harvest. -/
structure Harvest where
  /-- The lines that tasks logged, by tree; trees without lines are left
  out. -/
  logs : List (String × List String)
  /-- The lines of the observers. -/
  lines : List String
  records : List Record

/-- The line that an entry of a journal makes some observer write. -/
def entryLine? (observers : Roster Observer) : Entry → Option String
  | .told listener notice =>
    (observers.entries.find? fun entry => entry.2.listener = listener).bind
      fun entry => entry.2.line? entry.1 notice
  | _ => none

/-- A tree without journal and log. -/
def emptied (arena : Subject) : Subject :=
  { arena with journal := #[], board := { arena.board with log := #[] } }

/-- Collects what was written, and clears it. -/
def harvest (bench : Bench) : Harvest × Bench :=
  let journal :=
    bench.subjects.entries.flatMap fun entry => entry.2.journal.toList
  let logs :=
    bench.subjects.entries.map fun entry => (entry.1, entry.2.board.log.toList)
  ({ logs := logs.filter fun entry => !entry.2.isEmpty
     lines := journal.filterMap (entryLine? bench.observers)
     records := bench.records ++ journal.filterMap Entry.record? },
    { bench with subjects := bench.subjects.map emptied, records := [] })

end Bench

end TaskTree
