/-
Actions for trying trees out.

A chore adds to a counter each time it is done, writes a line to the
log, and gives the status that its schedule has for that call. The last
letter of the schedule stands for all later calls.
-/
import TaskTree.Bench.Store
import TaskTree.Number.Bits
import TaskTree.Stock.Basic

namespace TaskTree.Bench

/-- What an action does each time it is called. -/
structure Chore where
  name : String
  counter : String
  amount : Int64
  /-- One letter for each call: `s`, `f` or `r`. -/
  schedule : List Char
  /-- The calls made so far. -/
  calls : Nat

/-- The entry of a schedule for a call; the last one repeats. -/
def entryAt {α : Type} (schedule : List α) (call : Nat) : Option α :=
  schedule[min call (schedule.length - 1)]?

/-- The status that a letter of a schedule stands for; no letter and any
other letter stand for no report. -/
def statusOfLetter : Option Char → Status
  | some 's' => .succeeded
  | some 'f' => .failed
  | some 'r' => .running
  | _ => .fresh

instance : Deed Store Chore where
  act chore store delta :=
    (statusOfLetter (entryAt chore.schedule chore.calls),
      (store.add chore.counter chore.amount).say
        (chore.name ++ " act " ++ Binary32.bitText delta),
      { chore with calls := chore.calls + 1 })

/-- The stock tasks over stores and chores. -/
abbrev Common := Stock Store Chore

/-- A condition that holds while a counter is at least `least`. -/
def atLeast (name counter : String) (least : Int64) : Common :=
  .condition name fun store => least ≤ store.get counter

/-- An action. -/
def chore (name counter : String) (amount : Int64)
    (schedule : String) : Common :=
  .action name { name, counter, amount, schedule := schedule.toList,
                 calls := 0 }

/-- A leaf that succeeds, under a name of its own. -/
def named (name : String) : Common := .condition name fun _ => true

end TaskTree.Bench
