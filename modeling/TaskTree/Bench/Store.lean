/-
A board for trying trees out: integer counters and a log.

A counter that was never set reads as zero, and arithmetic on counters
wraps around at 64 bits.
-/
import TaskTree.Roster

namespace TaskTree.Bench

/-- Integer counters and a log, oldest line first. -/
structure Store where
  counters : Roster Int64
  log : Array String

namespace Store

/-- The store with the given counters and nothing logged. -/
def ofCounters (counters : Roster Int64) : Store := { counters, log := #[] }

/-- The value of a counter. -/
def get (store : Store) (name : String) : Int64 :=
  (store.counters.get? name).getD 0

/-- Sets a counter. -/
def set (store : Store) (name : String) (value : Int64) : Store :=
  { store with counters := store.counters.put name value }

/-- Adds to a counter. -/
def add (store : Store) (name : String) (amount : Int64) : Store :=
  store.set name (store.get name + amount)

/-- Appends a line to the log. -/
def say (store : Store) (line : String) : Store :=
  { store with log := store.log.push line }

/-- Reading a counter that was just set. -/
@[simp] theorem get_set_self (store : Store) (name : String) (value : Int64) :
    (store.set name value).get name = value := by
  simp [get, set]

end Store

end TaskTree.Bench
