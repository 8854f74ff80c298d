/-
The commands that a probe follows.

A command is written in words separated by single spaces. `Command.read`
accepts every text: one that is no command stands for a question mark in
the log.
-/
import TaskTree.Number.Numeral
import TaskTree.Status

namespace TaskTree.Bench

/-- One command of a probe. -/
inductive Command where
  /-- Reports. -/
  | report (outcome : Outcome)
  /-- Runs a child. -/
  | run (child : Nat)
  /-- Begins the probe's own count of updates again. -/
  | rewind
  /-- Adds to a counter. -/
  | add (name : String) (amount : Int64)
  /-- Follows a command if the hook answers for a certain child. -/
  | only (child : Nat) (command : Command)
  /-- Logs a text. -/
  | say (text : String)
  /-- Logs what a task sees: its status, the number of its children, its
  handle, the time step, a counter, the child that the hook answers for,
  and the status of a child. -/
  | showStatus
  | showCount
  | showId
  | showDelta
  | showCounter (name : String)
  | showIndex
  | showChild (child : Nat)
  | unknown
  deriving DecidableEq, Repr

/-- The first word of a text and what follows the space after it. -/
def firstWord (cs : List Char) : List Char × List Char :=
  (cs.takeWhile (· ≠ ' '), (cs.dropWhile (· ≠ ' ')).drop 1)

/-- A natural number; a text that is none counts as zero. -/
def readCount (cs : List Char) : Nat :=
  if cs.isEmpty || !cs.all Numeral.isDigit then 0 else Numeral.ofDigits cs

/-- Reads a command of at most `depth` nested `only`s. -/
def Command.readNested : Nat → List Char → Command
  | depth, cs =>
    let (word, rest) := firstWord cs
    match String.ofList word with
    | "success" => .report .succeeded
    | "fail" => .report .failed
    | "running" => .report .running
    | "run" => .run (readCount rest)
    | "rewind" => .rewind
    | "add" =>
      let (name, amount) := firstWord rest
      .add (String.ofList name) ((readInt64 amount).getD 1)
    | "only" =>
      match depth with
      | 0 => .unknown
      | depth + 1 =>
        let (child, command) := firstWord rest
        .only (readCount child) (readNested depth command)
    | "log" => .say (String.ofList rest)
    | "status" => .showStatus
    | "count" => .showCount
    | "id" => .showId
    | "dt" => .showDelta
    | "var" => .showCounter (String.ofList rest)
    | "index" => .showIndex
    | "child" => .showChild (readCount rest)
    | _ => .unknown

/-- Reads a command. Each `only` takes five characters, so the text's
length bounds how deep they nest. -/
def Command.read (text : String) : Command := readNested text.length text.toList

end TaskTree.Bench
