/-
What the statements of an outline mean.

A dialect knows the names of tasks, each with a maker that turns the
attributes of a statement into a task or refuses them, and the names of
subtrees, each with a blueprint of which every reference gets a renewed
copy. The standard vocabulary has the stock tasks; it is stated for any
type of tasks that the stock tasks embed into.
-/
import TaskTree.Blueprint
import TaskTree.Outline.Settings
import TaskTree.Outline.Statement
import TaskTree.Roster
import TaskTree.Stock.Basic

namespace TaskTree.Outline

/-- Turns the attributes of a statement into a task. -/
abbrev Maker (T : Type) := Attributes → Except BuildFault T

/-- The tasks that a dialect knows, by name. -/
abbrev Vocabulary (T : Type) := Roster (Maker T)

/-- The subtrees that a dialect knows, by name. -/
abbrev Shelf (T : Type) := Roster (Blueprint T)

/-- A list of names in descriptions of a structure. -/
def namesText (names : List String) : String :=
  "[" ++ ", ".intercalate (names.map Text.quotedName) ++ "]"

namespace Vocabulary

variable {E A T : Type}

/-- A maker of one task, without attributes. -/
def plain (name : String) (task : T) : Maker T := fun attributes => do
  attributes.expectOnly name []
  return task

/-- The count that the attribute `times` gives; without it there is no
end. -/
def countOf (attributes : Attributes) : Except BuildFault RepeatCount :=
  match attributes.get? "times" with
  | none => .ok .forever
  | some (.int times) => .ok (.fixed times)
  | some (.text text) =>
    match RepeatCount.read text.toList with
    | some count => .ok count
    | none => .error (Attributes.mismatch "times" "repeat count" (.text text))
  | some other => .error (Attributes.mismatch "times" "repeat count" other)

/-- The maker of `repeat`. -/
def repeatMaker (embed : Stock E A → T) : Maker T := fun attributes => do
  attributes.expectOnly "repeat" ["times"]
  return embed (.repeats (← countOf attributes))

/-- The maker of `wait`. -/
def waitMaker (embed : Stock E A → T) : Maker T := fun attributes => do
  attributes.expectOnly "wait" ["seconds"]
  let seconds ← attributes.require "wait" "seconds"
  match seconds.float? with
  | some seconds => return embed (.waits seconds.toFloat32)
  | none => throw (Attributes.mismatch "seconds" "number" seconds)

/-- The stock tasks without attributes. -/
def plainStock : List (Stock E A) :=
  [.sequence 0, .selector 0, .invert, .alwaysSucceed, .alwaysFail,
    .untilSuccess, .untilFail, .success, .failure]

/-- The vocabulary of the stock tasks. -/
def standard (embed : Stock E A → T) : Vocabulary T :=
  let plains : Vocabulary T :=
    plainStock.foldl
      (fun words task => words.put task.name (plain task.name (embed task)))
      Roster.empty
  (plains.put "repeat" (repeatMaker embed)).put "wait" (waitMaker embed)

/-- Makes the task of a name. -/
def make (words : Vocabulary T) (name : String) (attributes : Attributes) :
    Except BuildFault T :=
  match words.get? name with
  | some maker => maker attributes
  | none => .error (.unknownTask name)

/-- The vocabulary in brief. -/
def description (words : Vocabulary T) : String :=
  "TaskRegistry \x7b names: " ++ namesText words.names ++ " \x7d"

end Vocabulary

namespace Shelf

variable {E T : Type}

/-- A renewed copy of the subtree of a name. -/
def copy [Behavior E T] (shelf : Shelf T) (name : String) :
    Except BuildFault (Blueprint T) :=
  match shelf.get? name with
  | some subtree => .ok subtree.renewed
  | none => .error (.unknownSubtree name)

/-- The shelf in brief. -/
def description (shelf : Shelf T) : String :=
  "TreeLibrary \x7b names: " ++ namesText shelf.names ++ " \x7d"

end Shelf

/-- What the statements of an outline mean, and how outlines are read. -/
structure Dialect (T : Type) where
  vocabulary : Vocabulary T
  shelf : Shelf T
  settings : Settings

namespace Dialect

variable {E A T : Type}

/-- The dialect of the stock tasks, without subtrees. -/
def standard (embed : Stock E A → T) (settings : Settings) : Dialect T :=
  { vocabulary := Vocabulary.standard embed, shelf := Roster.empty, settings }

/-- The blueprint that a statement stands for, without its guard and
without the tasks below it. -/
def build [Behavior E T] (dialect : Dialect T) (statement : Statement) :
    Except BuildFault (Blueprint T) :=
  if statement.isReference then
    if statement.attributes.entries.isEmpty then
      Shelf.copy dialect.shelf statement.name
    else .error (.referenceAttributes statement.name)
  else
    (Vocabulary.make dialect.vocabulary statement.name statement.attributes).map
      Blueprint.single

end Dialect

end TaskTree.Outline
