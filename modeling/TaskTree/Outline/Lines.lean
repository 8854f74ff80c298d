/-
Outlines as plain data: the lines of a text with their statements.

`Lines.handler` keeps everything that it is offered. It refuses one thing
only, an attribute that its statement has already.
-/
import TaskTree.Outline.Reading
import TaskTree.Outline.Statement

namespace TaskTree.Outline

/-- A line with statements. -/
structure Line where
  indent : Nat
  statements : List Statement
  deriving DecidableEq

/-- The lines and comments met so far, and the statement that is not
complete yet. -/
structure Lines where
  lines : Array Line
  comments : Array String
  current : Option Statement

namespace Lines

/-- Nothing met yet. -/
def empty : Lines := { lines := #[], comments := #[], current := none }

/-- Appends a statement to the last line, if there is one. -/
def addStatement (kept : Lines) (statement : Statement) : Lines :=
  { kept with
    lines := kept.lines.modify (kept.lines.size - 1) fun line =>
      { line with statements := line.statements ++ [statement] } }

/-- Keeps what it is offered. -/
def handler : Handler Lines BuildFault
  | .line indent, kept =>
    ({ kept with lines := kept.lines.push { indent, statements := [] } }, none)
  | .statement name isReference isGuard, kept =>
    ({ kept with current := some (.bare name isReference isGuard) }, none)
  | .attr name value, kept =>
    match kept.current with
    | none => (kept, none)
    | some statement =>
      match statement.addAttribute name value with
      | .ok statement => ({ kept with current := some statement }, none)
      | .error fault => (kept, some fault)
  | .endStatement, kept =>
    match kept.current with
    | none => (kept, none)
    | some statement =>
      ({ kept with current := none }.addStatement statement, none)
  | .endLine, kept => (kept, none)
  | .comment text, kept =>
    ({ kept with comments := kept.comments.push text }, none)

end Lines

end TaskTree.Outline
