/-
From the text of an outline to the tree that it describes.

A document is read event by event into a scaffold. The first fault ends
the reading, whether of spelling or of building, and no part of the tree
is given then. A fault that only the end of the document brings to light
lies on its last line.

The log of a reading is made beside the tree, from the same events. It
has no influence on it.
-/
import TaskTree.Journal
import TaskTree.Outline.Reading
import TaskTree.Outline.Scaffold

namespace TaskTree.Outline

/-- Why a text describes no tree. -/
inductive DocumentFault where
  | malformed (line : Nat) (near : String) (cause : SyntaxFault)
  | unbuilt (line : Nat) (cause : BuildFault)
  | unreadable (reason : String)
  deriving DecidableEq, Repr

namespace DocumentFault

/-- A fault of reading, where the handler's refusals are faults of
building. -/
def ofReadFault : ReadFault BuildFault → DocumentFault
  | .malformed line near cause => .malformed line near cause
  | .refused line _ cause => .unbuilt line cause
  | .unreadable reason => .unreadable reason

/-- The wording of a fault. -/
def message : DocumentFault → String
  | .malformed line near cause =>
    (ReadFault.malformed line near cause : ReadFault Unit).message
  | .unbuilt line cause =>
    "error building behavior tree on line " ++ toString line ++ ": "
      ++ cause.message
  | .unreadable reason => (ReadFault.unreadable reason : ReadFault Unit).message

/-- The stable code of a fault. -/
def code : DocumentFault → String
  | .malformed _ _ cause => cause.code
  | .unbuilt _ cause => cause.code
  | .unreadable reason => (ReadFault.unreadable reason : ReadFault Unit).code

/-- The line of a fault, if it lies in the text. -/
def line? : DocumentFault → Option Nat
  | .malformed line _ _ | .unbuilt line _ => some line
  | .unreadable _ => none

end DocumentFault

variable {E T : Type} [Behavior E T]

/-- The record of a statement that was read. -/
def statementRecord (statement : Statement) (indent : Nat) : Record :=
  { severity := .debug
    message := "statement read"
    fields := [("statement", statement.text), ("indent", toString indent)] }

/-- The record of a comment that was read. -/
def commentRecord (text : String) : Record :=
  { severity := .debug, message := "comment read", fields := [("text", text)] }

/-- The record of a tree that was read. -/
def treeRecord (root : Blueprint T) : Record :=
  { severity := .debug
    message := "parsed behavior tree:\n" ++ root.text
    fields := [("tasks", toString root.count)] }

/-- What the log says of an event, before the scaffold takes it in. -/
def eventRecords (verbosity : Verbosity) (event : Event) (s : Scaffold T) :
    List Record :=
  if verbosity.covers .high then
    match event with
    | .endStatement =>
      (s.current.map fun statement => statementRecord statement s.indent).toList
    | .comment text => [commentRecord text]
    | _ => []
  else []

namespace Dialect

/-- Builds a scaffold from events, and a log beside it. -/
def handler (dialect : Dialect T) :
    Handler (Scaffold T × List Record) BuildFault :=
  fun event (s, log) =>
    let log := log ++ eventRecords dialect.settings.verbosity event s
    match s.accept dialect event with
    | .ok s => ((s, log), none)
    | .error fault => ((s, log), some fault)

/-- Reads the tree that a text describes, with the log of the reading. -/
def parse (dialect : Dialect T) (text : String) :
    List Record × Except DocumentFault (Blueprint T) :=
  match read dialect.settings.reportsComments dialect.handler text
    (Scaffold.empty, []) with
  | ((_, log), some fault) => (log, .error (.ofReadFault fault))
  | ((s, log), none) =>
    match s.finish with
    | .error cause => (log, .error (.unbuilt (lastLine text.toList) cause))
    | .ok root =>
      (if dialect.settings.verbosity.covers .low then log ++ [treeRecord root]
        else log, .ok root)

/-- Reads the tree that the text of a source describes. -/
def parseSource (dialect : Dialect T) (source : Source) :
    List Record × Except DocumentFault (Blueprint T) :=
  match source.text with
  | .error reason => ([], .error (.unreadable reason))
  | .ok text => dialect.parse text

end Dialect

end TaskTree.Outline
