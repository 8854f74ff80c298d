/-
Putting tasks together by their indentation.

Tasks to which more children may be added stand open in frames, the
innermost first, each with the indentation of the line that opened it. The
first task of a line closes every open task that is indented at least as
deep, and becomes a child of the innermost one left; a further task of the
line becomes a child of the task before it. Closing a task is the moment
at which it must have the children that it needs, and at which it is added
to the task around it.

A frame counts its children from the moment they are opened, so that a
task too many is noticed at its own statement.

A guard waits for the next statement, across lines, and is given to it
whatever it is: several guards in a row form a chain.
-/
import TaskTree.Outline.Dialect
import TaskTree.Outline.Event

namespace TaskTree.Outline

/-- A task that may get more children. -/
structure Frame (T : Type) where
  /-- The indentation of the line that opened the task. -/
  indent : Nat
  node : Blueprint T
  /-- The children of the task, with one that is still open. -/
  children : Nat

/-- A tree under construction. -/
structure Scaffold (T : Type) where
  /-- The open tasks, innermost first. -/
  frames : List (Frame T)
  /-- The finished tree. -/
  root : Option (Blueprint T)
  hasRoot : Bool
  /-- The indentation of the present line. -/
  indent : Nat
  /-- Whether the present line has placed a task. -/
  placed : Bool
  /-- The guard that waits for its task. -/
  guard : Option (Blueprint T)
  /-- The statement that is not complete yet. -/
  current : Option Statement

variable {E T : Type} [Behavior E T]

/-- Adds a child to the task of a frame. -/
def Frame.addChild (frame : Frame T) (child : Blueprint T) :
    Except BuildFault (Frame T) :=
  match frame.node.addChild child with
  | .ok node => .ok { frame with node }
  | .error fault => .error (.tree fault)

namespace Scaffold

/-- The scaffold of a document of which nothing was read. -/
def empty : Scaffold T :=
  { frames := [], root := none, hasRoot := false, indent := 0, placed := false,
    guard := none, current := none }

/-- Refuses a task that lacks children. -/
def ensureChildren (node : Blueprint T) : Except BuildFault Unit :=
  if node.children.length < node.arity.least then .error (.childless node.name)
  else .ok ()

/-- Closes the tasks that are indented at least `indent` deep. Gives the
tasks left open, and the finished tree if the outermost one was closed. -/
def close (indent : Nat) (frames : List (Frame T))
    (root : Option (Blueprint T)) :
    Except BuildFault (List (Frame T) × Option (Blueprint T)) :=
  match frames with
  | [] => .ok ([], root)
  | frame :: rest =>
    if frame.indent < indent then .ok (frame :: rest, root)
    else
      match ensureChildren frame.node with
      | .error fault => .error fault
      | .ok () =>
        match rest with
        | [] => .ok ([], some frame.node)
        | outer :: others =>
          match outer.addChild frame.node with
          | .error fault => .error fault
          | .ok outer => close indent (outer :: others) root
termination_by frames.length

/-- Closes what the first task of a line closes; the others close
nothing. -/
def makeRoom (s : Scaffold T) : Except BuildFault (Scaffold T) :=
  if s.placed then .ok s
  else
    match close s.indent s.frames s.root with
    | .error fault => .error fault
    | .ok (frames, root) => .ok { s with frames, root, placed := true }

/-- Opens a task inside the innermost open one. -/
def openTask (s : Scaffold T) (node : Blueprint T) :
    Except BuildFault (Scaffold T) :=
  let frame := { indent := s.indent, node, children := node.children.length }
  match s.frames with
  | [] =>
    if s.hasRoot then .error .secondRoot
    else .ok { s with frames := [frame], hasRoot := true }
  | outer :: others =>
    match outer.node.arity.exceeded? outer.children with
    | some limit => .error (.tree (.childLimit outer.node.name limit))
    | none =>
      .ok { s with
            frames :=
              frame :: { outer with children := outer.children + 1 } :: others }

/-- Gives the waiting guard to the task that follows it. -/
def withGuard (s : Scaffold T) (node : Blueprint T) :
    Except BuildFault (Blueprint T) :=
  match s.guard with
  | none => .ok node
  | some guard =>
    match node.setGuard guard with
    | .ok guarded => .ok guarded
    | .error fault => .error (.tree fault)

/-- Takes in a complete statement. -/
def take (dialect : Dialect T) (statement : Statement) (s : Scaffold T) :
    Except BuildFault (Scaffold T) := do
  let built ← dialect.build statement
  let node ← s.withGuard built
  let s := { s with guard := none }
  if statement.isGuard then
    ensureChildren node
    return { s with guard := some node }
  else
    (← s.makeRoom).openTask node

/-- Takes in an event. -/
def accept (dialect : Dialect T) (event : Event) (s : Scaffold T) :
    Except BuildFault (Scaffold T) :=
  match event with
  | .line indent => .ok { s with indent, placed := false }
  | .statement name isReference isGuard =>
    .ok { s with current := some (.bare name isReference isGuard) }
  | .attr name value =>
    match s.current with
    | none => .ok s
    | some statement =>
      match statement.addAttribute name value with
      | .ok statement => .ok { s with current := some statement }
      | .error fault => .error fault
  | .endStatement =>
    match s.current with
    | none => .ok s
    | some statement => take dialect statement { s with current := none }
  | .endLine | .comment _ => .ok s

/-- The tree of a document that has come to its end. -/
def finish (s : Scaffold T) : Except BuildFault (Blueprint T) :=
  match s.guard with
  | some guard => .error (.danglingGuard guard.name)
  | none =>
    match close 0 s.frames s.root with
    | .error fault => .error fault
    | .ok (_, none) => .error .noTasks
    | .ok (_, some root) => .ok root

end Scaffold

end TaskTree.Outline
