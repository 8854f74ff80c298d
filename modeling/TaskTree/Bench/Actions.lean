/-
What can be done on a workbench.

An action that needs a blueprint gets it before it looks for the tree or
the blueprint that it works on, so trouble in building comes first.
-/
import TaskTree.Bench.Spec

namespace TaskTree.Bench

open Outline

-- ================================================================ dialect

/-- Registers a maker under a name; gives the number of names. -/
def register (name : String) (maker : Maker Cast) : Act Nat := do
  modifyDialect fun d => { d with vocabulary := d.vocabulary.put name maker }
  return (← get).dialect.vocabulary.size

/-- Replaces the vocabulary; gives its names. -/
def useWords (words : Vocabulary Cast) : Act (List String) := do
  modifyDialect fun d => { d with vocabulary := words }
  return words.names

/-- Puts a subtree on the shelf; gives the one that it replaces. -/
def shelve (name : String) (supply : Spec) : Act (Option Plan) := do
  let subtree ← supply.build
  let replaced := (← get).dialect.shelf.get? name
  modifyDialect fun d => { d with shelf := d.shelf.put name subtree }
  return replaced

/-- Takes a subtree off the shelf. -/
def unshelve (name : String) : Act (Option Plan) := do
  let removed := (← get).dialect.shelf.get? name
  modifyDialect fun d => { d with shelf := d.shelf.drop name }
  return removed

/-- Empties the shelf; gives the number of subtrees left. -/
def clearShelf : Act Nat := do
  modifyDialect fun d => { d with shelf := Roster.empty }
  return (← get).dialect.shelf.size

/-- A copy of a subtree on the shelf. -/
def copySubtree (name : String) : Act Plan := do
  settleOr .build (Shelf.copy (← get).dialect.shelf name)

/-- The task that the vocabulary makes of a name with attributes. -/
def makeTask (name : String) (attributes : Attributes) : Act Cast := do
  settleOr .build (Vocabulary.make (← get).dialect.vocabulary name attributes)

/-- Reads the tree of an outline, and keeps it if it is given a name. -/
def readPlan (text : String) (keep : Option String) : Act Plan := do
  let blueprint ← takeReading ((← get).dialect.parse text)
  if let some name := keep then keepPlan name blueprint
  return blueprint

/-- Reads a subtree from an outline and puts it on the shelf; gives the
number of subtrees. -/
def readSubtree (name text : String) : Act Nat := do
  let subtree ← takeReading ((← get).dialect.parse text)
  modifyDialect fun d => { d with shelf := d.shelf.put name subtree }
  return (← get).dialect.shelf.size

-- ============================================================= blueprints

/-- Builds a blueprint and keeps it under a name. -/
def buildPlan (name : String) (spec : Spec) : Act Plan := do
  let blueprint ← spec.build
  keepPlan name blueprint
  return blueprint

/-- Keeps a copy of a blueprint under another name. -/
def copyPlan (name copyName : String) : Act Plan := do
  let copy := (← plan name).renewed
  keepPlan copyName copy
  return copy

/-- Adds a child to a blueprint; gives its index. -/
def growPlan (name : String) (spec : Spec) : Act Nat := do
  let child ← spec.build
  let grown ← settleOr .tree ((← plan name).addChild child)
  keepPlan name grown
  return grown.children.length - 1

/-- Guards a blueprint. -/
def guardPlan (name : String) (spec : Spec) : Act Unit := do
  let guard ← spec.build
  keepPlan name (← settleOr .tree ((← plan name).setGuard guard))

/-- Turns a blueprint into one with another child. A blueprint that allows
none is lost. -/
def planWithChild (name : String) (spec : Spec) : Act Plan := do
  let child ← spec.build
  let grown ← settleOr .tree ((← takePlan name).addChild child)
  keepPlan name grown
  return grown

/-- Turns a blueprint into one with a guard. A blueprint that has one is
lost. -/
def planWithGuard (name : String) (spec : Spec) : Act Plan := do
  let guard ← spec.build
  let guarded ← settleOr .tree ((← takePlan name).setGuard guard)
  keepPlan name guarded
  return guarded

-- ================================================================== trees

/-- Makes a tree over a board, with a root or without one; gives the number
of its tasks. -/
def plantTree (name : String) (root : Option Supply) (counters : Roster Int64) :
    Act Nat := do
  let board := Store.ofCounters counters
  let arena : Subject ←
    match root with
    | none => pure (Arena.empty board dice)
    | some supply => do pure (Arena.ofBlueprint (← supply.get) board dice)
  keepSubject name arena
  return arena.count

/-- Makes the tree that an outline describes. -/
def readTree (name text : String) (counters : Roster Int64) : Act Nat := do
  let root ← takeReading ((← get).dialect.parse text)
  let arena : Subject := Arena.ofBlueprint root (Store.ofCounters counters) dice
  keepSubject name arena
  return arena.count

/-- Makes the tree that the outline of a source describes. -/
def readTreeSource (name : String) (source : Source) (counters : Roster Int64) :
    Act Nat := do
  let root ← takeReading ((← get).dialect.parseSource source)
  let arena : Subject := Arena.ofBlueprint root (Store.ofCounters counters) dice
  keepSubject name arena
  return arena.count

/-- Makes an independent copy of a tree, over other counters or over a
copy of its own. -/
def copyTree (name copyName : String) (counters : Option (Roster Int64)) :
    Act Subject := do
  let arena ← subject name
  let board := (counters.map Store.ofCounters).getD arena.board
  let copy := arena.instantiate board
  keepSubject copyName copy
  return copy

/-- Grows a tree by a blueprint. -/
def growTree (name : String) (supply : Supply)
    (grow : Subject → Plan → Except Fault (TaskId × Subject)) : Act TaskId := do
  let blueprint ← supply.get
  let (id, grown) ← settleOr .tree (grow (← subject name) blueprint)
  keepSubject name grown
  return id

/-- Gives a tree its root. -/
def addRoot (name : String) (supply : Supply) : Act TaskId :=
  growTree name supply Arena.setRoot

/-- Appends a child to a task of a tree. -/
def addTask (name : String) (parent : TaskId) (supply : Supply) : Act TaskId :=
  growTree name supply fun arena child => arena.attach parent child

/-- Guards a task of a tree. -/
def guardTask (name : String) (task : TaskId) (supply : Supply) : Act TaskId :=
  growTree name supply fun arena guard => arena.setGuard task guard

/-- Steps a tree. A fault of the tree is part of the answer. -/
def stepTree (name : String) (delta : Float32) : Act (Except Fault Status) := do
  match (← subject name).step stepBudget delta with
  | none => throw .endless
  | some (result, arena) =>
    keepSubject name arena
    return result

/-- Several steps of a tree, added to earlier results, the latest first. -/
def stepsFrom (delta : Float32) :
    Nat → List (Except Fault Status) → Subject →
      Option (List (Except Fault Status) × Subject)
  | 0, results, arena => some (results, arena)
  | times + 1, results, arena =>
    match arena.step stepBudget delta with
    | none => none
    | some (result, arena) => stepsFrom delta times (result :: results) arena

/-- Steps a tree several times. -/
def stepTimes (name : String) (delta : Float32) (times : Nat) :
    Act (List (Except Fault Status)) := do
  match stepsFrom delta times [] (← subject name) with
  | none => throw .endless
  | some (results, arena) =>
    keepSubject name arena
    return results.reverse

/-- Resets a tree; gives its status. -/
def resetTree (name : String) : Act Status := do
  let arena := (← subject name).reset
  keepSubject name arena
  return arena.status

/-- Changes the board of a tree; gives the board before and after. -/
def changeBoard (name : String) (f : Store → Store) : Act (Store × Store) := do
  let arena ← subject name
  let board := f arena.board
  keepSubject name { arena with board }
  return (arena.board, board)

-- ============================================================== listeners

/-- The observer of a name, which is made when the name is first used. -/
def observer (name : String) (manner : Manner) : Act Observer := do
  let bench ← get
  match bench.observers.get? name with
  | some known => return known
  | none =>
    let made := { key := bench.observers.size, manner }
    set { bench with observers := bench.observers.put name made }
    return made

/-- Registers an observer with a tree; gives the number of its
listeners. -/
def listen (tree name : String) (manner : Manner) : Act Nat := do
  let arena ← subject tree
  let arena := arena.addListener (← observer name manner).listener
  keepSubject tree arena
  return arena.listeners.length

/-- Removes an observer from a tree; says whether it was there, and gives
the number of listeners. -/
def unlisten (tree name : String) : Act (Bool × Nat) := do
  let arena ← subject tree
  match (← get).observers.get? name with
  | none => throw (.missing "listener")
  | some known =>
    let (removed, arena) := arena.removeListener known.listener
    keepSubject tree arena
    return (removed, arena.listeners.length)

/-- Removes all listeners of a tree; gives the number left. -/
def clearListeners (tree : String) : Act Nat := do
  let arena := (← subject tree).clearListeners
  keepSubject tree arena
  return arena.listeners.length

end TaskTree.Bench
