/-
Growing a tree.

A blueprint is planted under one link: as the root, as the last child of
a task, or as a task's guard. Its tasks take the next free slots in
preorder: the task, then its guard, then its children from left to right.
Roots and children are announced to the listeners as they are planted,
guards are not.
-/
import TaskTree.Arena.Basic

namespace TaskTree.Arena

variable {E T : Type} [Behavior E T]

/-- Where a planted blueprint is linked. -/
inductive Link where
  | root
  | child (parent : TaskId)
  | guard (owner : TaskId)
  deriving DecidableEq, Repr

/-- The handle that the next planted task gets. -/
def nextId (a : Arena E T) : TaskId := ⟨a.slots.size⟩

/-- Puts a task into the next slot, without any link to it. -/
def occupy (a : Arena E T) (task : T) (parent : Option TaskId) : Arena E T :=
  { a with slots := a.slots.push (Slot.of (.task task) parent) }

/-- Links a task that was just put into its slot. -/
def attachLink (link : Link) (id : TaskId) (a : Arena E T) : Arena E T :=
  match link with
  | .root =>
    ({ a with root := some id }.modify id fun s =>
        { s with control := some .tree }).announce
      (.added none 0)
  | .child parent =>
    let index := (a.childrenOf parent).length
    (a.modify parent fun s =>
      { s with children := s.children ++ [id] }).announce
      (.added (some parent) index)
  | .guard owner => a.modify owner fun s => { s with guard := some id }

/-- The parent that a link gives. -/
def Link.parent : Link → Option TaskId
  | .child parent => some parent
  | .root | .guard _ => none

mutual

/-- Plants a blueprint under a link. -/
def plant (link : Link) : Blueprint T → Arena E T → Arena E T
  | .node task guard children, a =>
    let id := a.nextId
    let placed := attachLink link id (a.occupy task link.parent)
    plantAll id children (plantGuard id guard placed)

/-- Plants the guard of a task, if there is one. -/
def plantGuard (owner : TaskId) : Option (Blueprint T) → Arena E T → Arena E T
  | none, a => a
  | some guard, a => plant (.guard owner) guard a

/-- Plants blueprints as the last children of a task. -/
def plantAll (parent : TaskId) : List (Blueprint T) → Arena E T → Arena E T
  | [], a => a
  | child :: rest, a => plantAll parent rest (plant (.child parent) child a)

end

/-- A tree with a root. -/
def ofBlueprint (root : Blueprint T) (board : E)
    (dice : Nat → Nat) : Arena E T :=
  plant .root root (Arena.empty board dice)

/-- Gives the tree its root, once. -/
def setRoot (a : Arena E T) (root : Blueprint T) :
    Except Fault (TaskId × Arena E T) :=
  match a.root with
  | some _ => .error .secondRoot
  | none => .ok (a.nextId, plant .root root a)

/-- Appends a child to a task of the tree. -/
def attach (a : Arena E T) (parent : TaskId) (child : Blueprint T) :
    Except Fault (TaskId × Arena E T) :=
  match a.shown? parent with
  | none => .error (.stranger parent)
  | some slot =>
    match slot.arity.exceeded? slot.children.length with
    | some limit => .error (.childLimit slot.name limit)
    | none => .ok (a.nextId, plant (.child parent) child a)

/-- Guards a task of the tree, once. -/
def setGuard (a : Arena E T) (task : TaskId) (guard : Blueprint T) :
    Except Fault (TaskId × Arena E T) :=
  match a.shown? task with
  | none => .error (.stranger task)
  | some slot =>
    match slot.guard with
    | some _ => .error (.secondGuard slot.name)
    | none => .ok (a.nextId, plant (.guard task) guard a)

-- ================================================================== size

omit [Behavior E T] in
theorem attachLink_size (link : Link) (id : TaskId) (a : Arena E T) :
    (attachLink link id a).slots.size = a.slots.size := by
  cases link <;> simp [attachLink, announce, modify]

mutual

/-- Planting takes one slot for every task of the blueprint. -/
theorem plant_size (link : Link) (b : Blueprint T) (a : Arena E T) :
    (plant link b a).slots.size = a.slots.size + b.count := by
  match b with
  | .node task guard children =>
    simp only [plant, Blueprint.count, plantAll_size, plantGuard_size,
      attachLink_size, occupy, Array.size_push]
    omega

theorem plantGuard_size (owner : TaskId) (guard : Option (Blueprint T))
    (a : Arena E T) :
    (plantGuard owner guard a).slots.size
      = a.slots.size + Blueprint.countGuard guard := by
  match guard with
  | none => simp [plantGuard, Blueprint.countGuard]
  | some guard => simp [plantGuard, Blueprint.countGuard, plant_size]

theorem plantAll_size (parent : TaskId) (children : List (Blueprint T))
    (a : Arena E T) :
    (plantAll parent children a).slots.size
      = a.slots.size + Blueprint.countAll children := by
  match children with
  | [] => simp [plantAll, Blueprint.countAll]
  | child :: rest =>
    simp only [plantAll, Blueprint.countAll, plantAll_size, plant_size]
    omega

end

end TaskTree.Arena
