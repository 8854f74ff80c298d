/-
Beginning anew: a reset of the same tree, or an independent copy of it.

Both make every task fresh and forget what the tasks remember of their
runs; names, links and parameters stay. A reset follows the links from
the root, and since every link goes to a later slot, no path is longer
than the number of slots. A copy is taken slot by slot.
-/
import TaskTree.Arena.Basic

namespace TaskTree

variable {E T : Type} [Behavior E T]

/-- A slot whose task has not run, with its links. -/
def Slot.reset (s : Slot T) : Slot T :=
  { s with
    occupant := s.occupant.map Behavior.rewind
    status := .fresh
    control := none
    inbox := []
    reports := 0 }

namespace Arena

/-- Resets a task, its guard and its children, following at most `depth`
links. -/
def resetFrom (depth : Nat) (id : TaskId) (a : Arena E T) : Arena E T :=
  match depth with
  | 0 => a
  | depth + 1 =>
    let a := a.modify id Slot.reset
    let a :=
      match a.guardOf id with
      | none => a
      | some guard => resetFrom depth guard a
    (a.childrenOf id).foldl (fun a child => resetFrom depth child a) a

/-- Makes the tree the receiver of its root's reports. -/
def anchorRoot (a : Arena E T) : Arena E T :=
  match a.root with
  | none => a
  | some root => a.modify root fun s => { s with control := some .tree }

/-- Makes every task fresh. -/
def reset (a : Arena E T) : Arena E T :=
  let a :=
    match a.root with
    | none => a
    | some root => (resetFrom a.slots.size root a).anchorRoot
  { a with status := .fresh, fault := none }

/-- An independent copy of the tree over another board. It has the same
handles, fresh tasks and no listeners. -/
def instantiate (a : Arena E T) (board : E) : Arena E T :=
  { a with
    slots := a.slots.map Slot.reset
    board := board
    status := .fresh
    listeners := []
    fault := none
    journal := #[] }.anchorRoot

end Arena

end TaskTree
