/-
When an arena holds a tree.

`Holds a role live` says that the slots of the arena `a` carry the tree
`live`, all of whose tasks are at rest: each is in its slot, with the name,
the status and the links that the tree gives it and with nothing in its
inbox. How often a task has reported is left open, since a turn begins by
forgetting it. Who receives the reports of a task is fixed by the task's
place, its `Role`, but the slot has to agree only while the task is
running: in any other state the receiver is written anew before the task
is called.

An arena goes on holding a tree as long as the slots of the tree's handles
stay as they are (`Holds.frame`).
-/
import TaskTree.Proofs.Direct.Shape
import TaskTree.Proofs.Arena.View

namespace TaskTree.Direct

open Live

variable {E A : Type}

-- ============================================================= the roles

/-- The place of a task in its tree, which decides who receives its
reports. -/
inductive Role where
  | root
  | child (parent : TaskId)
  | guard

/-- The receiver of a task's reports. -/
def Role.control : Role → Control
  | .root => .tree
  | .child parent => .task parent
  | .guard => .task .evaluator

-- ======================================================== trees in arenas

/-- The slot of a task at rest. -/
structure Carries (s : Slot (Stock E A)) (role : Role) (task : Stock E A)
    (stand : Status) (guardId : Option TaskId)
    (childIds : List TaskId) : Prop where
  occupant : s.occupant = some (.task task)
  name : s.name = task.name
  status : s.status = stand
  control : stand = .running → s.control = some role.control
  guard : s.guard = guardId
  children : s.children = childIds
  inbox : s.inbox = []

/-- The arena carries the tree, and all its tasks are at rest. -/
inductive Holds (a : Arena E (Stock E A)) : Role → Live E A → Prop where
  | node {role : Role} {id : TaskId} {task : Stock E A} {status : Status}
      {guard : Option (Live E A)} {children : List (Live E A)}
      {s : Slot (Stock E A)} (slot : a.slot? id = some s)
      (carries : Carries s role task status (guard.map Live.id)
        (children.map Live.id))
      (below : ∀ g, guard = some g → Holds a .guard g)
      (beneath : ∀ c ∈ children, Holds a (.child id) c) :
      Holds a role (.node id task status guard children)

/-- The guard evaluator is at rest in its slot. -/
def Idle (a : Arena E (Stock E A)) : Prop :=
  ∃ s, a.slot? .evaluator = some s ∧ s.occupant = some .evaluator ∧ s.inbox = []

/-- The idle slot is all that is asked, so an arena with the same one is
idle. -/
theorem Idle.congr {a a' : Arena E (Stock E A)} (h : Idle a)
    (hslot : a'.slot? .evaluator = a.slot? .evaluator) : Idle a' := by
  obtain ⟨s, hs, hrest⟩ := h
  exact ⟨s, hslot.trans hs, hrest⟩

/-- A tree is held by every arena that agrees on its slots. By induction over
the tree: every slot that the relation looks at is named by the tree itself. -/
theorem Holds.frame {a a' : Arena E (Stock E A)} {role : Role} {live : Live E A}
    (h : Holds a role live)
    (hslots : ∀ id ∈ live.ids, a'.slot? id = a.slot? id) :
    Holds a' role live := by
  induction live using Live.induction generalizing role with
  | step id task status guard children hguard hchildren =>
      cases h with
      | node slot carries below beneath =>
          rw [ids] at hslots
          have hself : a'.slot? id = a.slot? id := hslots id List.mem_cons_self
          refine .node (hself.trans slot) carries (fun g hg => ?_)
            (fun c hc => ?_)
          · refine hguard g hg (below g hg) fun other hother => hslots other ?_
            subst hg
            exact List.mem_cons_of_mem _ (List.mem_append_left _ hother)
          · refine hchildren c hc (beneath c hc) fun other hother =>
              hslots other ?_
            exact List.mem_cons_of_mem _
              (List.mem_append_right _ (mem_allIds.2 ⟨c, hc, hother⟩))

/-- An arena shows the statuses of the tree that it holds. -/
theorem Holds.statusOf {a : Arena E (Stock E A)} {role : Role} {live : Live E A}
    (h : Holds a role live) : a.statusOf live.id = live.status := by
  cases h with
  | node slot carries below beneath =>
      rw [Live.id, Live.status, Arena.statusOf, slot]
      exact carries.status

section

variable {a : Arena E (Stock E A)} {role : Role} {id : TaskId}
  {task : Stock E A} {status : Status} {guard : Option (Live E A)}
  {children : List (Live E A)}

/-- The slot names the children of the tree, in order. -/
theorem Holds.childrenOf
    (h : Holds a role (.node id task status guard children)) :
    a.childrenOf id = children.map Live.id := by
  cases h with
  | node slot carries below beneath =>
      rw [Arena.childrenOf, slot]
      exact carries.children

/-- The slot names the guard of the tree. -/
theorem Holds.guardOf (h : Holds a role (.node id task status guard children)) :
    a.guardOf id = guard.map Live.id := by
  cases h with
  | node slot carries below beneath =>
      rw [Arena.guardOf, slot]
      exact carries.guard

/-- The slot is occupied by the task of the tree. -/
theorem Holds.occupantOf
    (h : Holds a role (.node id task status guard children)) :
    a.occupantOf id = some (.task task) := by
  cases h with
  | node slot carries below beneath =>
      rw [Arena.occupantOf, slot]
      exact carries.occupant

end

/-- An arena shows the names of the tasks whose tree it holds. -/
theorem Holds.nameOf {a : Arena E (Stock E A)} {role : Role} {live : Live E A}
    {id : TaskId} {task : Stock E A} {stand : Status}
    {guard : Option (Live E Unit)} {children : List (Live E Unit)}
    (h : Holds a role live)
    (hskeleton : live.skeleton = .node id task.kind stand guard children) :
    a.nameOf id = task.name := by
  cases h with
  | @node _ _ task' _ _ _ _ slot carries below beneath =>
      rw [skeleton, node.injEq] at hskeleton
      obtain ⟨rfl, hkind, -⟩ := hskeleton
      rw [Arena.nameOf, slot, ← Stock.kind_name, ← hkind, Stock.kind_name]
      exact carries.name

/-- A guard, if there is one, is held by the arena. -/
def HoldsGuard (a : Arena E (Stock E A)) (guard : Option (Live E A)) : Prop :=
  ∀ g, guard = some g → Holds a .guard g

/-- The children of a task are held by the arena. -/
def HoldsAll (a : Arena E (Stock E A)) (parent : TaskId)
    (children : List (Live E A)) : Prop :=
  ∀ c ∈ children, Holds a (.child parent) c

/-- A guard is held by every arena that agrees on its slots. -/
theorem HoldsGuard.frame {a a' : Arena E (Stock E A)}
    {guard : Option (Live E A)} (h : HoldsGuard a guard)
    (hslots : ∀ id ∈ guardIds guard, a'.slot? id = a.slot? id) :
    HoldsGuard a' guard := by
  intro g hg
  subst hg
  exact (h g rfl).frame hslots

/-- A row is held by every arena that agrees on its slots. -/
theorem HoldsAll.frame {a a' : Arena E (Stock E A)} {parent : TaskId}
    {children : List (Live E A)} (h : HoldsAll a parent children)
    (hslots : ∀ id ∈ allIds children, a'.slot? id = a.slot? id) :
    HoldsAll a' parent children :=
  fun c hc => (h c hc).frame fun id hid => hslots id (mem_allIds.2 ⟨c, hc, hid⟩)

mutual

/-- An arena shows the statuses of all tasks of the tree that it holds. -/
theorem holds_statuses {a : Arena E (Stock E A)} {role : Role} (live : Live E A)
    (h : Holds a role live) :
    live.ids.map (fun id => (id, a.statusOf id)) = live.statuses := by
  match live with
  | .node self task stand guard children =>
      have hstatus := h.statusOf
      cases h with
      | node slot carries below beneath =>
          rw [ids, statuses, List.map_cons, List.map_append,
            holdsGuard_statuses guard below, holdsAll_statuses children beneath]
          rw [Live.id, Live.status] at hstatus
          rw [hstatus]

/-- The statuses of a guard are those in its slots. -/
theorem holdsGuard_statuses {a : Arena E (Stock E A)}
    (guard : Option (Live E A)) (h : HoldsGuard a guard) :
    (guardIds guard).map (fun id => (id, a.statusOf id))
      = guardStatuses guard := by
  match guard with
  | none => rfl
  | some g => rw [guardIds, guardStatuses, holds_statuses g (h g rfl)]

/-- The statuses of a row are those in its slots. -/
theorem holdsAll_statuses {a : Arena E (Stock E A)} {parent : TaskId}
    (children : List (Live E A)) (h : HoldsAll a parent children) :
    (allIds children).map (fun id => (id, a.statusOf id))
      = allStatuses children := by
  match children with
  | [] => rfl
  | c :: rest =>
      rw [allIds, allStatuses, List.map_append,
        holds_statuses c (h c List.mem_cons_self),
        holdsAll_statuses rest fun d hd => h d (List.mem_cons_of_mem _ hd)]

end

end TaskTree.Direct
