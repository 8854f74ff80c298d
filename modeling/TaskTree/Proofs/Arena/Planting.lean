/-
What planting a blueprint does to the rest of an arena.

Planting puts the tasks of a blueprint into the next free slots. Of the old
slots it writes to one at most, that of the task from which the blueprint
is linked (`plant_slot?_from`, `plant_slot?_other`), and besides the slots
it changes nothing (`Grown`). A subtree that has been planted so stays as
it is while its siblings are planted after it.
-/
import TaskTree.Arena.Growth
import TaskTree.Proofs.Arena.View

namespace TaskTree

namespace Arena

variable {E T : Type}

/-- The task from which a planted blueprint is linked. -/
def Link.from? : Link → Option TaskId
  | .root => none
  | .child parent => some parent
  | .guard owner => some owner

/-- What is written to the slot from which the task `id` is linked. -/
def Link.mark (id : TaskId) : Link → Slot T → Slot T
  | .root, s => s
  | .child _, s => { s with children := s.children ++ [id] }
  | .guard _, s => { s with guard := some id }

/-- Attaching marks the one slot that the link leads from, if there is one. Each
link touches one other slot at most: the root's none, a child's the slot of its
parent, a guard's the slot of its owner. -/
theorem attachLink_slot? (link : Link) (id : TaskId) (a : Arena E T)
    {x : TaskId} (hx : x ≠ id) :
    (attachLink link id a).slot? x
      = if link.from? = some x then (a.slot? x).map (link.mark id)
          else a.slot? x := by
  cases link with
  | root =>
      rw [attachLink, slot?_announce, slot?_modify, if_neg hx]
      rfl
  | child parent =>
      rw [attachLink, slot?_announce, slot?_modify, Link.from?]
      by_cases heq : x = parent
      · rw [if_pos heq, if_pos (congrArg some heq.symm), heq]
        rfl
      · rw [if_neg heq, if_neg fun h => heq (Option.some.inj h).symm]
  | guard owner =>
      rw [attachLink, slot?_modify, Link.from?]
      by_cases heq : x = owner
      · rw [if_pos heq, if_pos (congrArg some heq.symm), heq]
        rfl
      · rw [if_neg heq, if_neg fun h => heq (Option.some.inj h).symm]

variable [Behavior E T]

/-- A new slot leaves the old ones alone. -/
theorem occupy_slot? (a : Arena E T) (task : T) (parent : Option TaskId)
    {x : TaskId} (hx : x.index < a.slots.size) :
    (a.occupy task parent).slot? x = a.slot? x := by
  unfold slot? occupy
  rw [Array.getElem?_push_lt hx, Array.getElem?_eq_getElem hx]

/-- The new slot is where the next number says. -/
theorem occupy_slot?_nextId (a : Arena E T) (task : T)
    (parent : Option TaskId) :
    (a.occupy task parent).slot? a.nextId
      = some (Slot.of (.task task) parent) := by
  unfold slot? occupy nextId
  exact Array.getElem?_push_size

omit [Behavior E T] in
/-- A slot that is there is not the next one. -/
theorem ne_nextId {a : Arena E T} {x : TaskId} (hx : x.index < a.slots.size) :
    x ≠ a.nextId := by
  intro heq
  rw [heq] at hx
  exact Nat.lt_irrefl _ hx

mutual

/-- Planting writes to no old slot but the one that it is linked from. The plant
grows at the end of the arena, and is attached to nothing but what its link
names; so no other slot that is there is touched on the way. -/
theorem plant_slot?_other (link : Link) (b : Blueprint T) (a : Arena E T)
    {x : TaskId} (hx : x.index < a.slots.size) (hfrom : link.from? ≠ some x) :
    (plant link b a).slot? x = a.slot? x := by
  match b with
  | .node task guard children =>
      have hne := ne_nextId hx
      have hplaced : x.index
          < (attachLink link a.nextId
            (a.occupy task link.parent)).slots.size := by
        rw [attachLink_size, occupy, Array.size_push]
        omega
      rw [plant,
        plantAll_slot?_other _ _ _ (by rw [plantGuard_size]; omega) hne,
        plantGuard_slot?_other _ _ _ hplaced hne, attachLink_slot? _ _ _ hne,
        if_neg hfrom, occupy_slot? _ _ _ hx]

/-- The same for a guard, attached to its owner. -/
theorem plantGuard_slot?_other (owner : TaskId) (guard : Option (Blueprint T))
    (a : Arena E T) {x : TaskId} (hx : x.index < a.slots.size)
    (hne : x ≠ owner) :
    (plantGuard owner guard a).slot? x = a.slot? x := by
  match guard with
  | none => rw [plantGuard]
  | some guard =>
      rw [plantGuard,
        plant_slot?_other (.guard owner) _ _ hx fun h =>
          hne (Option.some.inj h).symm]

/-- The same for children, all attached to one parent. -/
theorem plantAll_slot?_other (parent : TaskId) (children : List (Blueprint T))
    (a : Arena E T) {x : TaskId} (hx : x.index < a.slots.size)
    (hne : x ≠ parent) :
    (plantAll parent children a).slot? x = a.slot? x := by
  match children with
  | [] => rw [plantAll]
  | child :: rest =>
      rw [plantAll, plantAll_slot?_other _ _ _ (by rw [plant_size]; omega) hne,
        plant_slot?_other (.child parent) _ _ hx fun h =>
          hne (Option.some.inj h).symm]

end

/-- The slot from which a planted blueprint is linked. -/
theorem plant_slot?_from {link : Link} (b : Blueprint T) (a : Arena E T)
    {x : TaskId} (hx : x.index < a.slots.size) (hfrom : link.from? = some x) :
    (plant link b a).slot? x = (a.slot? x).map (link.mark a.nextId) := by
  cases b with
  | node task guard children =>
      -- The mark is made when the root of the plant is attached; guard and
      -- children, planted after it, touch no earlier slot.
      have hne := ne_nextId hx
      have hplaced : x.index
          < (attachLink link a.nextId
            (a.occupy task link.parent)).slots.size := by
        rw [attachLink_size, occupy, Array.size_push]
        omega
      rw [plant,
        plantAll_slot?_other _ _ _ (by rw [plantGuard_size]; omega) hne,
        plantGuard_slot?_other _ _ _ hplaced hne, attachLink_slot? _ _ _ hne,
        if_pos hfrom, occupy_slot? _ _ _ hx]

-- ====================================================== the rest of it

/-- Planting below the root is told to nobody while there are no listeners,
and leaves everything but the slots alone. -/
structure Grown (a a' : Arena E T) : Prop where
  root : a'.root = a.root
  board : a'.board = a.board
  dice : a'.dice = a.dice
  rolled : a'.rolled = a.rolled
  fault : a'.fault = a.fault
  listeners : a'.listeners = a.listeners
  told : a.listeners = [] → a'.told = a.told

omit [Behavior E T] in
/-- Growing goes on. -/
theorem Grown.trans {a a₁ a₂ : Arena E T} (h : Grown a a₁) (h' : Grown a₁ a₂) :
    Grown a a₂ where
  root := h'.root.trans h.root
  board := h'.board.trans h.board
  dice := h'.dice.trans h.dice
  rolled := h'.rolled.trans h.rolled
  fault := h'.fault.trans h.fault
  listeners := h'.listeners.trans h.listeners
  told hnone := (h'.told (h.listeners.trans hnone)).trans (h.told hnone)

omit [Behavior E T] in
/-- Attaching lets an arena grow, unless it sets the root. -/
theorem attachLink_grown {link : Link} (hlink : link ≠ .root) (id : TaskId)
    (a : Arena E T) :
    Grown a (attachLink link id a) := by
  cases link with
  | root => exact absurd rfl hlink
  | guard owner => exact ⟨rfl, rfl, rfl, rfl, rfl, rfl, fun _ => rfl⟩
  | child parent =>
      refine ⟨rfl, rfl, rfl, rfl, rfl, rfl, fun hnone => ?_⟩
      rw [attachLink]
      simp only [told_announce, modify, hnone, List.map_nil, List.append_nil]
      rfl

/-- A new slot lets an arena grow. -/
theorem occupy_grown (a : Arena E T) (task : T) (parent : Option TaskId) :
    Grown a (a.occupy task parent) :=
  ⟨rfl, rfl, rfl, rfl, rfl, rfl, fun _ => rfl⟩

mutual

/-- Planting lets an arena grow: a new slot, an attachment, then the guard and
the children in the same way. -/
theorem plant_grown (link : Link) (hlink : link ≠ .root) (b : Blueprint T)
    (a : Arena E T) :
    Grown a (plant link b a) := by
  match b with
  | .node task guard children =>
      rw [plant]
      exact (((occupy_grown a task link.parent).trans
          (attachLink_grown hlink _ _)).trans
        (plantGuard_grown _ guard _)).trans (plantAll_grown _ children _)

/-- A guard lets its arena grow. -/
theorem plantGuard_grown (owner : TaskId) (guard : Option (Blueprint T))
    (a : Arena E T) :
    Grown a (plantGuard owner guard a) := by
  match guard with
  | none => exact ⟨rfl, rfl, rfl, rfl, rfl, rfl, fun _ => rfl⟩
  | some guard => exact plant_grown (.guard owner) (fun h => nomatch h) guard a

/-- So do children, one after another. -/
theorem plantAll_grown (parent : TaskId) (children : List (Blueprint T))
    (a : Arena E T) :
    Grown a (plantAll parent children a) := by
  match children with
  | [] => exact ⟨rfl, rfl, rfl, rfl, rfl, rfl, fun _ => rfl⟩
  | child :: rest =>
      exact (plant_grown (.child parent) (fun h => nomatch h) child a).trans
        (plantAll_grown parent rest _)

end

/-- A planted root is the root of the arena. -/
theorem plant_root_grown (b : Blueprint T) (a : Arena E T) :
    Grown { a with root := some a.nextId } (plant .root b a) := by
  cases b with
  | node task guard children =>
      have hplaced : Grown { a with root := some a.nextId }
          (attachLink .root a.nextId (a.occupy task Link.root.parent)) := by
        -- Only the root's own announcement needs listeners. With none of them
        -- nobody is told.
        refine ⟨rfl, rfl, rfl, rfl, rfl, rfl, fun hnone => ?_⟩
        have hnone' : (a.occupy task Link.root.parent).listeners = [] := hnone
        rw [attachLink]
        simp only [told_announce, modify, hnone', List.map_nil, List.append_nil]
        rfl
      rw [plant]
      exact (hplaced.trans (plantGuard_grown _ guard _)).trans
        (plantAll_grown _ children _)

end Arena

end TaskTree
