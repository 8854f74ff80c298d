/-
The slots of a planted blueprint, in their order.

A task takes the next slot, then its guard follows with all that is below
it, and then its children, each with all that is below it before the next.
So where a task comes to stand, and with it every link inside the
blueprint, is known from the sizes of what is planted before it. `rows`
writes down the slots that a blueprint takes, and `plant_rows` says that
these are the slots that it gets.

The induction has to follow two things at once, the slots behind the arena
and the one slot from which the blueprint is linked. The latter gets its
guard and its children after it was filled, from the placements below it.
-/
import TaskTree.Proofs.Arena.Pristine

namespace TaskTree.Arena

variable {E T : Type}

/-- The handles of blueprints that are planted one after another. -/
def starts (first : Nat) : List (Blueprint T) → List TaskId
  | [] => []
  | child :: rest => ⟨first⟩ :: starts (first + child.count) rest

/-- There is one start for every child. -/
theorem length_starts (first : Nat) (children : List (Blueprint T)) :
    (starts first children).length = children.length := by
  induction children generalizing first with
  | nil => rfl
  | cons child rest ih => rw [starts, List.length_cons, List.length_cons, ih]

section

variable [Behavior E T]

mutual

/-- The slots of a blueprint that is planted from the slot `first` on. -/
def rows (link : Link) (first : Nat) : Blueprint T → List (Slot T)
  | .node task guard children =>
    let behind := first + 1 + Blueprint.countGuard guard
    { Slot.of (.task task) link.parent with
      control := if link = .root then some .tree else none
      guard := guard.map fun _ => ⟨first + 1⟩
      children := starts behind children }
      :: (rowsGuard ⟨first⟩ (first + 1) guard
        ++ rowsAll ⟨first⟩ behind children)

/-- The slots of a guard. -/
def rowsGuard (owner : TaskId) (first : Nat) :
    Option (Blueprint T) → List (Slot T)
  | none => []
  | some guard => rows (.guard owner) first guard

/-- The slots of a row of children. -/
def rowsAll (parent : TaskId) (first : Nat) : List (Blueprint T) → List (Slot T)
  | [] => []
  | child :: rest =>
    rows (.child parent) first child
      ++ rowsAll parent (first + child.count) rest

end

mutual

/-- A tree takes a row for each of its tasks. -/
theorem length_rows (link : Link) (first : Nat) (b : Blueprint T) :
    (rows link first b).length = b.count := by
  match b with
  | .node task guard children =>
      rw [rows, List.length_cons, List.length_append, length_rowsGuard,
        length_rowsAll, Blueprint.count]
      omega

/-- A guard takes a row for each of its tasks. -/
theorem length_rowsGuard (owner : TaskId) (first : Nat)
    (guard : Option (Blueprint T)) :
    (rowsGuard owner first guard).length = Blueprint.countGuard guard := by
  match guard with
  | none => rfl
  | some guard => exact length_rows _ _ guard

/-- Children take a row for each of their tasks. -/
theorem length_rowsAll (parent : TaskId) (first : Nat)
    (children : List (Blueprint T)) :
    (rowsAll parent first children).length = Blueprint.countAll children := by
  match children with
  | [] => rfl
  | child :: rest =>
      rw [rowsAll, List.length_append, length_rows, length_rowsAll,
        Blueprint.countAll]

end

omit [Behavior E T] in
/-- Behind other slots the next one is not the guard evaluator's. -/
theorem nextId_ne_of_pos {a : Arena E T} {n : Nat} (h : n < a.slots.size) :
    a.nextId ≠ .evaluator := by
  intro heq
  have hindex : a.slots.size = 0 := congrArg TaskId.index heq
  omega

-- ==================================================== the slots that link

/-- An old slot, after a blueprint was linked from it or from elsewhere. -/
theorem plant_slot?_old {link : Link} (b : Blueprint T) (a : Arena E T)
    {x : TaskId} (hx : x.index < a.slots.size) :
    (plant link b a).slot? x
      = if link.from? = some x then (a.slot? x).map (link.mark a.nextId)
          else a.slot? x := by
  split
  · rename_i hfrom
    exact plant_slot?_from b a hx hfrom
  · rename_i hfrom
    exact plant_slot?_other link b a hx hfrom

/-- The slot of a task whose guard is planted. -/
theorem plantGuard_slot?_owner (guard : Option (Blueprint T)) (a : Arena E T)
    {owner : TaskId} (howner : owner.index < a.slots.size) :
    (plantGuard owner guard a).slot? owner
      = (a.slot? owner).map fun s =>
        { s with guard := (guard.map fun _ => a.nextId).or s.guard } := by
  cases guard with
  | none =>
      rw [plantGuard]
      exact Option.map_id'.symm
  | some guard =>
      exact plant_slot?_from guard a howner
        (rfl : (Link.guard owner).from? = some owner)

/-- The slot of a task whose children are planted. By induction along the
children: each one adds its own id, and the id is the size of the arena when its
turn comes. -/
theorem plantAll_slot?_parent (children : List (Blueprint T)) (a : Arena E T)
    {parent : TaskId} (hparent : parent.index < a.slots.size) :
    (plantAll parent children a).slot? parent
      = (a.slot? parent).map fun s =>
        { s with children := s.children ++ starts a.slots.size children } := by
  induction children generalizing a with
  | nil =>
      simp only [plantAll, starts, List.append_nil]
      exact Option.map_id'.symm
  | cons child rest ih =>
      have hchild :=
        plant_slot?_from child a hparent
          (rfl : (Link.child parent).from? = some parent)
      rw [plantAll, ih _ (by rw [plant_size]; omega), hchild, Option.map_map,
        plant_size]
      congr 1
      funext s
      simp only [Function.comp, Link.mark, starts, nextId, List.append_assoc,
        List.singleton_append]

-- ========================================================== the new slots

/-- A blueprint is planted by placing its top and planting the rest below. -/
theorem plant_node (link : Link) (task : T) (guard : Option (Blueprint T))
    (children : List (Blueprint T)) (a : Arena E T) :
    plant link (.node task guard children) a
      = plantAll a.nextId children
        (plantGuard a.nextId guard (placed link task a)) := by
  rw [plant]
  rfl

/-- The placed task has a slot. -/
theorem nextId_lt_placed (link : Link) (task : T) (a : Arena E T) :
    a.nextId.index < (placed link task a).slots.size := by
  rw [placed_size]
  exact Nat.lt_succ_self _

/-- The first slot of a blueprint, with its guard and its children. -/
theorem plant_slot?_first {link : Link} (task : T)
    (guard : Option (Blueprint T)) (children : List (Blueprint T))
    {a : Arena E T} (hopen : link.Open a) :
    (plant link (.node task guard children) a).slot? a.nextId
      = some { Slot.of (.task task) link.parent with
          control := if link = .root then some .tree else none
          guard := guard.map fun _ => ⟨a.slots.size + 1⟩
          children := starts (a.slots.size + 1
            + Blueprint.countGuard guard) children } := by
  have hlt := nextId_lt_placed link task a
  have hlt' : a.nextId.index
      < (plantGuard a.nextId guard (placed link task a)).slots.size := by
    rw [plantGuard_size]
    exact Nat.lt_of_lt_of_le hlt (Nat.le_add_right _ _)
  -- Only the later placing of the guard and of the children touches the slot
  -- again, and both only add links.
  obtain ⟨control, hslot⟩ := placed_slot?_self task hopen
  have hcontrol := placed_controlOf task hopen
  rw [controlOf, hslot, Option.bind_some] at hcontrol
  rw [plant_node, plantAll_slot?_parent _ _ hlt',
    plantGuard_slot?_owner _ _ hlt, hslot, ← hcontrol, plantGuard_size,
    placed_size, nextId, placed_size]
  cases guard <;> rfl

mutual

/-- A planted blueprint gets its slots behind those that were there. By
induction on the tree, together with its guard and its children. The rows come
in the order of planting: the task, the guard, the children. -/
theorem plant_rows {link : Link} (b : Blueprint T) {a : Arena E T}
    (hsome : a.nextId ≠ .evaluator) (hopen : link.Open a) (i : Nat) :
    (plant link b a).slot? ⟨a.slots.size + i⟩
      = (rows link a.slots.size b)[i]? := by
  match b with
  | .node task guard children =>
      cases i with
      | zero =>
          rw [rows, List.getElem?_cons_zero]
          exact plant_slot?_first task guard children hopen
      | succ i =>
          have hlt := nextId_lt_placed link task a
          have hplaced : (placed link task a).slots.size = a.slots.size + 1 :=
            placed_size
          obtain ⟨guarded, hguarded⟩ : ∃ guarded,
            guarded = plantGuard a.nextId guard (placed link task a) := ⟨_, rfl⟩
          have hsize : guarded.slots.size
              = a.slots.size + 1 + Blueprint.countGuard guard := by
            rw [hguarded, plantGuard_size, hplaced]
          have hhandle : (⟨a.slots.size + (i + 1)⟩ : TaskId)
              = ⟨a.slots.size + 1 + i⟩ :=
            congrArg TaskId.mk (Nat.add_right_comm a.slots.size i 1)
          rw [rows, List.getElem?_cons_succ, plant_node, ← hguarded, hhandle]
          by_cases hi : i < Blueprint.countGuard guard
          · -- A slot of the guard, which the children leave alone.
            have hne : (⟨a.slots.size + 1 + i⟩ : TaskId) ≠ a.nextId := by
              intro heq
              have hindex : a.slots.size + 1 + i = a.slots.size :=
                congrArg TaskId.index heq
              omega
            rw [plantAll_slot?_other _ _ _
                (by rw [hsize]; exact Nat.add_lt_add_left hi _) hne,
              hguarded, ← hplaced, plantGuard_rows guard hsome hlt,
              List.getElem?_append_left (by rw [length_rowsGuard]; exact hi),
              hplaced]
            rfl
          -- A slot of the children, which follow the guard.
          · have hchild : (⟨a.slots.size + 1 + i⟩ : TaskId)
                = ⟨guarded.slots.size + (i - Blueprint.countGuard guard)⟩ := by
              congr 1
              omega
            have hlt' : a.nextId.index < guarded.slots.size := by
              rw [hguarded, plantGuard_size]
              exact Nat.lt_of_lt_of_le hlt (Nat.le_add_right _ _)
            rw [hchild, plantAll_rows children hsome hlt',
              List.getElem?_append_right (by rw [length_rowsGuard]; omega),
              length_rowsGuard, hsize]
            rfl

/-- The rows of a guard are those of the tree in it. -/
theorem plantGuard_rows {owner : TaskId} (guard : Option (Blueprint T))
    {a : Arena E T} (hne : owner ≠ .evaluator)
    (howner : owner.index < a.slots.size) (i : Nat) :
    (plantGuard owner guard a).slot? ⟨a.slots.size + i⟩
      = (rowsGuard owner a.slots.size guard)[i]? := by
  match guard with
  | none => exact Array.getElem?_eq_none (Nat.le_add_right _ _)
  | some guard =>
      have hopen : (Link.guard owner).Open a := ⟨hne, howner⟩
      exact plant_rows guard (nextId_ne_of_pos howner) hopen i

/-- The rows of the children are those of the trees, one after the other. -/
theorem plantAll_rows {parent : TaskId} (children : List (Blueprint T))
    {a : Arena E T} (hne : parent ≠ .evaluator)
    (hparent : parent.index < a.slots.size) (i : Nat) :
    (plantAll parent children a).slot? ⟨a.slots.size + i⟩
      = (rowsAll parent a.slots.size children)[i]? := by
  match children with
  | [] => exact Array.getElem?_eq_none (Nat.le_add_right _ _)
  | child :: rest =>
      have hsize := plant_size (.child parent) child a
      have hopen : (Link.child parent).Open a := ⟨hne, hparent⟩
      rw [plantAll, rowsAll]
      by_cases hi : i < child.count
      · -- A slot of the first child, which the others leave alone.
        have hold : (⟨a.slots.size + i⟩ : TaskId) ≠ parent := by
          rintro rfl
          exact absurd hparent (Nat.not_lt.2 (Nat.le_add_right _ _))
        rw [plantAll_slot?_other _ _ _
            (by rw [hsize]; exact Nat.add_lt_add_left hi _) hold,
          plant_rows child (nextId_ne_of_pos hparent) hopen,
          List.getElem?_append_left (by rw [length_rows]; exact hi)]
      · have hhandle : (⟨a.slots.size + i⟩ : TaskId)
            = ⟨(plant (.child parent) child a).slots.size
              + (i - child.count)⟩ := by
          congr 1
          omega
        rw [hhandle, plantAll_rows rest hne (by rw [hsize]; omega),
          List.getElem?_append_right (by rw [length_rows]; omega), length_rows,
          hsize]

end

end

end TaskTree.Arena
