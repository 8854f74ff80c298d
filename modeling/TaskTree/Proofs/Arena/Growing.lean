/-
What planting and resetting keep.

A blueprint is planted task by task: each is put into the next slot and
linked, and then its guard and its children are planted under it. So what
every such placement keeps, planting keeps (`plant_keeps`), and a fact
about trees that grow needs to be shown for a single task only. Where a fact
is at stake if a guard is linked in another's place, it is enough that this
does not happen (`plant_fills`). A reset goes from task to task likewise, and
keeps what the reset of a single slot keeps (`resetFrom_keeps`).
-/
import TaskTree.Proofs.Arena.History

namespace TaskTree

variable {E T : Type}

/-- All tasks of a blueprint are `ok`, those of guards included. -/
inductive Blueprint.All (ok : T → Prop) : Blueprint T → Prop where
  | node {task : T} {guard : Option (Blueprint T)}
      {children : List (Blueprint T)} (top : ok task)
      (below : ∀ g, guard = some g → All ok g)
      (beneath : ∀ c ∈ children, All ok c) :
      All ok (.node task guard children)

/-- What is true of every task is true of those of a blueprint. -/
theorem Blueprint.all_of {ok : T → Prop} (h : ∀ task, ok task)
    (b : Blueprint T) : b.All ok := by
  cases b with
  | node task guard children =>
      exact .node (h task) (fun g _ => all_of h g) fun c _ => all_of h c
termination_by sizeOf b
decreasing_by
  · subst_vars
    simp only [Blueprint.node.sizeOf_spec, Option.some.sizeOf_spec]
    omega
  · have := List.sizeOf_lt_of_mem ‹c ∈ _›
    simp only [Blueprint.node.sizeOf_spec]
    omega

/-- The task at the top of a blueprint is one of its tasks. -/
theorem Blueprint.All.top {ok : T → Prop} {b : Blueprint T} (h : b.All ok) :
    ok b.task := by
  cases h with
  | node top => exact top

namespace Arena

/-- Where the next task may be linked without taking another's place. -/
structure Link.Free (a : Arena E T) (link : Link) : Prop where
  isOpen : link.Open a
  unguarded : ∀ owner, link = .guard owner → a.guardOf owner = none

/-- A root that is open is free: it hangs on no task, so there is nothing to be
occupied. -/
theorem Link.Open.free_root {a : Arena E T} (h : Link.root.Open a) :
    Link.root.Free a :=
  ⟨h, fun _ heq => by cases heq⟩

/-- There is room for one more child beside the others. -/
theorem Link.Open.free_child {a : Arena E T} {parent : TaskId}
    (h : (Link.child parent).Open a) :
    (Link.child parent).Free a :=
  ⟨h, fun _ heq => by cases heq⟩

variable [Behavior E T] {P : Arena E T → Prop} {ok : T → Prop}

/-- Placing a task that is `ok` keeps `P`. -/
def KeptByPlacing (ok : T → Prop) (P : Arena E T → Prop) : Prop :=
  ∀ (link : Link) (task : T) (a : Arena E T), Ready a → P a →
    ok task → link.Open a →
    P (placed link task a)

/-- Placing a task that is `ok` keeps `P` where no other task has that
place. -/
def KeptByFilling (ok : T → Prop) (P : Arena E T → Prop) : Prop :=
  ∀ (link : Link) (task : T) (a : Arena E T), Ready a → P a →
    ok task → link.Free a →
    P (placed link task a)

/-- A link that is free is open, so what every placing keeps is kept by
these. -/
theorem KeptByPlacing.filling (h : KeptByPlacing ok P) : KeptByFilling ok P :=
  fun link task a hready hP htask hfree =>
    h link task a hready hP htask hfree.isOpen

/-- A task that was just placed has no guard. -/
theorem placed_guardOf_self {link : Link} {a : Arena E T} (task : T)
    (hopen : link.Open a) :
    (placed link task a).guardOf a.nextId = none := by
  obtain ⟨control, hslot⟩ := placed_slot?_self task hopen
  rw [guardOf, hslot]
  rfl

mutual

/-- What the first placement has made true, the placements below it keep. -/
theorem plant_keeps_of_placed (hplaced : KeptByFilling ok P) {link : Link}
    (b : Blueprint T) (hb : b.All ok) {a : Arena E T} (hready : Ready a)
    (hopen : link.Open a) (h : P (placed link b.task a)) :
    P (plant link b a) := by
  match b with
  | .node task guard children =>
      cases hb with
      | node top below beneath =>
          -- The task is placed first; then its guard is planted beneath it, and
          -- then its children.
          have hafter := hready.placed task hopen
          have hself : a.nextId ≠ .evaluator := hready.wired.nextId_ne
          have hlt : a.nextId.index < (placed link task a).slots.size := by
            rw [placed_size]
            exact Nat.lt_succ_self _
          have hguarded :=
            plantGuard_keeps hplaced guard below hafter h hself hlt
              (placed_guardOf_self task hopen)
          rw [plant]
          refine plantAll_keeps hplaced children beneath
            (hafter.plantGuard guard hself hlt) hguarded hself ?_
          rw [plantGuard_size]
          exact Nat.lt_of_lt_of_le hlt (Nat.le_add_right _ _)

/-- The guard is planted with its owner as the link. -/
theorem plantGuard_keeps (hplaced : KeptByFilling ok P) {owner : TaskId}
    (guard : Option (Blueprint T)) (hguard : ∀ g, guard = some g → g.All ok)
    {a : Arena E T} (hready : Ready a) (h : P a) (hne : owner ≠ .evaluator)
    (hlt : owner.index < a.slots.size) (hnone : a.guardOf owner = none) :
    P (plantGuard owner guard a) := by
  match guard with
  | none => exact h
  | some guard =>
      have hopen : (Link.guard owner).Open a := ⟨hne, hlt⟩
      have hfree : (Link.guard owner).Free a :=
        ⟨hopen, fun _ heq => Link.guard.inj heq ▸ hnone⟩
      exact plant_keeps_of_placed hplaced guard (hguard guard rfl) hready hopen
        (hplaced _ _ a hready h (hguard guard rfl).top hfree)

/-- The children are planted one by one, each with what the ones before it
left. -/
theorem plantAll_keeps (hplaced : KeptByFilling ok P) {parent : TaskId}
    (children : List (Blueprint T)) (hchildren : ∀ c ∈ children, c.All ok)
    {a : Arena E T} (hready : Ready a) (h : P a) (hne : parent ≠ .evaluator)
    (hlt : parent.index < a.slots.size) :
    P (plantAll parent children a) := by
  match children with
  | [] => exact h
  | child :: rest =>
      have hopen : (Link.child parent).Open a := ⟨hne, hlt⟩
      have hok := hchildren child List.mem_cons_self
      have hchild : P (plant (.child parent) child a) :=
        plant_keeps_of_placed hplaced child hok hready hopen
          (hplaced _ _ a hready h hok.top hopen.free_child)
      refine plantAll_keeps hplaced rest
        (fun c hc => hchildren c (List.mem_cons_of_mem _ hc))
        (hready.plant child hopen) hchild hne ?_
      rw [plant_size]
      exact Nat.lt_of_lt_of_le hlt (Nat.le_add_right _ _)

end

/-- Planting keeps what every placement of a task keeps. -/
theorem plant_keeps (hplaced : KeptByPlacing ok P) {link : Link}
    (b : Blueprint T) (hb : b.All ok) {a : Arena E T} (hready : Ready a)
    (h : P a) (hopen : link.Open a) : P (plant link b a) :=
  plant_keeps_of_placed hplaced.filling b hb hready hopen
    (hplaced link b.task a hready h hb.top hopen)

/-- Planting where there is room keeps what every placement there keeps. -/
theorem plant_fills (hplaced : KeptByFilling ok P) {link : Link}
    (b : Blueprint T) (hb : b.All ok) {a : Arena E T} (hready : Ready a)
    (h : P a) (hfree : link.Free a) : P (plant link b a) :=
  plant_keeps_of_placed hplaced b hb hready hfree.isOpen
    (hplaced link b.task a hready h hb.top hfree)

/-- A reset along the links keeps what the reset of one slot keeps. By induction
on the depth; and within a level along the children, each reset in what the ones
before it left. -/
theorem resetFrom_keeps (hreset : ∀ a id, P a → P (a.modify id Slot.reset))
    (depth : Nat) (id : TaskId) {a : Arena E T} (h : P a) :
    P (resetFrom depth id a) := by
  induction depth generalizing id a with
  | zero => exact h
  | succ depth ih =>
      have hall : ∀ (ids : List TaskId) (a : Arena E T), P a →
          P (ids.foldl (fun a child => resetFrom depth child a) a) := by
        intro ids
        induction ids with
        | nil => exact fun a h => h
        | cons id rest ihrest => exact fun a h => ihrest _ (ih id h)
      rw [resetFrom]
      refine hall _ _ ?_
      split
      · exact hreset a id h
      · exact ih _ (hreset a id h)

omit [Behavior E T] in
/-- Anchoring the root links nothing. -/
theorem sameLinks_anchorRoot (a : Arena E T) : SameLinks a a.anchorRoot := by
  rw [anchorRoot]
  split
  · exact .refl a
  · exact ⟨rfl, keeps_setControl a _ .tree fun _ _ => rfl⟩

/-- A reset keeps all links. -/
theorem sameLinks_reset (a : Arena E T) : SameLinks a a.reset := by
  rw [Arena.reset]
  split
  · exact ⟨rfl, .refl _⟩
  · rename_i root _
    have hrenewed := renewed_resetFrom a.slots.size root a
    have hanchored := sameLinks_anchorRoot (resetFrom a.slots.size root a)
    exact ⟨hanchored.root.trans hrenewed.root,
      hrenewed.links.trans hanchored.links⟩

/-- A copy has the same links. -/
theorem sameLinks_instantiate (a : Arena E T) (board : E) :
    SameLinks a (a.instantiate board) := by
  have hslots : SameLinks a { a with
      slots := a.slots.map Slot.reset
      board := board
      status := .fresh
      listeners := []
      fault := none
      journal := #[] } := by
    refine ⟨rfl, fun id => ?_⟩
    have hslot : slot? { a with
        slots := a.slots.map Slot.reset
        board := board
        status := .fresh
        listeners := []
        fault := none
        journal := #[] } id
      = (a.slot? id).map Slot.reset := Array.getElem?_map ..
    rw [hslot, Option.map_map]
    rfl
  exact hslots.trans (sameLinks_anchorRoot _)

end Arena

end TaskTree
