/-
Trees that were built and have not run, and the way back to them.

A tree that was put together from fresh blueprints is `Untouched`: no task
has anything to remember, and the tree receives the reports of its root.
`Slot.reset` makes any slot fresh, and it makes two slots the same if the
same task was planted in them. So the way back to an untouched tree is to
reset every slot and to anchor the root (`Untouched.anchored`).

A copy resets slot by slot. A reset of the tree itself follows the links
from the root, and for it there is a bound to respect: it reaches every
task to which a way with fewer links than its depth leads
(`resetFrom_reaches`).
-/
import Mathlib.Logic.Function.Iterate
import TaskTree.Proofs.Arena.Growing

namespace TaskTree

variable {E T : Type} [Behavior E T]

/-- A slot whose task is in it and has not run. -/
structure Slot.Unused (s : Slot T) : Prop where
  occupant : ∃ occupant,
    s.occupant = some occupant ∧ Behavior.rewind occupant = occupant
  status : s.status = .fresh
  inbox : s.inbox = []
  reports : s.reports = 0

/-- A reset does nothing to an unused slot but to forget who receives the
reports. -/
theorem Slot.Unused.reset_eq {s : Slot T} (h : s.Unused) :
    s.reset = { s with control := none } := by
  obtain ⟨⟨occupant, hoccupant, hrewind⟩, hstatus, hinbox, hreports⟩ := h
  obtain ⟨_, _, _, _, _, _, _, _, _, _⟩ := s
  cases hoccupant
  cases hstatus
  cases hinbox
  cases hreports
  rw [Slot.reset, Option.map_some, hrewind]

/-- Slots with the same links and with tasks that are the same when rewound
are the same when reset. -/
theorem Slot.reset_congr {s s' : Slot T} (hlinks : s'.links = s.links)
    (hoccupant : s'.occupant.map Behavior.rewind
      = s.occupant.map Behavior.rewind) :
    s'.reset = s.reset := by
  obtain ⟨_, _, _, _, _, _, _, _, _, _⟩ := s
  obtain ⟨_, _, _, _, _, _, _, _, _, _⟩ := s'
  cases hlinks
  rw [Slot.reset, Slot.reset, hoccupant]

namespace Arena

-- ======================================================== untouched trees

/-- No task of the tree has run, and its root reports to the tree. -/
structure Untouched (a : Arena E T) : Prop where
  slots : ∀ id s, a.slot? id = some s → s.Unused
  control : ∀ id s, a.slot? id = some s →
    s.control = if a.root = some id then some .tree else none
  status : a.status = .fresh
  fault : a.fault = none

/-- The same tree, whatever its board and whoever listens. -/
structure SameTree (a a' : Arena E T) : Prop where
  slots : a'.slots = a.slots
  root : a'.root = a.root
  status : a'.status = a.status
  fault : a'.fault = a.fault

omit [Behavior E T] in
/-- The same slots are found under the same ids. -/
theorem SameTree.slot? {a a' : Arena E T} (h : SameTree a a') (id : TaskId) :
    a'.slot? id = a.slot? id := by
  rw [Arena.slot?, Arena.slot?, h.slots]

omit [Behavior E T] in
/-- The same tree is so both ways. -/
theorem SameTree.symm {a a' : Arena E T} (h : SameTree a a') : SameTree a' a :=
  ⟨h.slots.symm, h.root.symm, h.status.symm, h.fault.symm⟩

omit [Behavior E T] in
/-- The same tree is so along a chain. -/
theorem SameTree.trans {a a₁ a' : Arena E T} (h : SameTree a a₁)
    (h' : SameTree a₁ a') :
    SameTree a a' :=
  ⟨h'.slots.trans h.slots, h'.root.trans h.root, h'.status.trans h.status,
    h'.fault.trans h.fault⟩

omit [Behavior E T] in
/-- Arenas whose handles read the same have the same slots. -/
theorem slots_ext {a a' : Arena E T} (h : ∀ id, a'.slot? id = a.slot? id) :
    a'.slots = a.slots :=
  Array.ext_getElem? fun i => h ⟨i⟩

/-- The trees that are put together from fresh blueprints. -/
inductive Built : Arena E T → Prop where
  | empty (board : E) (dice : Nat → Nat) : Built (Arena.empty board dice)
  | setRoot {a a' : Arena E T} {root : Blueprint T} {id : TaskId}
      (before : Built a) (fresh : root.renewed = root)
      (grown : a.setRoot root = .ok (id, a')) : Built a'
  | attach {a a' : Arena E T} {parent id : TaskId} {child : Blueprint T}
      (before : Built a) (fresh : child.renewed = child)
      (grown : a.attach parent child = .ok (id, a')) : Built a'
  | setGuard {a a' : Arena E T} {owner id : TaskId} {guard : Blueprint T}
      (before : Built a) (fresh : guard.renewed = guard)
      (grown : a.setGuard owner guard = .ok (id, a')) : Built a'
  | outside {a : Arena E T} (before : Built a) (board : E)
      (listeners : List Listener) (journal : Array Entry) :
      Built { a with board, listeners, journal }

variable {a a' a₀ : Arena E T}

/-- A construction is a history without an aborted step. -/
theorem Built.history (h : Built a) : History true a := by
  induction h with
  | empty board dice => exact .empty board dice
  | setRoot _ _ grown ih => exact .setRoot ih grown
  | attach _ _ grown ih => exact .attach ih grown
  | setGuard _ _ grown ih => exact .setGuard ih grown
  | outside _ board listeners journal ih =>
      exact .outside ih board listeners journal

mutual

/-- The tasks of a fresh blueprint have nothing to forget. -/
theorem all_of_renewed (b : Blueprint T) (h : b.renewed = b) :
    b.All fun task => Behavior.rewind task = task := by
  match b with
  | .node task guard children =>
      rw [Blueprint.renewed, Blueprint.node.injEq] at h
      exact .node h.1 (allGuard_of_renewed guard h.2.1)
        (allAll_of_renewed children h.2.2)

/-- A guard that renewal leaves alone holds fresh tasks only. -/
theorem allGuard_of_renewed (guard : Option (Blueprint T))
    (h : Blueprint.renewedGuard guard = guard) :
    ∀ g, guard = some g → g.All fun task => Behavior.rewind task = task := by
  intro g hg
  match guard with
  | none => cases hg
  | some guard =>
      obtain rfl := Option.some.inj hg
      exact all_of_renewed guard (Option.some.inj h)

/-- A row that renewal leaves alone holds fresh tasks only. -/
theorem allAll_of_renewed (children : List (Blueprint T))
    (h : Blueprint.renewedAll children = children) :
    ∀ c ∈ children, c.All fun task => Behavior.rewind task = task := by
  match children with
  | [] => exact fun c hc => nomatch hc
  | child :: rest =>
      obtain ⟨hchild, hrest⟩ := List.cons.inj h
      intro c hc
      rcases List.mem_cons.1 hc with heq | hc
      · rw [heq]
        exact all_of_renewed child hchild
      · exact allAll_of_renewed rest hrest c hc

end

/-- The tree receives the reports of a new task if it is the root. -/
-- The place decides: only the slot of the root answers to the tree.
theorem placed_controlOf {link : Link} (task : T) (hopen : link.Open a) :
    (placed link task a).controlOf a.nextId
      = if link = .root then some .tree else none := by
  have hslot := occupy_slot?_nextId a task link.parent
  cases link with
  | root =>
      have hrooted :
          { a.occupy task Link.root.parent with root := some a.nextId }.slot?
            a.nextId
          = some (Slot.of (.task task) Link.root.parent) := hslot
      rw [controlOf, placed, attachLink, slot?_announce, slot?_modify,
        if_pos rfl, if_pos rfl, hrooted]
      rfl
  | child parent =>
      have hne : a.nextId ≠ parent :=
        fun h => hopen.from_ne (congrArg some h.symm)
      rw [controlOf, placed, attachLink, slot?_announce, slot?_modify,
        if_neg hne, hslot]
      rfl
  | guard owner =>
      have hne : a.nextId ≠ owner :=
        fun h => hopen.from_ne (congrArg some h.symm)
      rw [controlOf, placed, attachLink, slot?_modify, if_neg hne, hslot]
      rfl

/-- A fresh task is put into an untouched tree. A task is placed in a slot of
its own. The slot of its parent or owner gains a link, which none of the four
conditions speaks of. -/
theorem untouched_placed :
    KeptByPlacing (E := E) (fun task : T => Behavior.rewind task = task)
      Untouched := by
  intro link task a hready h htask hopen
  have hnext : a.root ≠ some a.nextId := by
    intro hroot
    obtain ⟨-, s, hs, -⟩ := hready.wired.root _ hroot
    exact nomatch slot?_nextId.symm.trans hs
  -- An older task is the root now exactly if it was before: a root is placed
  -- only where there is none.
  have hroot : ∀ x, x ≠ a.nextId →
      ((placed link task a).root = some x ↔ a.root = some x) := by
    intro x hx
    rw [placed_root]
    split
    · rename_i hlink
      subst hlink
      have hnone : a.root = none := hopen
      rw [hnone]
      exact ⟨fun heq => absurd (Option.some.inj heq).symm hx,
        fun heq => nomatch heq⟩
    · exact Iff.rfl
  -- The slots: the new one is fresh, the marked one keeps all but its links,
  -- and the others are the same.
  refine ⟨fun x s hs => ?_, fun x s hs => ?_, ?_, ?_⟩
  · rcases placed_cases task hopen x with ⟨rfl, control, hslot⟩ |
      ⟨-, -, s₀, hs₀, hslot⟩ | ⟨-, -, hslot⟩
    · cases hslot.symm.trans hs
      exact ⟨⟨_, rfl, congrArg Occupant.task htask⟩, rfl, rfl, rfl⟩
    · obtain ⟨guard, children, hmark⟩ := link.mark_eq a.nextId s₀
      rw [hmark] at hslot
      cases hslot.symm.trans hs
      obtain ⟨hoccupant, hstatus, hinbox, hreports⟩ := h.slots x s₀ hs₀
      exact ⟨hoccupant, hstatus, hinbox, hreports⟩
    · exact h.slots x s (hslot.symm.trans hs)
  -- The control: the new task's is told by the place, an older one's has not
  -- changed.
  · by_cases hx : x = a.nextId
    · subst hx
      have hcontrol := placed_controlOf task hopen
      rw [controlOf, hs, Option.bind_some] at hcontrol
      rw [hcontrol, placed_root]
      by_cases hlink : link = .root
      · rw [if_pos hlink, if_pos hlink, if_pos rfl]
      · rw [if_neg hlink, if_neg hlink, if_neg hnext]
    · have hcontrol := (placed_old task hopen hx).2.2
      rw [controlOf, hs, Option.bind_some] at hcontrol
      simp only [hroot x hx]
      rw [hcontrol, controlOf]
      rcases placed_cases task hopen x with ⟨heq, -⟩ | ⟨-, -, s₀, hs₀, -⟩ |
          ⟨-, -, hslot⟩
      · exact absurd heq hx
      · rw [hs₀, Option.bind_some, h.control x s₀ hs₀]
      · rw [← hslot, hs, Option.bind_some, h.control x s (hslot.symm.trans hs)]
  · cases link <;> exact h.status
  · cases link <;> exact h.fault

/-- Before anything is planted only the evaluator is there. -/
theorem untouched_empty (board : E) (dice : Nat → Nat) :
    Untouched (Arena.empty board dice : Arena E T) := by
  have hslot : ∀ id s, (Arena.empty board dice : Arena E T).slot? id = some s →
      s = Slot.of .evaluator none := by
    intro id s hs
    rw [slot?_empty] at hs
    split at hs
    · exact (Option.some.inj hs).symm
    · cases hs
  refine ⟨fun id s hs => ?_, fun id s hs => ?_, rfl, rfl⟩
  · rw [hslot id s hs]
    exact ⟨⟨.evaluator, rfl, rfl⟩, rfl, rfl, rfl⟩
  · rw [hslot id s hs]
    rfl

/-- A tree that was put together from fresh blueprints is untouched. By
induction over the construction: three ways to plant, each of which places its
tasks one at a time. -/
theorem Built.untouched (h : Built a) : Untouched a := by
  induction h with
  | empty board dice => exact untouched_empty board dice
  | setRoot before fresh grown ih =>
      obtain ⟨hopen, rfl⟩ := setRoot_eq_ok grown
      exact plant_keeps untouched_placed _ (all_of_renewed _ fresh)
        before.history.ready ih hopen
  | attach before fresh grown ih =>
      obtain ⟨hopen, rfl, -⟩ := attach_eq_ok grown
      exact plant_keeps untouched_placed _ (all_of_renewed _ fresh)
        before.history.ready ih hopen
  | setGuard before fresh grown ih =>
      obtain ⟨hopen, rfl, -⟩ := setGuard_eq_ok grown
      exact plant_keeps untouched_placed _ (all_of_renewed _ fresh)
        before.history.ready ih hopen
  | outside _ board listeners journal ih =>
      exact ⟨ih.slots, ih.control, ih.status, ih.fault⟩

/-- In an untouched tree there is nothing to reset about the guard
evaluator. -/
theorem Untouched.evaluator (h : Untouched a) (hwired : Wired a) :
    (a.slot? .evaluator).map Slot.reset = a.slot? .evaluator := by
  obtain ⟨s, hs, -⟩ := hwired.evaluator
  have hroot : a.root ≠ some .evaluator :=
    fun hroot => (hwired.root _ hroot).1 rfl
  have hcontrol := h.control _ s hs
  rw [if_neg hroot] at hcontrol
  rw [hs, Option.map_some, (h.slots _ s hs).reset_eq, ← hcontrol]

omit [Behavior E T] in
/-- Anchoring leaves the root where it is. -/
theorem anchorRoot_root (a : Arena E T) : a.anchorRoot.root = a.root := by
  rw [anchorRoot]
  split <;> rfl

omit [Behavior E T] in
/-- Anchoring changes neither the status of the tree nor its fault. -/
theorem anchorRoot_status (a : Arena E T) :
    a.anchorRoot.status = a.status ∧ a.anchorRoot.fault = a.fault := by
  rw [anchorRoot]
  split <;> exact ⟨rfl, rfl⟩

omit [Behavior E T] in
/-- Anchoring changes the slot of the root only. -/
theorem anchorRoot_slot?_of_ne {id : TaskId} (h : a.root ≠ some id) :
    a.anchorRoot.slot? id = a.slot? id := by
  rw [anchorRoot]
  split
  · rfl
  · rename_i root hroot
    rw [slot?_modify,
      if_neg fun heq => h (hroot.trans (congrArg some heq.symm))]

/-- The slots of an untouched tree are the reset ones, with the root
anchored. -/
theorem Untouched.anchored (h : Untouched a₀) (hroot : a.root = a₀.root)
    (hslots : ∀ id, a.slot? id = (a₀.slot? id).map Slot.reset) (id : TaskId) :
    a.anchorRoot.slot? id = a₀.slot? id := by
  -- A slot of the untouched tree is its own reset, once its control is written
  -- back.
  have hself : ∀ s, a₀.slot? id = some s →
      { s.reset with control := if a₀.root = some id then some .tree else none }
        = s := by
    intro s hs
    rw [(h.slots id s hs).reset_eq, ← h.control id s hs]
  have hid := hslots id
  cases hslot : a₀.slot? id with
  | none =>
      rw [hslot, Option.map_none] at hid
      rw [anchorRoot]
      split
      · exact hid
      · rw [slot?_modify]
        split
        · rename_i heq
          rw [← heq, hid, Option.map_none]
        · exact hid
  | some s =>
      rw [hslot, Option.map_some] at hid
      rw [← hself s hslot, ← hroot, anchorRoot]
      split
      -- There is no root to anchor, so no slot had a control.
      · rename_i hnone
        rw [hid, hnone, if_neg (Option.some_ne_none id).symm]
        rfl
      -- The root gets back the control that the reset took from it; the others
      -- had none.
      · rename_i root hsome
        rw [slot?_modify, hsome]
        by_cases heq : id = root
        · rw [if_pos heq, if_pos (congrArg some heq.symm), ← heq, hid]
          rfl
        · rw [if_neg heq, if_neg fun h => heq (Option.some.inj h).symm, hid]
          rfl

/-- A copy is made by resetting every slot and anchoring the root. -/
theorem instantiate_slots (a : Arena E T) (board : E) :
    ∃ b :
    Arena E T, (∀ id, b.slot? id = (a.slot? id).map Slot.reset)
      ∧ b.root = a.root
      ∧ b.status = .fresh ∧ b.fault = none
      ∧ a.instantiate board = b.anchorRoot := by
  refine ⟨{ a with
    slots := a.slots.map Slot.reset
    board := board
    status := .fresh
    listeners := []
    fault := none
    journal := #[] }, fun _ => ?_, rfl, rfl, rfl, rfl⟩
  exact Array.getElem?_map ..

-- ============================================================= the reset

/-- A way along the links from one task to another, with the number of its
links. -/
inductive Way (a : Arena E T) : TaskId → Nat → TaskId → Prop where
  | here (x : TaskId) : Way a x 0 x
  | child {x y z : TaskId} {n : Nat} (link : y ∈ a.childrenOf x)
      (rest : Way a y n z) :
      Way a x (n + 1) z
  | guard {x y z : TaskId} {n : Nat} (link : a.guardOf x = some y)
      (rest : Way a y n z) :
      Way a x (n + 1) z

omit [Behavior E T] in
/-- A way is a matter of the links. -/
theorem Way.congr (hlinks : SameLinks a a') {x z : TaskId} {n : Nat}
    (h : Way a x n z) :
    Way a' x n z := by
  induction h with
  | here x => exact .here x
  | child link _ ih => exact .child (by rwa [hlinks.childrenOf]) ih
  | guard link _ ih => exact .guard ((hlinks.guardOf _).trans link) ih

/-- Some slots have been reset, any number of times, and the others are as
they were. -/
structure Cleared (a a' : Arena E T) : Prop where
  root : a'.root = a.root
  slots : ∀ id, ∃ n, a'.slot? id = (a.slot? id).map Slot.reset^[n]

/-- A task has been reset since `a`. -/
def Fresh (a a' : Arena E T) (id : TaskId) : Prop :=
  ∃ n, a'.slot? id = (a.slot? id).map Slot.reset^[n + 1]

/-- No reset at all. -/
theorem map_iterate_zero {α : Type} (f : α → α) (s : Option α) :
    s.map f^[0] = s := Option.map_id_apply

/-- Resets after resets are more resets. -/
theorem map_iterate_map_iterate {α : Type} (f : α → α) (m n : Nat)
    (s : Option α) :
    (s.map f^[n]).map f^[m] = s.map f^[m + n] := by
  rw [Option.map_map, ← Function.iterate_add]

/-- Nothing is cleared by doing nothing. -/
theorem Cleared.refl (a : Arena E T) : Cleared a a :=
  ⟨rfl, fun _ => ⟨0, (map_iterate_zero ..).symm⟩⟩

/-- Clearing after clearing is clearing. -/
theorem Cleared.trans {a₁ : Arena E T} (h : Cleared a a₁) (h' : Cleared a₁ a') :
    Cleared a a' := by
  refine ⟨h'.root.trans h.root, fun id => ?_⟩
  obtain ⟨n, hn⟩ := h.slots id
  obtain ⟨m, hm⟩ := h'.slots id
  exact ⟨m + n, by rw [hm, hn, map_iterate_map_iterate]⟩

/-- A reset keeps the links, however often it comes. -/
theorem links_iterate_reset (n : Nat) (s : Slot T) :
    (Slot.reset^[n] s).links = s.links := by
  induction n generalizing s with
  | zero => rfl
  | succ n ih => exact ih s.reset

/-- Clearing does not move a link. -/
theorem Cleared.sameLinks (h : Cleared a a') : SameLinks a a' := by
  refine ⟨h.root, fun id => ?_⟩
  obtain ⟨n, hn⟩ := h.slots id
  rw [hn, Option.map_map]
  exact Option.map_congr fun s _ => links_iterate_reset n s

/-- What has been reset stays so. -/
theorem Fresh.cleared {a₁ : Arena E T} {id : TaskId} (h : Fresh a a₁ id)
    (h' : Cleared a₁ a') :
    Fresh a a' id := by
  obtain ⟨n, hn⟩ := h
  obtain ⟨m, hm⟩ := h'.slots id
  exact ⟨m + n, by rw [hm, hn, map_iterate_map_iterate, Nat.add_assoc]⟩

/-- What has been reset since some slots were has been reset. -/
theorem Fresh.since {a₁ : Arena E T} {id : TaskId} (h : Cleared a a₁)
    (h' : Fresh a₁ a' id) :
    Fresh a a' id := by
  obtain ⟨n, hn⟩ := h.slots id
  obtain ⟨m, hm⟩ := h'
  exact ⟨m + n, by rw [hm, hn, map_iterate_map_iterate, Nat.add_right_comm]⟩

/-- A task that has been reset is fresh. -/
theorem Fresh.statusOf {id : TaskId} (h : Fresh a a' id) :
    a'.statusOf id = .fresh := by
  obtain ⟨n, hn⟩ := h
  rw [Arena.statusOf, hn]
  cases a.slot? id with
  | none => rfl
  | some s =>
      rw [Option.map_some, Function.iterate_succ_apply']
      rfl

section

variable (hrewind : ∀ task : T,
  Behavior.rewind (Behavior.rewind task) = Behavior.rewind task)

include hrewind

/-- A second reset of a slot does nothing. -/
theorem reset_reset (s : Slot T) : s.reset.reset = s.reset := by
  have hoccupant : ∀ occupant : Occupant T,
      Behavior.rewind (Behavior.rewind occupant)
        = Behavior.rewind occupant := by
    intro occupant
    cases occupant with
    | evaluator => rfl
    | task task => exact congrArg Occupant.task (hrewind task)
  rw [Slot.reset, Slot.reset, Option.map_map]
  congr 1
  exact Option.map_congr fun occupant _ => hoccupant occupant

/-- A second reset of a slot finds nothing to do. -/
theorem map_reset_reset (s : Option (Slot T)) :
    (s.map Slot.reset).map Slot.reset = s.map Slot.reset := by
  rw [Option.map_map]
  exact Option.map_congr fun s _ => reset_reset hrewind s

/-- Many resets of a slot are one. -/
theorem map_iterate_reset (n : Nat) (s : Option (Slot T)) :
    s.map Slot.reset^[n + 1] = s.map Slot.reset := by
  induction n with
  | zero => rfl
  | succ n ih =>
      rw [Nat.add_comm, ← map_iterate_map_iterate, ih, Function.iterate_one,
        map_reset_reset hrewind]

/-- A slot that was reset once or more is the reset slot. -/
theorem Fresh.slot?_eq {id : TaskId} (h : Fresh a a' id) :
    a'.slot? id = (a.slot? id).map Slot.reset := by
  obtain ⟨n, hn⟩ := h
  rw [hn, map_iterate_reset hrewind]

/-- A reset of any slots leaves everything that a reset leaves. -/
theorem Cleared.keeps (h : Cleared a a') : Keeps Slot.reset a a' := by
  intro id
  obtain ⟨n, hn⟩ := h.slots id
  have hreset := map_iterate_map_iterate Slot.reset 1 n (a.slot? id)
  rw [Function.iterate_one, Nat.add_comm 1, map_iterate_reset hrewind] at hreset
  rw [hn, hreset]

end

/-- Resetting one slot clears the arena. -/
theorem cleared_modify (a : Arena E T) (id : TaskId) :
    Cleared a (a.modify id Slot.reset) := by
  refine ⟨rfl, fun x => ?_⟩
  rw [slot?_modify]
  split
  · rename_i heq
    rw [heq]
    exact ⟨1, rfl⟩
  · exact ⟨0, (map_iterate_zero ..).symm⟩

/-- A reset of one task after another. -/
theorem foldl_cleared {f : Arena E T → TaskId → Arena E T}
    (hf : ∀ a id, Cleared a (f a id)) (ids : List TaskId) (a : Arena E T) :
    Cleared a (ids.foldl f a) := by
  induction ids generalizing a with
  | nil => exact .refl a
  | cons id rest ih => exact (hf a id).trans (ih (f a id))

/-- Whatever the depth, a reset below a task only clears slots. -/
theorem resetFrom_cleared (depth : Nat) (id : TaskId) (a : Arena E T) :
    Cleared a (resetFrom depth id a) :=
  resetFrom_keeps (P := Cleared a)
    (fun a₁ x h => h.trans (cleared_modify a₁ x)) depth id (.refl a)

/-- If one of the tasks is reached from every arena with the same links, it
is reached. -/
theorem foldl_reaches {f : Arena E T → TaskId → Arena E T}
    (hf : ∀ a id, Cleared a (f a id)) {ids : List TaskId} {y x : TaskId}
    (hy : y ∈ ids) (a : Arena E T)
    (hreach : ∀ a', SameLinks a a' → Fresh a' (f a' y) x) :
    Fresh a (ids.foldl f a) x := by
  induction ids generalizing a with
  | nil => cases hy
  | cons id rest ih =>
      rw [List.foldl_cons]
      rcases List.mem_cons.1 hy with rfl | hy
      · exact (hreach a (.refl a)).cleared (foldl_cleared hf rest _)
      · have hfirst := hf a id
        exact .since hfirst
          (ih hy _ fun a' hlinks => hreach a' (hfirst.sameLinks.trans hlinks))

/-- A reset comes to the task itself, then to its guard and then to its
children. -/
theorem resetFrom_succ (depth : Nat) (id : TaskId) (a : Arena E T) :
    ∃ a₁, resetFrom (depth + 1) id a
        = (a₁.childrenOf id).foldl (fun a child => resetFrom depth child a) a₁
      ∧ ((a.modify id Slot.reset).guardOf id = none
        ∧ a₁ = a.modify id Slot.reset
        ∨ ∃ guard, (a.modify id Slot.reset).guardOf id = some guard
          ∧ a₁ = resetFrom depth guard (a.modify id Slot.reset)) := by
  rw [resetFrom]
  split
  · rename_i hnone
    exact ⟨_, rfl, .inl ⟨hnone, rfl⟩⟩
  · rename_i guard hguard
    exact ⟨_, rfl, .inr ⟨guard, hguard, rfl⟩⟩

/-- A reset reaches every task to which a way with fewer links leads than it may
follow. By induction on the depth that is left, with the arena and the task
general. The way into the tree says which of the calls below reaches the task.
-/
theorem resetFrom_reaches {depth n : Nat} {id x : TaskId} (hway : Way a id n x)
    (hn : n < depth) :
    Fresh a (resetFrom depth id a) x := by
  induction depth generalizing a id n with
  | zero => exact absurd hn (Nat.not_lt_zero n)
  | succ depth ih =>
      -- `a₁` is after the reset of the task itself, and `a₂` after that of its
      -- guard. What a part of the reset made fresh stays so, since all parts
      -- only clear slots.
      obtain ⟨a₁, ha₁⟩ : ∃ a₁, a₁ = a.modify id Slot.reset := ⟨_, rfl⟩
      obtain ⟨a₂, hreset, ha₂⟩ := resetFrom_succ depth id a
      rw [← ha₁] at ha₂
      have hall : ∀ a id, Cleared a (resetFrom (T := T) depth id a) :=
        fun a id => resetFrom_cleared depth id a
      have hfirst : Cleared a a₁ := by
        rw [ha₁]
        exact cleared_modify a id
      have hguard : Cleared a₁ a₂ := by
        rcases ha₂ with ⟨-, rfl⟩ | ⟨guard, -, rfl⟩
        · exact .refl _
        · exact hall _ _
      have hbefore := hfirst.trans hguard
      have hafter := foldl_cleared hall (a₂.childrenOf id) a₂
      rw [hreset]
      cases hway with
      -- The task itself: its slot was the first to be reset.
      | here =>
          have hself : Fresh a a₁ x := by
            refine ⟨0, ?_⟩
            rw [ha₁, slot?_modify, if_pos rfl]
            rfl
          exact (hself.cleared hguard).cleared hafter
      -- One of the children: the fold comes to it, and the way goes on below
      -- it.
      | @child _ y _ n link rest =>
          have hlink : y ∈ a₂.childrenOf id := by
            rw [hbefore.sameLinks.childrenOf]
            exact link
          refine .since hbefore
            (foldl_reaches hall hlink a₂ fun a' hlinks => ?_)
          exact ih (rest.congr (hbefore.sameLinks.trans hlinks))
            (Nat.lt_of_succ_lt_succ hn)
      -- The guard: it was reset before the children.
      | @guard _ y _ n link rest =>
          have hlink := (hfirst.sameLinks.guardOf id).trans link
          refine Fresh.cleared (.since hfirst ?_) hafter
          rcases ha₂ with ⟨hnone, -⟩ | ⟨guard, hguarded, rfl⟩
          · cases hnone.symm.trans hlink
          obtain rfl := Option.some.inj (hguarded.symm.trans hlink)
          exact ih (rest.congr hfirst.sameLinks) (Nat.lt_of_succ_lt_succ hn)

end Arena

end TaskTree
