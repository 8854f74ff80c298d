/-
The wiring of an arena.

A task of a tree is its root, the child of one other task, or a guard, and
never two of these (`Wired`). Its place decides who receives its reports
(`receiver`), and a running task, which is gone on with and not entered
anew, has this receiver already noted (`Anchored`). Together with being at
rest this makes an arena `Ready` for a step.

Growing a tree, resetting it and copying it keep it ready. For growing it
is enough to look at one task that is put into its slot and linked
(`plant_induction`); for a reset it is enough that every slot is left as it
was or made fresh (`Renewed`), whichever slots the links may reach.
-/
import TaskTree.Arena.Renewal
import TaskTree.Proofs.Arena.Planting
import TaskTree.Proofs.Arena.Seats

namespace TaskTree

variable {E T : Type}

/-- The slot `s'` is the slot `s` as it was or made fresh. -/
structure Slot.Renews (s s' : Slot T) : Prop where
  /-- Its place in the tree is the same. -/
  links : s'.links = s.links
  /-- A task that is at home stays there, perhaps rewound. -/
  occupant : s.occupant.isSome = true → s'.occupant.isSome = true
  /-- No report comes into an inbox that is empty. -/
  inbox : s.inbox = [] → s'.inbox = []
  /-- Status and control go together: both as they were, or both gone. -/
  stand : s'.status = s.status ∧ s'.control = s.control
    ∨ s'.status = .fresh ∧ s'.control = none

/-- A slot that is left alone. -/
theorem Slot.Renews.refl (s : Slot T) : s.Renews s :=
  ⟨rfl, id, id, .inl ⟨rfl, rfl⟩⟩

/-- Left alone or made fresh twice, which is the same as once. -/
theorem Slot.Renews.trans {s s₁ s' : Slot T} (h : s.Renews s₁)
    (h' : s₁.Renews s') : s.Renews s' where
  links := h'.links.trans h.links
  occupant hs := h'.occupant (h.occupant hs)
  inbox hs := h'.inbox (h.inbox hs)
  stand := by
    rcases h'.stand with ⟨hstatus, hcontrol⟩ | hfresh
    · rw [hstatus, hcontrol]
      exact h.stand
    · exact .inr hfresh

/-- A slot that is reset is made fresh. -/
theorem Slot.Renews.reset [Behavior E T] (s : Slot T) : s.Renews s.reset where
  links := rfl
  occupant hs := by rw [Slot.reset, Option.isSome_map, hs]
  inbox _ := rfl
  stand := .inr ⟨rfl, rfl⟩

namespace Arena

-- ============================================================== the wires

/-- Every task has one place. -/
structure Wired (a : Arena E T) : Prop where
  /-- The guard evaluator stands alone. -/
  evaluator : ∃ s, a.slot? .evaluator = some s ∧ s.parent = none
  /-- A child has its parent noted in its own slot, so it has only one. -/
  child : ∀ parent c, c ∈ a.childrenOf parent →
    parent ≠ .evaluator ∧ a.parentOf c = some parent
  /-- No child stands twice under its parent. -/
  nodup : ∀ parent, (a.childrenOf parent).Nodup
  /-- A guard has no parent, and it is not the root of the tree. -/
  guard : ∀ owner g, a.guardOf owner = some g → g ≠ .evaluator ∧ a.root ≠ some g
    ∧ ∃ s, a.slot? g = some s ∧ s.parent = none
  /-- The root has no parent either. -/
  root : ∀ r, a.root = some r →
    r ≠ .evaluator ∧ ∃ s, a.slot? r = some s ∧ s.parent = none

/-- The guard evaluator is nobody's child. -/
theorem Wired.parentOf_evaluator {a : Arena E T} (h : Wired a) :
    a.parentOf .evaluator = none := by
  obtain ⟨s, hs, hparent⟩ := h.evaluator
  rw [parentOf, hs, Option.bind_some, hparent]

/-- So no child is the guard evaluator. -/
theorem Wired.child_ne {a : Arena E T} (h : Wired a) {parent c : TaskId}
    (hc : c ∈ a.childrenOf parent) : c ≠ .evaluator := by
  intro heq
  subst heq
  exact nomatch h.parentOf_evaluator.symm.trans (h.child _ _ hc).2

/-- No guard is a child. -/
theorem guardOf_ne_of_child {a : Arena E T} (hwired : Wired a)
    {parent owner y : TaskId} (hchild : y ∈ a.childrenOf parent) :
    a.guardOf owner ≠ some y := by
  intro hguard
  have hparent := (hwired.child parent y hchild).2
  obtain ⟨-, -, s, hs, horphan⟩ := hwired.guard owner y hguard
  rw [parentOf, hs, Option.bind_some, horphan] at hparent
  cases hparent

/-- A slot without a parent, elsewhere. -/
theorem SameLinks.orphan {a a' : Arena E T} (h : SameLinks a a') {id : TaskId}
    (hid : ∃ s, a.slot? id = some s ∧ s.parent = none) :
    ∃ s, a'.slot? id = some s ∧ s.parent = none := by
  obtain ⟨s, hs, hparent⟩ := hid
  have hlinks := h.links id
  rw [hs, Option.map_some] at hlinks
  obtain ⟨s', hs', hsame⟩ := Option.map_eq_some_iff.1 hlinks
  exact ⟨s', hs', (congrArg Links.parent hsame).trans hparent⟩

/-- How an arena is wired is a matter of its links alone. -/
theorem Wired.congr {a a' : Arena E T} (h : Wired a) (hlinks : SameLinks a a') :
    Wired a' where
  evaluator := hlinks.orphan h.evaluator
  child parent c hc := by
    rw [hlinks.childrenOf] at hc
    rw [hlinks.parentOf]
    exact h.child parent c hc
  nodup parent := by
    rw [hlinks.childrenOf]
    exact h.nodup parent
  guard owner g hg := by
    rw [hlinks.guardOf] at hg
    obtain ⟨hne, hroot, hslot⟩ := h.guard owner g hg
    rw [hlinks.root]
    exact ⟨hne, hroot, hlinks.orphan hslot⟩
  root r hr := by
    rw [hlinks.root] at hr
    obtain ⟨hne, hslot⟩ := h.root r hr
    exact ⟨hne, hlinks.orphan hslot⟩

-- ========================================================= the receivers

/-- Who receives the reports of a task, by its place in the tree. -/
def receiver (a : Arena E T) (id : TaskId) : Control :=
  if a.root = some id then .tree
  else
    match a.parentOf id with
    | some parent => .task parent
    | none => .task .evaluator

/-- The tree itself receives the reports of its root. -/
theorem receiver_root {a : Arena E T} {r : TaskId} (hr : a.root = some r) :
    a.receiver r = .tree := by
  rw [receiver, if_pos hr]

/-- A parent receives those of its children: a child has a parent noted and,
since the root has none, is not the root. -/
theorem Wired.receiver_child {a : Arena E T} (h : Wired a) {parent c : TaskId}
    (hc : c ∈ a.childrenOf parent) : a.receiver c = .task parent := by
  have hparent := (h.child parent c hc).2
  have hroot : a.root ≠ some c := by
    intro hroot
    obtain ⟨-, s, hs, hnone⟩ := h.root c hroot
    rw [parentOf, hs, Option.bind_some, hnone] at hparent
    exact nomatch hparent
  rw [receiver, if_neg hroot, hparent]

/-- The guard evaluator receives those of a guard. -/
theorem Wired.receiver_guard {a : Arena E T} (h : Wired a) {owner g : TaskId}
    (hg : a.guardOf owner = some g) : a.receiver g = .task .evaluator := by
  obtain ⟨-, hroot, s, hs, hnone⟩ := h.guard owner g hg
  rw [receiver, if_neg hroot, parentOf, hs, Option.bind_some, hnone]

/-- Who receives them is a matter of the links. -/
theorem SameLinks.receiver {a a' : Arena E T} (h : SameLinks a a')
    (id : TaskId) :
    a'.receiver id = a.receiver id := by
  rw [Arena.receiver, Arena.receiver, h.root, h.parentOf]

/-- The receivers of running tasks are noted, and the guard evaluator has
none. -/
structure Anchored (a : Arena E T) : Prop where
  mute : a.controlOf .evaluator = none
  running : ∀ id, id ≠ .evaluator → a.statusOf id = .running →
    a.controlOf id = some (a.receiver id)

/-- An arena that is ready for a step. -/
structure Ready (a : Arena E T) : Prop where
  rest : AtRest a
  wired : Wired a
  anchored : Anchored a

variable [Behavior E T]

-- ============================================================ a new task

/-- In an empty arena the only slot is that of the guard evaluator. -/
theorem slot?_empty (board : E) (dice : Nat → Nat) (id : TaskId) :
    (Arena.empty board dice : Arena E T).slot? id
      = if id = .evaluator then some (Slot.of .evaluator none) else none := by
  obtain ⟨i⟩ := id
  cases i with
  | zero => rfl
  | succ i => rw [if_neg fun h => by cases h]; rfl

/-- An empty arena is ready. There is nobody in it but the guard evaluator,
without links and at home. -/
theorem ready_empty (board : E) (dice : Nat → Nat) :
    Ready (Arena.empty board dice : Arena E T) := by
  have hslot := slot?_empty (T := T) board dice
  have hself : (Arena.empty board dice : Arena E T).slot? .evaluator
      = some (Slot.of .evaluator none) := rfl
  -- No slot has children or a guard.
  have hchildren : ∀ id,
      (Arena.empty board dice : Arena E T).childrenOf id = [] := by
    intro id
    rw [childrenOf, hslot]
    split <;> rfl
  have hguard : ∀ id,
      (Arena.empty board dice : Arena E T).guardOf id = none := by
    intro id
    rw [guardOf, hslot]
    split <;> rfl
  refine ⟨⟨rfl, fun id s hs => ?_⟩,
    ⟨⟨_, hself, rfl⟩, fun parent c hc => ?_, fun parent => ?_,
    fun owner g hg => ?_, fun r hr => nomatch hr⟩,
    ⟨rfl, fun id hid hrunning => ?_⟩⟩
  · rw [hslot] at hs
    split at hs
    · cases hs
      exact ⟨rfl, rfl⟩
    · cases hs
  · rw [hchildren] at hc
    cases hc
  · rw [hchildren]
    exact .nil
  · rw [hguard] at hg
    cases hg
  · rw [statusOf, hslot, if_neg hid] at hrunning
    cases hrunning

/-- Puts a task into the next slot and links it. -/
def placed (link : Link) (task : T) (a : Arena E T) : Arena E T :=
  attachLink link a.nextId (a.occupy task link.parent)

/-- Where the next task may be linked. -/
def Link.Open (a : Arena E T) : Link → Prop
  | .root => a.root = none
  | .child parent => parent ≠ .evaluator ∧ parent.index < a.slots.size
  | .guard owner => owner ≠ .evaluator ∧ owner.index < a.slots.size

omit [Behavior E T] in
/-- A link never goes out from the task that it is going to put into its
place. -/
theorem Link.Open.from_ne {a : Arena E T} {link : Link} (h : link.Open a) :
    link.from? ≠ some a.nextId := by
  intro heq
  cases link with
  | root => cases heq
  | child parent =>
      cases heq
      exact Nat.lt_irrefl _ h.2
  | guard owner =>
      cases heq
      exact Nat.lt_irrefl _ h.2

section

variable {link : Link} {task : T} {a : Arena E T}

/-- One slot is added. -/
theorem placed_size : (placed link task a).slots.size = a.slots.size + 1 := by
  rw [placed, attachLink_size, occupy, Array.size_push]

/-- The slot of the new task. What the new slot holds depends on the link only
in its control: the tree's for a root, and nobody's for the others, whose
control is set when they are entered. -/
theorem placed_slot?_self (task : T) (hopen : link.Open a) :
    ∃ control, (placed link task a).slot? a.nextId
      = some { Slot.of (.task task) link.parent with control } := by
  have hslot := occupy_slot?_nextId a task link.parent
  cases link with
  | root =>
      refine ⟨some .tree, ?_⟩
      rw [placed, attachLink, slot?_announce, slot?_modify, if_pos rfl]
      exact congrArg (Option.map _) hslot
  | child parent =>
      have hne : a.nextId ≠ parent :=
        fun h => hopen.from_ne (congrArg some h.symm)
      refine ⟨none, ?_⟩
      rw [placed, attachLink, slot?_announce, slot?_modify, if_neg hne]
      exact hslot
  | guard owner =>
      have hne : a.nextId ≠ owner :=
        fun h => hopen.from_ne (congrArg some h.symm)
      refine ⟨none, ?_⟩
      rw [placed, attachLink, slot?_modify, if_neg hne]
      exact hslot

/-- The other slots. -/
theorem placed_slot?_of_ne (link : Link) (task : T) {x : TaskId}
    (hx : x ≠ a.nextId) :
    (placed link task a).slot? x
      = if link.from? = some x then (a.slot? x).map (link.mark a.nextId)
          else a.slot? x := by
  have hold : (a.occupy task link.parent).slot? x = a.slot? x := by
    have hne : x.index ≠ a.slots.size := fun h => hx (congrArg TaskId.mk h)
    unfold slot? occupy
    rw [Array.getElem?_push, if_neg hne]
  rw [placed, attachLink_slot? _ _ _ hx, hold]

/-- Only a root link makes the new task the root. -/
theorem placed_root :
    (placed link task a).root
      = if link = .root then some a.nextId else a.root := by
  cases link <;> rfl

omit [Behavior E T] in
/-- The next number has no slot yet. -/
theorem slot?_nextId : a.slot? a.nextId = none :=
  Array.getElem?_eq_none (Nat.le_refl _)

omit [Behavior E T] in
/-- Each number before it has one. -/
theorem isSome_slot?_of_lt {x : TaskId} (hx : x.index < a.slots.size) :
    ∃ s, a.slot? x = some s := ⟨_, Array.getElem?_eq_getElem hx⟩

omit [Behavior E T] in
/-- A link goes out from a task that is there, and never from the guard
evaluator. -/
theorem Link.Open.from_slot (hopen : link.Open a) {x : TaskId}
    (hx : link.from? = some x) :
    x ≠ .evaluator ∧ ∃ s, a.slot? x = some s := by
  cases link with
  | root => cases hx
  | child parent =>
      cases hx
      exact ⟨hopen.1, isSome_slot?_of_lt hopen.2⟩
  | guard owner =>
      cases hx
      exact ⟨hopen.1, isSome_slot?_of_lt hopen.2⟩

/-- A slot is the new one, or the one from which the link goes, or the old
one. -/
theorem placed_cases (task : T) (hopen : link.Open a) (x : TaskId) :
    (x = a.nextId ∧ ∃ control, (placed link task a).slot? x
        = some { Slot.of (.task task) link.parent with control })
      ∨ (x ≠ a.nextId ∧ link.from? = some x ∧ ∃ s, a.slot? x = some s
        ∧ (placed link task a).slot? x = some (link.mark a.nextId s))
      ∨ (x ≠ a.nextId ∧ link.from? ≠ some x
        ∧ (placed link task a).slot? x = a.slot? x) := by
  by_cases hx : x = a.nextId
  · subst hx
    exact .inl ⟨rfl, placed_slot?_self task hopen⟩
  · have hold := placed_slot?_of_ne link task hx
    by_cases hfrom : link.from? = some x
    · obtain ⟨-, s, hs⟩ := hopen.from_slot hfrom
      rw [if_pos hfrom, hs] at hold
      exact .inr (.inl ⟨hx, hfrom, s, hs, hold⟩)
    · rw [if_neg hfrom] at hold
      exact .inr (.inr ⟨hx, hfrom, hold⟩)

/-- The new task becomes the last child of the parent that the link names.
Nobody else's children change. -/
theorem placed_childrenOf (task : T) (hopen : link.Open a) (x : TaskId) :
    (placed link task a).childrenOf x
      = if link = .child x then a.childrenOf x ++ [a.nextId]
          else a.childrenOf x := by
  rcases placed_cases task hopen x with ⟨rfl, control, hslot⟩ |
    ⟨-, hfrom, s, hs, hslot⟩ | ⟨-, hfrom, hslot⟩
  -- The three kinds of slot: the new one has no children, the one that the link
  -- goes from has one more if this is a child link, and the others are as they
  -- were.
  · have hne : link ≠ .child a.nextId := by
      rintro rfl
      exact hopen.from_ne rfl
    rw [if_neg hne, childrenOf, childrenOf, hslot, slot?_nextId]
    rfl
  · rw [childrenOf, childrenOf, hslot, hs]
    cases link with
    | root => cases hfrom
    | child parent =>
        cases hfrom
        rw [if_pos rfl]
        rfl
    | guard owner =>
        rw [if_neg fun h => nomatch h]
        rfl
  · have hne : link ≠ .child x := by
      rintro rfl
      exact hfrom rfl
    rw [if_neg hne, childrenOf, childrenOf, hslot]

/-- The new task becomes the guard of the owner that the link names. Nobody
else's guard changes. -/
theorem placed_guardOf (task : T) (hopen : link.Open a) (x : TaskId) :
    (placed link task a).guardOf x
      = if link = .guard x then some a.nextId else a.guardOf x := by
  rcases placed_cases task hopen x with ⟨rfl, control, hslot⟩ |
    ⟨-, hfrom, s, hs, hslot⟩ | ⟨-, hfrom, hslot⟩
  -- The same three kinds of slot as for the children.
  · have hne : link ≠ .guard a.nextId := by
      rintro rfl
      exact hopen.from_ne rfl
    rw [if_neg hne, guardOf, guardOf, hslot, slot?_nextId]
    rfl
  · rw [guardOf, guardOf, hslot, hs]
    cases link with
    | root => cases hfrom
    | guard owner =>
        cases hfrom
        rw [if_pos rfl]
        rfl
    | child parent =>
        rw [if_neg fun h => nomatch h]
        rfl
  · have hne : link ≠ .guard x := by
      rintro rfl
      exact hfrom rfl
    rw [if_neg hne, guardOf, guardOf, hslot]

omit [Behavior E T] in
/-- A link marks children and guards only. -/
theorem Link.mark_eq (link : Link) (id : TaskId) (s : Slot T) :
    ∃ guard children, link.mark id s = { s with guard, children } := by
  cases link with
  | root => exact ⟨s.guard, s.children, rfl⟩
  | child parent => exact ⟨s.guard, _, rfl⟩
  | guard owner => exact ⟨_, s.children, rfl⟩

/-- What is known of the old tasks is as before: their parents, their statuses
and their control. -/
theorem placed_old (task : T) (hopen : link.Open a) {x : TaskId}
    (hx : x ≠ a.nextId) :
    (placed link task a).parentOf x = a.parentOf x
      ∧ (placed link task a).statusOf x = a.statusOf x
      ∧ (placed link task a).controlOf x = a.controlOf x := by
  rcases placed_cases task hopen x with ⟨heq, -⟩ | ⟨-, -, s, hs, hslot⟩ |
      ⟨-, -, hslot⟩
  · exact absurd heq hx
  · obtain ⟨guard, children, hmark⟩ := link.mark_eq a.nextId s
    rw [hmark] at hslot
    simp only [parentOf, statusOf, controlOf, hslot, hs]
    exact ⟨rfl, rfl, rfl⟩
  · simp only [parentOf, statusOf, controlOf, hslot]
    exact ⟨trivial, trivial, trivial⟩

/-- What is known of the new one: the parent that the link gives it, and that it
is fresh. -/
theorem placed_self (task : T) (hopen : link.Open a) :
    (placed link task a).parentOf a.nextId = link.parent
      ∧ (placed link task a).statusOf a.nextId = .fresh := by
  obtain ⟨control, hslot⟩ := placed_slot?_self task hopen
  simp only [parentOf, statusOf, hslot]
  exact ⟨rfl, rfl⟩

/-- An old task's reports are received where they were. Only a new root could
change this, and there was none before it. -/
theorem placed_receiver (task : T) (hopen : link.Open a) {x : TaskId}
    (hx : x ≠ a.nextId) :
    (placed link task a).receiver x = a.receiver x := by
  rw [receiver, receiver, (placed_old task hopen hx).1]
  cases link with
  | root =>
      have hnone : a.root = none := hopen
      have hroot : (placed .root task a).root = some a.nextId := rfl
      rw [hroot, hnone, if_neg fun h => hx (Option.some.inj h).symm,
        if_neg fun h => nomatch h]
  | child parent =>
      have hroot : (placed (.child parent) task a).root = a.root := rfl
      rw [hroot]
  | guard owner =>
      have hroot : (placed (.guard owner) task a).root = a.root := rfl
      rw [hroot]

end

-- ============================================================== growing

section

variable {link : Link} {a : Arena E T}

omit [Behavior E T] in
/-- The guard evaluator has its slot already, so it is not the next task. -/
theorem Wired.nextId_ne (h : Wired a) : a.nextId ≠ .evaluator := by
  intro heq
  obtain ⟨s, hs, -⟩ := h.evaluator
  rw [← heq, slot?_nextId] at hs
  cases hs

omit [Behavior E T] in
/-- Nothing that has a slot is the next task. -/
theorem ne_nextId_of_slot {x : TaskId} {s : Slot T} (hs : a.slot? x = some s) :
    x ≠ a.nextId := by
  rintro rfl
  exact nomatch slot?_nextId.symm.trans hs

omit [Behavior E T] in
/-- No child is the next task. -/
theorem Wired.child_ne_nextId (h : Wired a) {parent c : TaskId}
    (hc : c ∈ a.childrenOf parent) :
    c ≠ a.nextId := by
  obtain ⟨s, hs, -⟩ := Option.bind_eq_some_iff.1 (h.child parent c hc).2
  exact ne_nextId_of_slot hs

/-- An old slot without a parent still has none. -/
theorem placed_orphan (task : T) (hopen : link.Open a) {x : TaskId}
    (hx : ∃ s, a.slot? x = some s ∧ s.parent = none) :
    ∃ s, (placed link task a).slot? x = some s ∧ s.parent = none := by
  obtain ⟨s, hs, hparent⟩ := hx
  rcases placed_cases task hopen x with ⟨heq, -⟩ | ⟨-, -, s', hs', hslot⟩ |
      ⟨-, -, hslot⟩
  · exact absurd heq (ne_nextId_of_slot hs)
  · cases hs.symm.trans hs'
    obtain ⟨guard, children, hmark⟩ := link.mark_eq a.nextId s
    rw [hmark] at hslot
    exact ⟨_, hslot, hparent⟩
  · exact ⟨s, hslot.trans hs, hparent⟩

/-- A new task is at home with an empty inbox, so the arena stays at rest. -/
theorem AtRest.placed (h : AtRest a) (task : T) (hopen : link.Open a) :
    AtRest (placed link task a) := by
  refine ⟨?_, fun x s hs => ?_⟩
  · cases link <;> exact h.fault
  · rcases placed_cases task hopen x with ⟨-, control, hslot⟩ |
      ⟨-, -, s', hs', hslot⟩ | ⟨-, -, hslot⟩
    · cases hslot.symm.trans hs
      exact ⟨rfl, rfl⟩
    · obtain ⟨guard, children, hmark⟩ := link.mark_eq a.nextId s'
      rw [hmark] at hslot
      cases hslot.symm.trans hs
      exact h.slots x s' hs'
    · exact h.slots x s (hslot.symm.trans hs)

/-- A new task does not run, so nobody else needs to have its receiver noted. -/
theorem Anchored.placed (h : Anchored a) (hwired : Wired a) (task : T)
    (hopen : link.Open a) :
    Anchored (placed link task a) := by
  have hnext := hwired.nextId_ne
  refine ⟨?_, fun x hx hrunning => ?_⟩
  · rw [(placed_old task hopen hnext.symm).2.2]
    exact h.mute
  · by_cases heq : x = a.nextId
    · subst heq
      rw [(placed_self task hopen).2] at hrunning
      cases hrunning
    · obtain ⟨-, hstatus, hcontrol⟩ := placed_old task hopen heq
      rw [hstatus] at hrunning
      rw [hcontrol, placed_receiver task hopen heq]
      exact h.running x hx hrunning

/-- Placing a task keeps the wiring. The new task has one place, since its slot
is the only one that the links of other tasks could not have named before. -/
theorem Wired.placed (h : Wired a) (task : T) (hopen : link.Open a) :
    Wired (placed link task a) := by
  have hnext := h.nextId_ne
  obtain ⟨hparent, -⟩ := placed_self task hopen
  refine ⟨placed_orphan task hopen h.evaluator, fun parent c hc => ?_,
    fun parent => ?_, fun owner g hg => ?_, fun r hr => ?_⟩
  -- Whoever is a child is an old one, or the new one under its own parent.
  · rw [placed_childrenOf task hopen] at hc
    split at hc
    · rename_i hlink
      subst hlink
      rcases List.mem_append.1 hc with hc | hc
      · rw [(placed_old task hopen (h.child_ne_nextId hc)).1]
        exact h.child parent c hc
      · rw [List.mem_singleton.1 hc, hparent]
        exact ⟨hopen.1, rfl⟩
    · rw [(placed_old task hopen (h.child_ne_nextId hc)).1]
      exact h.child parent c hc
  -- The new task was not among the children before.
  · rw [placed_childrenOf task hopen]
    split
    · refine List.nodup_append.2
        ⟨h.nodup parent, List.pairwise_singleton _ _, fun c hc d hd => ?_⟩
      rw [List.mem_singleton.1 hd]
      exact h.child_ne_nextId hc
    · exact h.nodup parent
  -- Whoever is a guard is the old one of its owner, or the new one, and neither
  -- is the root.
  · rw [placed_guardOf task hopen] at hg
    rw [placed_root]
    split at hg
    · rename_i hlink
      subst hlink
      cases hg
      refine ⟨hnext, ?_, ?_⟩
      · rw [if_neg fun h => by cases h]
        intro hr
        obtain ⟨-, s, hs, -⟩ := h.root _ hr
        exact ne_nextId_of_slot hs rfl
      · obtain ⟨control, hslot⟩ := placed_slot?_self task hopen
        exact ⟨_, hslot, rfl⟩
    · obtain ⟨hne, hroot, hslot⟩ := h.guard owner g hg
      refine ⟨hne, ?_, placed_orphan task hopen hslot⟩
      obtain ⟨s, hs, -⟩ := hslot
      split
      · exact fun heq => ne_nextId_of_slot hs (Option.some.inj heq).symm
      · exact hroot
  -- The root is the new one or the old one.
  · rw [placed_root] at hr
    split at hr
    · rename_i hlink
      subst hlink
      cases hr
      obtain ⟨control, hslot⟩ := placed_slot?_self task hopen
      exact ⟨hnext, _, hslot, rfl⟩
    · obtain ⟨hne, hslot⟩ := h.root r hr
      exact ⟨hne, placed_orphan task hopen hslot⟩

/-- A tree that is ready stays so when a task is placed in it. -/
theorem Ready.placed (h : Ready a) (task : T) (hopen : link.Open a) :
    Ready (placed link task a) :=
  ⟨h.rest.placed task hopen, h.wired.placed task hopen,
    h.anchored.placed h.wired task hopen⟩

end

mutual

/-- Planting places one task after another. -/
theorem Ready.plant {link : Link} (b : Blueprint T) {a : Arena E T}
    (h : Ready a) (hopen : link.Open a) : Ready (plant link b a) := by
  match b with
  | .node task guard children =>
      have hplaced := h.placed task hopen
      have hself : a.nextId ≠ .evaluator := h.wired.nextId_ne
      have hlt : a.nextId.index < (Arena.placed link task a).slots.size := by
        rw [placed_size]
        exact Nat.lt_succ_self _
      rw [Arena.plant]
      refine (hplaced.plantGuard guard hself hlt).plantAll children hself ?_
      rw [plantGuard_size]
      exact Nat.lt_of_lt_of_le hlt (Nat.le_add_right _ _)

/-- A guard grows with its task, if it has one. -/
theorem Ready.plantGuard {owner : TaskId} (guard : Option (Blueprint T))
    {a : Arena E T} (h : Ready a) (hne : owner ≠ .evaluator)
    (hlt : owner.index < a.slots.size) :
    Ready (plantGuard owner guard a) := by
  match guard with
  | none => exact h
  | some guard => exact h.plant guard ⟨hne, hlt⟩

/-- Children grow one after another; the parent's slot stays in its place. -/
theorem Ready.plantAll {parent : TaskId} (children : List (Blueprint T))
    {a : Arena E T} (h : Ready a) (hne : parent ≠ .evaluator)
    (hlt : parent.index < a.slots.size) :
    Ready (plantAll parent children a) := by
  match children with
  | [] => exact h
  | child :: rest =>
      have hchild : Ready (Arena.plant (.child parent) child a) :=
        h.plant child ⟨hne, hlt⟩
      refine hchild.plantAll rest hne ?_
      rw [plant_size]
      exact Nat.lt_of_lt_of_le hlt (Nat.le_add_right _ _)

end

-- =========================================================== beginning anew

/-- Every slot is left as it was or made fresh. -/
structure Renewed (a a' : Arena E T) : Prop where
  /-- The root stays, and so do the links of every slot. -/
  root : a'.root = a.root
  fault : a'.fault = a.fault
  links : Keeps Slot.links a a'
  slots : ∀ id s', a'.slot? id = some s' →
    ∃ s, a.slot? id = some s ∧ s.Renews s'

omit [Behavior E T] in
/-- An arena that is left alone. -/
theorem Renewed.refl (a : Arena E T) : Renewed a a :=
  ⟨rfl, rfl, .refl a, fun _ s' hs' => ⟨s', hs', .refl s'⟩⟩

omit [Behavior E T] in
/-- What is renewed in two goes is renewed. -/
theorem Renewed.trans {a a₁ a' : Arena E T} (h : Renewed a a₁)
    (h' : Renewed a₁ a') :
    Renewed a a' where
  root := h'.root.trans h.root
  fault := h'.fault.trans h.fault
  links := h.links.trans h'.links
  slots id s' hs' := by
    obtain ⟨s₁, hs₁, hlater⟩ := h'.slots id s' hs'
    obtain ⟨s, hs, hfirst⟩ := h.slots id s₁ hs₁
    exact ⟨s, hs, hfirst.trans hlater⟩

/-- Resetting one slot leaves the others. -/
theorem renewed_modify (a : Arena E T) (id : TaskId) :
    Renewed a (a.modify id Slot.reset) where
  root := rfl
  fault := rfl
  links := .modify a id fun _ => rfl
  slots x s' hs' := by
    rw [slot?_modify] at hs'
    split at hs'
    · rename_i heq
      subst heq
      obtain ⟨s, hs, rfl⟩ := Option.map_eq_some_iff.1 hs'
      exact ⟨s, hs, .reset s⟩
    · exact ⟨s', hs', .refl s'⟩

/-- Whatever the links reach is made fresh, and the rest is left. By induction
on the depth, which is all that keeps the recursion from running on; nothing is
asked of the links. -/
theorem renewed_resetFrom (depth : Nat) (id : TaskId) (a : Arena E T) :
    Renewed a (resetFrom depth id a) := by
  induction depth generalizing id a with
  | zero => exact .refl a
  | succ depth ih =>
      have hall : ∀ (children : List TaskId) (a : Arena E T),
          Renewed a
            (children.foldl (fun a child => resetFrom depth child a) a) := by
        intro children
        induction children with
        | nil => exact .refl
        | cons child rest ihrest => exact fun a => (ih child a).trans (ihrest _)
      rw [resetFrom]
      refine ((renewed_modify a id).trans ?_).trans (hall _ _)
      split
      · exact .refl _
      · exact ih _ _

omit [Behavior E T] in
/-- Renewing keeps an arena ready. A slot that was left as it was has its status
and its control still, and one that was made fresh does not run. -/
theorem Ready.renewed {a a' : Arena E T} (h : Ready a)
    (hrenewed : Renewed a a') : Ready a' := by
  have hlinks : SameLinks a a' := ⟨hrenewed.root, hrenewed.links⟩
  refine ⟨⟨hrenewed.fault.trans h.rest.fault, fun id s' hs' => ?_⟩,
    h.wired.congr hlinks, ?_, fun id hid hrunning => ?_⟩
  · obtain ⟨s, hs, hrenews⟩ := hrenewed.slots id s' hs'
    obtain ⟨hoccupant, hinbox⟩ := h.rest.slots id s hs
    exact ⟨hrenews.occupant hoccupant, hrenews.inbox hinbox⟩
  -- The guard evaluator still has nobody to report to.
  · have hmute := h.anchored.mute
    cases hslot : a'.slot? .evaluator with
    | none => rw [controlOf, hslot, Option.bind_none]
    | some s' =>
        obtain ⟨s, hs, hrenews⟩ := hrenewed.slots _ s' hslot
        rw [controlOf, hs, Option.bind_some] at hmute
        rw [controlOf, hslot, Option.bind_some]
        rcases hrenews.stand with ⟨-, hcontrol⟩ | ⟨-, hcontrol⟩
        · exact hcontrol.trans hmute
        · exact hcontrol
  -- A task that runs was not made fresh, so its receiver is noted as before.
  · cases hslot : a'.slot? id with
    | none =>
        rw [statusOf, hslot] at hrunning
        cases hrunning
    | some s' =>
        obtain ⟨s, hs, hrenews⟩ := hrenewed.slots _ s' hslot
        rw [statusOf, hslot, Option.map_some, Option.getD_some] at hrunning
        rcases hrenews.stand with ⟨hstatus, hcontrol⟩ | ⟨hstatus, -⟩
        · have hrunning' : a.statusOf id = .running := by
            rw [statusOf, hs, Option.map_some, Option.getD_some, ← hstatus,
              hrunning]
          have hanchored := h.anchored.running id hid hrunning'
          rw [controlOf, hs, Option.bind_some] at hanchored
          rw [controlOf, hslot, Option.bind_some, hcontrol, hlinks.receiver,
            hanchored]
        · rw [hstatus] at hrunning
          cases hrunning

omit [Behavior E T] in
/-- Noting the receiver of a task that has a place. -/
theorem Anchored.setControl {a : Arena E T} (h : Anchored a) {id : TaskId}
    (hid : id ≠ .evaluator) :
    Anchored (a.setControl id (a.receiver id)) := by
  have hstatus : Keeps Slot.status a (a.setControl id (a.receiver id)) :=
    keeps_setControl _ _ _ fun _ _ => rfl
  have hlinks : SameLinks a (a.setControl id (a.receiver id)) :=
    ⟨rfl, keeps_setControl _ _ _ fun _ _ => rfl⟩
  refine ⟨?_, fun x hx hrunning => ?_⟩
  -- The slot of the guard evaluator is not the one that is written.
  · have hmute := h.mute
    rw [controlOf] at hmute
    rw [controlOf, Arena.setControl, slot?_modify, if_neg hid.symm]
    exact hmute
  · rw [hstatus.statusOf] at hrunning
    rw [hlinks.receiver]
    have hold := h.running x hx hrunning
    -- The task itself gets its receiver noted, and the others keep theirs.
    by_cases heq : x = id
    · subst heq
      obtain ⟨s, hs, -⟩ := Option.bind_eq_some_iff.1 hold
      rw [controlOf, Arena.setControl, slot?_modify, if_pos rfl, hs]
      rfl
    · rw [controlOf, Arena.setControl, slot?_modify, if_neg heq]
      exact hold

omit [Behavior E T] in
/-- Being at rest is a matter of the tasks and the inboxes, and of the fault. -/
theorem AtRest.congr {a a' : Arena E T} (h : AtRest a)
    (hkeeps : Keeps Slot.seat a a') (hfault : a'.fault = none) : AtRest a' := by
  refine ⟨hfault, fun id s' hs' => ?_⟩
  have hseat := hkeeps id
  rw [hs', Option.map_some] at hseat
  obtain ⟨s, hs, hsame⟩ := Option.map_eq_some_iff.1 hseat.symm
  obtain ⟨hoccupant, hinbox⟩ := Prod.mk.inj hsame
  rw [← hoccupant, ← hinbox]
  exact h.slots id s hs

omit [Behavior E T] in
/-- Being ready is a matter of the slots, the root and the fault. -/
theorem Ready.congr {a a' : Arena E T} (h : Ready a)
    (hslots : a'.slots = a.slots) (hroot : a'.root = a.root)
    (hfault : a'.fault = none) : Ready a' := by
  have hslot : ∀ id, a'.slot? id = a.slot? id := fun id => by
    rw [slot?, slot?, hslots]
  have hlinks : SameLinks a a' := ⟨hroot, fun id => congrArg _ (hslot id)⟩
  refine ⟨h.rest.congr (fun id => congrArg _ (hslot id)) hfault,
    h.wired.congr hlinks, ?_, fun id hid hrunning => ?_⟩
  · rw [controlOf, hslot]
    exact h.anchored.mute
  · rw [statusOf, hslot] at hrunning
    rw [controlOf, hslot, hlinks.receiver]
    exact h.anchored.running id hid hrunning

omit [Behavior E T] in
/-- Handing the control of the root to the tree keeps the arena ready: the tree
is its receiver. -/
theorem Ready.anchorRoot {a : Arena E T} (h : Ready a) :
    Ready a.anchorRoot := by
  rw [Arena.anchorRoot]
  split
  · exact h
  · rename_i root hroot
    have hcontrol := h.anchored.setControl (h.wired.root root hroot).1
    rw [receiver_root hroot] at hcontrol
    exact ⟨h.rest.congr
        (keeps_setControl a root .tree fun _ _ => rfl) h.rest.fault,
      h.wired.congr ⟨rfl, keeps_setControl a root .tree fun _ _ => rfl⟩,
      hcontrol⟩

/-- Resetting a tree keeps it ready. -/
theorem Ready.reset {a : Arena E T} (h : Ready a) : Ready a.reset := by
  rw [Arena.reset]
  split
  · exact h.congr rfl rfl rfl
  · exact (h.renewed (renewed_resetFrom _ _ _)).anchorRoot.congr rfl rfl rfl

/-- So does copying it. -/
theorem Ready.instantiate {a : Arena E T} (h : Ready a) (board : E) :
    Ready (a.instantiate board) := by
  have hslot : ∀ id, slot? { a with slots := a.slots.map Slot.reset } id
      = (a.slot? id).map Slot.reset := fun id => Array.getElem?_map ..
  have hrenewed : Renewed a { a with slots := a.slots.map Slot.reset } := by
    refine ⟨rfl, rfl, fun id => ?_, fun id s' hs' => ?_⟩
    · rw [hslot, Option.map_map]
      rfl
    · rw [hslot] at hs'
      obtain ⟨s, hs, rfl⟩ := Option.map_eq_some_iff.1 hs'
      exact ⟨s, hs, .reset s⟩
  refine Ready.anchorRoot ?_
  exact (h.renewed hrenewed).congr rfl rfl rfl

end Arena

end TaskTree
