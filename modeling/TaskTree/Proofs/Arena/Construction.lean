/-
What a call of construction does to a tree.

There are three such calls: a tree gets its root, a task gets a child, or a
task gets a guard. Each is refused where there is no room for its link, and
a refused call leaves the tree as it is. An accepted one plants a whole
blueprint. Its tasks take the next slots in their order (`rows`), one link
to the first of them is added, and nothing else of the tree changes.

Meanwhile every listener is told of the new tasks, one after another in the
order of their slots, unless they are guards. What it is told of a task can
be read off the tree afterwards (`arrival?`), since a child keeps its index
when others follow it. This is what one placement preserves (`Announced`),
and planting is one placement after another.
-/
import TaskTree.Proofs.Arena.Account
import TaskTree.Proofs.Arena.Layout
import TaskTree.Proofs.Arena.OneTree

namespace TaskTree.Arena

variable {E T : Type}

-- =============================================================== the calls

/-- A call that makes a tree grow. -/
inductive Construction (T : Type) where
  | setRoot (root : Blueprint T)
  | attach (parent : TaskId) (child : Blueprint T)
  | setGuard (owner : TaskId) (guard : Blueprint T)

namespace Construction

/-- What is planted. -/
def blueprint : Construction T → Blueprint T
  | .setRoot root => root
  | .attach _ child => child
  | .setGuard _ guard => guard

/-- Where it is linked. -/
def link : Construction T → Link
  | .setRoot _ => .root
  | .attach parent _ => .child parent
  | .setGuard owner _ => .guard owner

variable [Behavior E T]

/-- What comes of a call. -/
def attempt (a : Arena E T) : Construction T → Except Fault (TaskId × Arena E T)
  | .setRoot root => a.setRoot root
  | .attach parent child => a.attach parent child
  | .setGuard owner guard => a.setGuard owner guard

/-- What a call gives, and the tree after it. -/
def perform (call : Construction T) (a : Arena E T) :
    Except Fault TaskId × Arena E T :=
  match call.attempt a with
  | .ok (id, a') => (.ok id, a')
  | .error fault => (.error fault, a)

end Construction

/-- Where the tree has room for a link. -/
def Link.Vacant (a : Arena E T) : Link → Prop
  | .root => a.root = none
  | .child parent => ∃ s, a.shown? parent = some s
    ∧ ∀ limit, s.arity.most = some limit → s.children.length + 1 ≤ limit
  | .guard owner => ∃ s, a.shown? owner = some s ∧ s.guard = none

/-- A vacant place is free. -/
theorem Link.Vacant.free {a : Arena E T} {link : Link} (h : link.Vacant a) :
    link.Free a := by
  cases link with
  | root => exact Link.Open.free_root h
  | child parent =>
      obtain ⟨s, hs, -⟩ := h
      exact Link.Open.free_child (open_of_shown hs)
  | guard owner =>
      obtain ⟨s, hs, hnone⟩ := h
      refine ⟨open_of_shown hs, fun other heq => ?_⟩
      rw [shown?, if_neg (open_of_shown hs).1] at hs
      rw [← Link.guard.inj heq, guardOf, hs, Option.bind_some, hnone]

section

variable [Behavior E T]

/-- A call is accepted where there is room, and refused elsewhere. The three
calls look for the same: is the place there, and is there room. -/
theorem attempt_cases (a : Arena E T) (call : Construction T) :
    (call.link.Vacant a
      ∧ call.attempt a = .ok (a.nextId, plant call.link call.blueprint a))
      ∨ (¬ call.link.Vacant a ∧ ∃ fault, call.attempt a = .error fault) := by
  cases call with
  | setRoot root =>
      simp only [Construction.link, Construction.blueprint,
        Construction.attempt, setRoot, Link.Vacant]
      cases a.root with
      | none => exact .inl ⟨rfl, rfl⟩
      | some r => exact .inr ⟨fun h => (nomatch h), _, rfl⟩
  | attach parent child =>
      simp only [Construction.link, Construction.blueprint,
        Construction.attempt, attach, Link.Vacant]
      cases a.shown? parent with
      | none => exact .inr ⟨fun ⟨_, h, _⟩ => (nomatch h), _, rfl⟩
      | some s =>
          simp only [Option.some.injEq, exists_eq_left',
            ← Arity.exceeded?_eq_none_iff]
          cases s.arity.exceeded? s.children.length with
          | none => exact .inl ⟨rfl, rfl⟩
          | some limit => exact .inr ⟨fun h => (nomatch h), _, rfl⟩
  | setGuard owner guard =>
      simp only [Construction.link, Construction.blueprint,
        Construction.attempt, setGuard, Link.Vacant]
      cases a.shown? owner with
      | none => exact .inr ⟨fun ⟨_, h, _⟩ => (nomatch h), _, rfl⟩
      | some s =>
          simp only [Option.some.injEq, exists_eq_left']
          cases s.guard with
          | none => exact .inl ⟨rfl, rfl⟩
          | some g => exact .inr ⟨fun h => (nomatch h), _, rfl⟩

end

-- ======================================================== the announcements

/-- The handles of `n` tasks from the slot `first` on. -/
def handles (first n : Nat) : List TaskId := (List.range' first n).map TaskId.mk

/-- One handle more. -/
theorem handles_succ (first n : Nat) :
    handles first (n + 1) = handles first n ++ [⟨first + n⟩] := by
  rw [handles, List.range'_1_concat, List.map_append]
  rfl

/-- What the listeners are told when a task comes to its place. Guards come
unannounced. -/
def arrival? (a : Arena E T) (id : TaskId) : Option Notice :=
  if a.root = some id then some (.added none 0)
  else (a.parentOf id).map fun parent =>
    .added (some parent) ((a.childrenOf parent).idxOf id)

/-- Since `a₀`, the listeners were told that `n` tasks came, and of nothing
else. -/
structure Announced (a₀ : Arena E T) (n : Nat) (a : Arena E T) : Prop where
  size : a.slots.size = a₀.slots.size + n
  listeners : a.listeners = a₀.listeners
  entries : a.entries
    = a₀.entries ++ ((handles a₀.slots.size n).filterMap a.arrival?).flatMap
    fun notice => a₀.listeners.map fun who => .told who notice

/-- Nothing is announced yet. -/
theorem Announced.refl (a : Arena E T) : Announced a 0 a :=
  ⟨rfl, rfl, (List.append_nil _).symm⟩

/-- The notice of a link. -/
def Link.arrival? (a : Arena E T) : Link → Option Notice
  | .root => some (.added none 0)
  | .child parent => some (.added (some parent) (a.childrenOf parent).length)
  | .guard _ => none

section

variable [Behavior E T] {link : Link} {a : Arena E T}

/-- Placing a task tells its arrival to everybody. -/
theorem entries_placed (task : T) (hopen : link.Open a) :
    (placed link task a).entries = a.entries ++ (link.arrival? a).toList.flatMap
      fun notice => a.listeners.map fun who => .told who notice := by
  cases link with
  | guard owner => exact (List.append_nil _).symm
  | root =>
      rw [Link.arrival?, Option.toList_some, List.flatMap_singleton]
      exact Array.toList_appendList
  | child parent =>
      have hchildren :
          (a.occupy task (Link.child parent).parent).childrenOf parent
          = a.childrenOf parent := by
        rw [childrenOf, occupy_slot? _ _ _ hopen.2]
        rfl
      rw [Link.arrival?, Option.toList_some, List.flatMap_singleton,
        ← hchildren]
      exact Array.toList_appendList

/-- The notice of the new task is that of its link. The root is announced as
such, a guard not at all, and a child with its index. -/
theorem arrival?_placed_self (hready : Ready a) (task : T)
    (hopen : link.Open a) :
    (placed link task a).arrival? a.nextId = link.arrival? a := by
  have hroot : link ≠ .root → (placed link task a).root ≠ some a.nextId := by
    intro hlink heq
    rw [placed_root, if_neg hlink] at heq
    obtain ⟨-, s, hs, -⟩ := hready.wired.root _ heq
    exact ne_nextId_of_slot hs rfl
  rw [Arena.arrival?, (placed_self task hopen).1]
  cases link with
  | root =>
      rw [placed_root, if_pos rfl, if_pos rfl]
      rfl
  -- The new index is the number of children before, for the new task is not
  -- among them.
  | guard owner =>
      rw [if_neg (hroot fun h => by cases h)]
      rfl
  | child parent =>
      have hnew : a.nextId ∉ a.childrenOf parent := fun hmem =>
        hready.wired.child_ne_nextId hmem rfl
      rw [if_neg (hroot fun h => by cases h), Link.parent, Option.map_some,
        placed_childrenOf task hopen, if_pos rfl,
        List.idxOf_append_of_notMem hnew, List.idxOf_cons_self, Nat.add_zero]
      rfl

/-- The notices of the others stay what they were. -/
theorem arrival?_placed (hjoined : Joined a) (task : T) (hopen : link.Open a)
    {id : TaskId} (hid : id ≠ a.nextId) :
    (placed link task a).arrival? id = a.arrival? id := by
  -- An older task is the root as before, and has the index it had: the new
  -- child comes behind it.
  have hroot : (placed link task a).root = some id ↔ a.root = some id := by
    rw [placed_root]
    split
    · rename_i hlink
      subst hlink
      have hnone : a.root = none := hopen
      rw [hnone]
      exact ⟨fun h => absurd (Option.some.inj h).symm hid, fun h => nomatch h⟩
    · exact Iff.rfl
  have hindex : ∀ parent, a.parentOf id = some parent →
      ((placed link task a).childrenOf parent).idxOf id
        = (a.childrenOf parent).idxOf id := by
    intro parent hparent
    rw [placed_childrenOf task hopen]
    split
    · exact List.idxOf_append_of_mem (hjoined.parent id parent hparent)
    · rfl
  simp only [Arena.arrival?, hroot, (placed_old task hopen hid).1]
  cases hparent : a.parentOf id with
  | none => rfl
  | some parent => rw [Option.map_some, Option.map_some, hindex parent hparent]

/-- One more task has come, and it was announced last. -/
theorem Announced.placed {a₀ : Arena E T} {n : Nat} (h : Announced a₀ n a)
    (hready : Ready a) (hjoined : Joined a) (task : T) (hopen : link.Open a) :
    Announced a₀ (n + 1) (placed link task a) := by
  -- The tasks that came before are announced as they were.
  have hold : (handles a₀.slots.size n).filterMap
      (Arena.placed link task a).arrival?
      = (handles a₀.slots.size n).filterMap a.arrival? := by
    refine List.filterMap_congr fun id hid =>
      arrival?_placed hjoined task hopen ?_
    obtain ⟨i, hi, rfl⟩ := List.mem_map.1 hid
    refine ne_nextId ?_
    rw [h.size]
    exact (List.mem_range'_1.1 hi).2
  have hnext : (⟨a₀.slots.size + n⟩ : TaskId) = a.nextId :=
    congrArg TaskId.mk h.size.symm
  have hlisteners : (Arena.placed link task a).listeners = a.listeners := by
    cases link <;> rfl
  refine ⟨?_, hlisteners.trans h.listeners, ?_⟩
  · rw [placed_size, h.size, Nat.add_assoc]
  · have hnew : [a.nextId].filterMap (Arena.placed link task a).arrival?
        = (link.arrival? a).toList := by
      rw [← arrival?_placed_self hready task hopen]
      cases hnotice : (Arena.placed link task a).arrival? a.nextId with
      | none => rw [List.filterMap_cons_none hnotice]; rfl
      | some notice => rw [List.filterMap_cons_some hnotice]; rfl
    rw [entries_placed task hopen, h.entries, h.listeners, handles_succ, hnext,
      List.filterMap_append, List.flatMap_append, hold, hnew, List.append_assoc]

/-- Planting announces all tasks of a blueprint. -/
theorem announced_plant (hready : Ready a) (hjoined : Joined a)
    (hfree : link.Free a) (b : Blueprint T) :
    Announced a b.count (plant link b a) := by
  have hplaced : KeptByFilling (E := E) (fun _ : T => True)
      fun a' => Joined a' ∧ ∃ n, Announced a n a' := by
    intro link' task a' hready' h htask hfree'
    obtain ⟨hjoined', n, hannounced⟩ := h
    exact ⟨joined_placed link' task a' hready' hjoined' htask hfree', n + 1,
      hannounced.placed hready' hjoined' task hfree'.isOpen⟩
  obtain ⟨-, n, hannounced⟩ :=
    plant_fills hplaced b (b.all_of fun _ => trivial) hready
      ⟨hjoined, 0, .refl a⟩ hfree
  have hcount : n = b.count := by
    have hsize := hannounced.size
    rw [plant_size] at hsize
    omega
  exact hcount ▸ hannounced

-- ============================================================== a planting

/-- All that it comes to that a blueprint is planted. -/
structure Planted (link : Link) (b : Blueprint T)
    (a a' : Arena E T) : Prop where
  /-- Its tasks take the next slots in their order. -/
  rows : ∀ i, a'.slot? ⟨a.slots.size + i⟩ = (rows link a.slots.size b)[i]?
  announced : Announced a b.count a'
  /-- One link is added. -/
  old : ∀ id, id.index < a.slots.size → a'.slot? id
    = if link.from? = some id then (a.slot? id).map (link.mark a.nextId)
        else a.slot? id
  root : a'.root = if link = .root then some a.nextId else a.root
  rest : a'.board = a.board ∧ a'.status = a.status ∧ a'.fault = a.fault
    ∧ a'.dice = a.dice
    ∧ a'.rolled = a.rolled

/-- Planting puts the whole blueprint in its place, and changes nothing else. -/
theorem planted (hready : Ready a) (hjoined : Joined a) (hfree : link.Free a)
    (b : Blueprint T) :
    Planted link b a (plant link b a) where
  rows := plant_rows b hready.wired.nextId_ne hfree.isOpen
  announced := announced_plant hready hjoined hfree b
  old _ hid := plant_slot?_old b a hid
  root := by
    by_cases hlink : link = .root
    · subst hlink
      exact (plant_root_grown b a).root.trans (if_pos rfl).symm
    · exact (plant_grown link hlink b a).root.trans (if_neg hlink).symm
  rest := by
    have hplaced : KeptByPlacing (E := E) (fun _ : T => True) fun a' =>
        a'.board = a.board
        ∧ a'.status = a.status ∧ a'.fault = a.fault ∧ a'.dice = a.dice
        ∧ a'.rolled = a.rolled := by
      intro link' task a' _ h _ _
      cases link' <;> exact h
    exact plant_keeps hplaced b (b.all_of fun _ => trivial) hready
      ⟨rfl, rfl, rfl, rfl, rfl⟩ hfree.isOpen

/-- A call plants its blueprint, or it is refused for want of room. -/
theorem perform_cases (hready : Ready a) (hjoined : Joined a)
    (call : Construction T) :
    (¬ call.link.Vacant a ∧ ∃ fault, call.perform a = (.error fault, a))
      ∨ (call.link.Vacant a ∧ ∃ a', call.perform a = (.ok a.nextId, a')
        ∧ Planted call.link call.blueprint a a') := by
  rcases attempt_cases a call with ⟨hvacant, hattempt⟩ |
      ⟨hfull, fault, hattempt⟩
  · exact .inr ⟨hvacant, _, by rw [Construction.perform, hattempt],
      planted hready hjoined hvacant.free call.blueprint⟩
  · exact .inl ⟨hfull, fault, by rw [Construction.perform, hattempt]⟩

/-- A call of construction, accepted or refused, is part of a history. -/
theorem History.construct {fine : Bool} (h : History fine a)
    (call : Construction T) :
    History fine (call.perform a).2 := by
  rw [Construction.perform]
  split
  · rename_i id a' hattempt
    cases call with
    | setRoot root => exact h.setRoot hattempt
    | attach parent child => exact h.attach hattempt
    | setGuard owner guard => exact h.setGuard hattempt
  · exact h

end

end TaskTree.Arena
