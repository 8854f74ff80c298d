/-
The slots of an arena are one tree.

That a task has one place at most is said by `Wired`, and that no link
leads back by `Ranked`. What is missing to a tree is that every task has a
place at all: it is the root, or a child of the task that it holds for its
parent, or a guard (`Joined`). Planting keeps this as long as no task takes
the place of another, and construction refuses whatever would.

From a task that is not the root exactly one link leads back, to an earlier
slot. So the way from the root to a task is found by going back, and going
back from the ends of two ways shows that they are one way
(`follow_injective`). `OneTree` collects what the slots are then, and
`History.oneTree` says that nothing that happens to a tree changes it.
-/
import Mathlib.Data.List.Induction
import Mathlib.Data.List.Nodup
import Mathlib.Logic.ExistsUnique
import TaskTree.Proofs.Arena.Ranked

namespace TaskTree.Arena

variable {E T : Type}

-- ======================================================= every place taken

/-- Every task has a place, and a child is where its parent has it. -/
structure Joined (a : Arena E T) : Prop where
  parent : ∀ c parent, a.parentOf c = some parent → c ∈ a.childrenOf parent
  place : ∀ id, id ≠ .evaluator → (a.slot? id).isSome = true →
    a.root = some id ∨ (∃ parent, id ∈ a.childrenOf parent)
      ∨ ∃ owner, a.guardOf owner = some id
  /-- The guard evaluator is not guarded. -/
  unguarded : a.guardOf .evaluator = none

variable {a a' : Arena E T}

/-- What joins the tasks are the links. -/
theorem Joined.congr (h : Joined a) (hlinks : SameLinks a a') : Joined a' where
  parent c parent hc := by
    rw [hlinks.parentOf] at hc
    rw [hlinks.childrenOf]
    exact h.parent c parent hc
  place id hid hslot := by
    rw [hlinks.isSome] at hslot
    simp only [hlinks.root, hlinks.childrenOf, hlinks.guardOf]
    exact h.place id hid hslot
  unguarded := (hlinks.guardOf _).trans h.unguarded

section

variable [Behavior E T]

/-- In an empty arena there is nothing to join. -/
theorem joined_empty (board : E) (dice : Nat → Nat) :
    Joined (Arena.empty board dice : Arena E T) := by
  refine ⟨fun c parent hc => ?_, fun id hid hslot => ?_, rfl⟩
  · rw [parentOf, slot?_empty] at hc
    split at hc <;> cases hc
  · rw [slot?_empty, if_neg hid] at hslot
    cases hslot

/-- The new task is linked, and no other one loses its place to it. The new task
is joined by its place. All others keep the places they had, since a place was
free when it was taken. -/
theorem joined_placed : KeptByFilling (E := E) (fun _ : T => True) Joined := by
  intro link task a hready h _ hfree
  have hopen := hfree.isOpen
  have hnext := hready.wired.nextId_ne
  refine ⟨fun c parent hc => ?_, fun id hid hslot => ?_, ?_⟩
  · rw [placed_childrenOf task hopen]
    by_cases heq : c = a.nextId
    · subst heq
      rw [(placed_self task hopen).1] at hc
      cases link with
      | root | guard => cases hc
      | child parent' =>
          cases hc
          rw [if_pos rfl]
          exact List.mem_append_right _ List.mem_cons_self
    · rw [(placed_old task hopen heq).1] at hc
      have hold := h.parent c parent hc
      split
      · exact List.mem_append_left _ hold
      · exact hold
  · simp only [placed_childrenOf task hopen, placed_guardOf task hopen,
      placed_root]
    by_cases heq : id = a.nextId
    · subst heq
      cases link with
      | root => exact .inl (if_pos rfl)
      | child parent =>
          refine .inr (.inl ⟨parent, ?_⟩)
          rw [if_pos rfl]
          exact List.mem_append_right _ List.mem_cons_self
      | guard owner => exact .inr (.inr ⟨owner, if_pos rfl⟩)
    -- An older task has a slot of its own.
    · have hold : (a.slot? id).isSome = true := by
        rcases placed_cases task hopen id with ⟨hself, -⟩ | ⟨-, -, s, hs, -⟩ |
            ⟨-, -, hsame⟩
        · exact absurd hself heq
        · rw [hs]
          rfl
        · rwa [hsame] at hslot
      rcases h.place id hid hold with hroot | ⟨parent, hc⟩ | ⟨owner, hg⟩
      · have hlink : link ≠ .root := by
          rintro rfl
          have hnone : a.root = none := hopen
          exact nomatch hnone.symm.trans hroot
        exact .inl ((if_neg hlink).trans hroot)
      · refine .inr (.inl ⟨parent, ?_⟩)
        split
        · exact List.mem_append_left _ hc
        · exact hc
      · have hlink : link ≠ .guard owner := fun hlink =>
          nomatch (hfree.unguarded owner hlink).symm.trans hg
        exact .inr (.inr ⟨owner, (if_neg hlink).trans hg⟩)
  · have hlink : link ≠ .guard .evaluator := by
      rintro rfl
      exact hopen.1 rfl
    rw [placed_guardOf task hopen, if_neg hlink]
    exact h.unguarded

/-- A guard is planted where there is none. -/
theorem setGuard_free {owner id : TaskId} {guard : Blueprint T}
    (h : a.setGuard owner guard = .ok (id, a')) :
    (Link.guard owner).Free a := by
  obtain ⟨hopen, -, s, hs, hnone⟩ := setGuard_eq_ok h
  refine ⟨hopen, fun other heq => ?_⟩
  rw [← Link.guard.inj heq, guardOf, hs, Option.bind_some, hnone]

/-- Whatever happened to a tree, every task has a place. By induction over the
calls: three of them plant, and the others leave the links as they are. -/
theorem History.joined {fine : Bool} (h : History fine a) : Joined a := by
  induction h with
  | empty board dice => exact joined_empty board dice
  | setRoot before grown ih =>
      obtain ⟨hopen, rfl⟩ := setRoot_eq_ok grown
      exact plant_fills joined_placed _ (Blueprint.all_of (fun _ => trivial) _)
        before.ready ih hopen.free_root
  | attach before grown ih =>
      obtain ⟨hopen, rfl, -⟩ := attach_eq_ok grown
      exact plant_fills joined_placed _ (Blueprint.all_of (fun _ => trivial) _)
        before.ready ih hopen.free_child
  | setGuard before grown ih =>
      have hfree := setGuard_free grown
      obtain ⟨-, rfl, -⟩ := setGuard_eq_ok grown
      exact plant_fills joined_placed _ (Blueprint.all_of (fun _ => trivial) _)
        before.ready ih hfree
  | step before stepped ih =>
      exact ih.congr (step_seated before.ready.rest stepped).links
  | reset _ ih => exact ih.congr (sameLinks_reset _)
  | instantiate _ board ih => exact ih.congr (sameLinks_instantiate _ board)
  | outside _ board listeners journal ih => exact ih.congr ⟨rfl, .refl _⟩

end

-- =================================================================== paths

/-- A link that leads away from a task. -/
inductive Hop where
  | guard
  | child (index : Nat)
  deriving DecidableEq, Repr

/-- Where a link leads. -/
def hop (a : Arena E T) (id : TaskId) : Hop → Option TaskId
  | .guard => a.guardOf id
  | .child index => (a.childrenOf id)[index]?

/-- Where a path of links leads. -/
def follow (a : Arena E T) (id : TaskId) : List Hop → Option TaskId
  | [] => some id
  | hop :: path => (a.hop id hop).bind fun next => a.follow next path

/-- A path may be followed up to its last hop. -/
theorem follow_concat (id : TaskId) (path : List Hop) (hop : Hop) :
    a.follow id (path ++ [hop]) = (a.follow id path).bind fun last =>
      a.hop last hop := by
  induction path generalizing id with
  | nil =>
      rw [List.nil_append, follow, follow, Option.bind_some]
      exact Option.bind_fun_some _
  | cons first rest ih =>
      rw [List.cons_append, follow, follow, Option.bind_assoc]
      exact congrArg _ (funext fun next => ih next)

/-- The tasks are the slots but the evaluator's. -/
theorem mem_tasks {id : TaskId} :
    id ∈ a.tasks ↔ id ≠ .evaluator ∧ (a.slot? id).isSome = true := by
  obtain ⟨i⟩ := id
  simp only [tasks, List.mem_map, List.mem_range, slot?, TaskId.evaluator,
    TaskId.mk.injEq, ne_eq, isSome_getElem?]
  constructor
  · rintro ⟨j, hj, rfl⟩
    omega
  · rintro ⟨hne, hlt⟩
    exact ⟨i - 1, by omega, by omega⟩

/-- The slots of an arena, linked as one tree. -/
structure OneTree (a : Arena E T) : Prop where
  root : ∀ r, a.root = some r → r ∈ a.tasks
  /-- Links go from tasks to later tasks. -/
  hop : ∀ id hop target, a.hop id hop = some target →
    id ∈ a.tasks ∧ target ∈ a.tasks ∧ id.index < target.index
  /-- One path leads from the root to a task. -/
  path : ∀ id ∈ a.tasks,
    ∃ r, a.root = some r ∧ ∃! path, a.follow r path = some id
  parent : ∀ c parent, a.parentOf c = some parent ↔ c ∈ a.childrenOf parent
  nodup : ∀ parent, (a.childrenOf parent).Nodup
  rootless : ∀ r, a.root = some r → a.parentOf r = none
  guardless : ∀ owner g, a.guardOf owner = some g → a.parentOf g = none

section

variable (hwired : Wired a) (hranked : Ranked a) (hjoined : Joined a)

include hwired

/-- The root has no parent. -/
theorem parentOf_root {r : TaskId} (h : a.root = some r) :
    a.parentOf r = none := by
  obtain ⟨-, s, hs, hparent⟩ := hwired.root r h
  rw [parentOf, hs, Option.bind_some, hparent]

/-- A guard has no parent. -/
theorem parentOf_guard {owner g : TaskId} (h : a.guardOf owner = some g) :
    a.parentOf g = none := by
  obtain ⟨-, -, s, hs, hparent⟩ := hwired.guard owner g h
  rw [parentOf, hs, Option.bind_some, hparent]

/-- The root is at the end of no link. -/
theorem hop_ne_root {id r : TaskId} (h : a.root = some r) (hop : Hop) :
    a.hop id hop ≠ some r := by
  intro heq
  cases hop with
  | guard => exact (hwired.guard id r heq).2.1 h
  | child index =>
      have hchild := (hwired.child id r (List.mem_of_getElem? heq)).2
      exact nomatch (parentOf_root hwired h).symm.trans hchild

include hranked

/-- A task is at the end of one link. A child knows its parent and a guard has
none, so both links are of one kind. -/
theorem hop_injective {x y id : TaskId} {hop hop' : Hop}
    (h : a.hop x hop = some id) (h' : a.hop y hop' = some id) :
    x = y ∧ hop = hop' := by
  cases hop with
  | guard =>
      cases hop' with
      | guard => exact ⟨hranked.owner x y id h h', rfl⟩
      | child index =>
          have hchild := (hwired.child y id (List.mem_of_getElem? h')).2
          exact nomatch (parentOf_guard hwired h).symm.trans hchild
  | child index =>
      have hchild := (hwired.child x id (List.mem_of_getElem? h)).2
      cases hop' with
      | guard => exact nomatch (parentOf_guard hwired h').symm.trans hchild
      | child index' =>
          obtain rfl := Option.some.inj <|
            hchild.symm.trans (hwired.child y id (List.mem_of_getElem? h')).2
          obtain ⟨hlt, hget⟩ := List.getElem?_eq_some_iff.1 h
          obtain ⟨hlt', hget'⟩ := List.getElem?_eq_some_iff.1 h'
          have hindex :=
            (hwired.nodup x).getElem_inj_iff.1 (hget.trans hget'.symm)
          exact ⟨rfl, congrArg Hop.child hindex⟩

/-- Two paths from the root to one task are the same. The paths are taken apart
from their ends, where they meet. -/
theorem follow_injective {r : TaskId} (hroot : a.root = some r) {id : TaskId}
    {path path' : List Hop} (h : a.follow r path = some id)
    (h' : a.follow r path' = some id) : path = path' := by
  have hback : ∀ {last x : TaskId} {hop : Hop},
      a.hop last hop = some x → x ≠ r := by
    rintro last x hop hhop rfl
    exact hop_ne_root hwired hroot hop hhop
  induction path using List.reverseRecOn generalizing id path' with
  | nil =>
      obtain rfl := Option.some.inj h
      rcases List.eq_nil_or_concat' path' with rfl | ⟨front, hop, rfl⟩
      · rfl
      · rw [follow_concat] at h'
        obtain ⟨last, -, hlast⟩ := Option.bind_eq_some_iff.1 h'
        exact absurd rfl (hback hlast)
  -- The last hops lead to the same task, so they are one hop from one task, and
  -- the paths before them lead there.
  | append_singleton front hop ih =>
      rw [follow_concat] at h
      obtain ⟨last, hfront, hlast⟩ := Option.bind_eq_some_iff.1 h
      rcases List.eq_nil_or_concat' path' with rfl | ⟨front', hop', rfl⟩
      · exact absurd (Option.some.inj h').symm (hback hlast)
      · rw [follow_concat] at h'
        obtain ⟨last', hfront', hlast'⟩ := Option.bind_eq_some_iff.1 h'
        obtain ⟨rfl, rfl⟩ := hop_injective hwired hranked hlast hlast'
        rw [ih hfront hfront']

include hjoined

/-- Every link goes from a task to a later one. Both ends of a link are tasks,
and a link leads to the later one. -/
theorem hop_mem {id target : TaskId} {hop : Hop}
    (h : a.hop id hop = some target) :
    id ∈ a.tasks ∧ target ∈ a.tasks ∧ id.index < target.index := by
  simp only [mem_tasks]
  cases hop with
  | guard =>
      have hguard : a.guardOf id = some target := h
      have hid : id ≠ .evaluator := by
        rintro rfl
        exact nomatch hjoined.unguarded.symm.trans hguard
      obtain ⟨s, hs, -⟩ := Option.bind_eq_some_iff.1 hguard
      obtain ⟨hne, -, t, ht, -⟩ := hwired.guard id target hguard
      exact ⟨⟨hid, by rw [hs]; rfl⟩, ⟨hne, by rw [ht]; rfl⟩,
        hranked.guard id target hguard⟩
  | child index =>
      have hchild : target ∈ a.childrenOf id := List.mem_of_getElem? h
      obtain ⟨hid, hparent⟩ := hwired.child id target hchild
      have hslot : (a.slot? id).isSome = true := by
        cases hs : a.slot? id with
        | some s => rfl
        | none =>
            rw [childrenOf, hs] at hchild
            cases hchild
      obtain ⟨t, ht, -⟩ := Option.bind_eq_some_iff.1 hparent
      exact ⟨⟨hid, hslot⟩, ⟨hwired.child_ne hchild, by rw [ht]; rfl⟩,
        hranked.child id target hchild⟩

/-- From the root a path leads to every task. The path is found by going back,
to ever earlier slots. -/
theorem exists_path {id : TaskId} (hid : id ∈ a.tasks) :
    ∃ r path, a.root = some r ∧ a.follow r path = some id := by
  induction hn : id.index using Nat.strongRecOn generalizing id with
  | _ n ih =>
      have hback : ∀ (before : TaskId) (hop : Hop), a.hop before hop = some id →
          ∃ r path, a.root = some r ∧ a.follow r path = some id := by
        intro before hop hhop
        obtain ⟨hbefore, -, hlt⟩ := hop_mem hwired hranked hjoined hhop
        obtain ⟨r, path, hroot, hpath⟩ := ih _ (hn ▸ hlt) hbefore rfl
        refine ⟨r, path ++ [hop], hroot, ?_⟩
        rw [follow_concat, hpath]
        exact hhop
      obtain ⟨hne, hslot⟩ := mem_tasks.1 hid
      -- The task is the root, a child or a guard, and in the last two cases the
      -- path goes through the task it belongs to.
      rcases hjoined.place id hne hslot with hroot | ⟨parent, hchild⟩ |
          ⟨owner, hguard⟩
      · exact ⟨id, [], hroot, rfl⟩
      · obtain ⟨index, hindex⟩ := List.mem_iff_getElem?.1 hchild
        exact hback parent (.child index) hindex
      · exact hback owner .guard hguard

/-- The tasks are one tree: each of them is reached from the root along exactly
one path. -/
theorem oneTree : OneTree a where
  root r hroot := by
    obtain ⟨hne, s, hs, -⟩ := hwired.root r hroot
    exact mem_tasks.2 ⟨hne, by rw [hs]; rfl⟩
  hop _ _ _ h := hop_mem hwired hranked hjoined h
  path id hid := by
    obtain ⟨r, path, hroot, hpath⟩ := exists_path hwired hranked hjoined hid
    exact ⟨r, hroot, path, hpath,
      fun _ h => follow_injective hwired hranked hroot h hpath⟩
  parent c parent :=
    ⟨hjoined.parent c parent, fun h => (hwired.child parent c h).2⟩
  nodup := hwired.nodup
  rootless _ := parentOf_root hwired
  guardless _ _ := parentOf_guard hwired

end

/-- Whatever happened to a tree, it is one tree. -/
theorem History.oneTree [Behavior E T] {fine : Bool}
    (h : History fine a) : OneTree a :=
  Arena.oneTree h.ready.wired h.ranked h.joined

end TaskTree.Arena
