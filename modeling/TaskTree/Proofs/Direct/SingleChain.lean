/-
In an arena the running tasks are a single chain from the root.

Whatever happened to a tree of stock tasks, its arena bears a tree of the
direct evaluation, and that tree is chained as long as every step since its
creation or its last reset gave a status (`History.bears`). A tree that
grows in the middle of a run stays chained, since what is put in is calm
and comes after all children that are there (`Chained.graft`).

From this `History.singleChain` reads off what it means for the arena, task
by task.
-/
import TaskTree.Proofs.Arena.History
import TaskTree.Proofs.Direct.Chain

namespace TaskTree.Direct

open Arena Live

variable {E A : Type}

-- ============================================================ new trees

mutual

/-- A tree that was never entered is calm. -/
theorem calm_number (next : Nat) (b : Blueprint (Stock E A)) :
    Calm (number next b) := by
  match b with
  | .node task guard children =>
      rw [number]
      exact calm_node.2 ⟨(fun h => nomatch h), calm_numberGuard _ guard,
        calm_numberAll _ children⟩

/-- A numbered guard is calm. -/
theorem calm_numberGuard (next : Nat) (guard : Option (Blueprint (Stock E A))) :
    CalmGuard (numberGuard next guard) := by
  match guard with
  | none => exact fun g hg => nomatch hg
  | some guard => exact fun g hg => Option.some.inj hg ▸ calm_number next guard

/-- A numbered row is calm. -/
theorem calm_numberAll (next : Nat) (children : List (Blueprint (Stock E A))) :
    AllCalm (numberAll next children) := by
  match children with
  | [] => exact allCalm_nil
  | child :: rest =>
      exact allCalm_cons.2 ⟨calm_number next child, calm_numberAll _ rest⟩

end

mutual

/-- A renewed tree is calm. -/
theorem calm_renewed (live : Live E A) : Calm (renewed live) := by
  match live with
  | .node self task stand guard children =>
      rw [renewed]
      exact calm_node.2 ⟨(fun h => nomatch h), calm_renewedGuard guard,
        calm_renewedAll children⟩

/-- A renewed guard is calm. -/
theorem calm_renewedGuard (guard : Option (Live E A)) :
    CalmGuard (renewedGuard guard) := by
  match guard with
  | none => exact fun g hg => nomatch hg
  | some guard => exact fun g hg => Option.some.inj hg ▸ calm_renewed guard

/-- A renewed row is calm. -/
theorem calm_renewedAll (children : List (Live E A)) :
    AllCalm (renewedAll children) := by
  match children with
  | [] => exact allCalm_nil
  | child :: rest =>
      exact allCalm_cons.2 ⟨calm_renewed child, calm_renewedAll rest⟩

end

-- ======================================================== grafted trees

variable {link : Link} {new : Live E A}

/-- What is planted as a guard is calm, and so is a guard that was there. -/
theorem calm_guarded {guard : Option (Live E A)} (self : TaskId)
    (hnew : Calm new) (hguard : CalmGuard guard) :
    CalmGuard (guarded link self new guard) := by
  unfold guarded
  split
  · exact fun g hg => Option.some.inj hg ▸ hnew
  · exact hguard

/-- What is planted as a child is calm. -/
theorem calm_adopted (self : TaskId) (hnew : Calm new) :
    AllCalm (adopted link self new) := by
  unfold adopted
  split
  · exact allCalm_cons.2 ⟨hnew, allCalm_nil⟩
  · exact allCalm_nil

mutual

/-- A calm tree stays calm when a calm tree is grafted to it. -/
theorem calm_graft (live : Live E A) (h : Calm live) (hnew : Calm new) :
    Calm (graft link new live) := by
  match live with
  | .node self task stand guard children =>
      obtain ⟨hstatus, hbelow, hbeneath⟩ := calm_node.1 h
      rw [graft]
      exact calm_node.2
        ⟨hstatus, calm_guarded self hnew (calm_graftGuard guard hbelow hnew),
        allCalm_append.2
          ⟨calm_graftAll children hbeneath hnew, calm_adopted self hnew⟩⟩

/-- Planting below a calm guard leaves it calm. -/
theorem calm_graftGuard (guard : Option (Live E A)) (h : CalmGuard guard)
    (hnew : Calm new) :
    CalmGuard (graftGuard link new guard) := by
  match guard with
  | none => exact fun g hg => nomatch hg
  | some guard =>
      exact fun g hg => Option.some.inj hg ▸ calm_graft guard (h guard rfl) hnew

/-- Planting below a calm row leaves it calm. -/
theorem calm_graftAll (children : List (Live E A)) (h : AllCalm children)
    (hnew : Calm new) :
    AllCalm (graftAll link new children) := by
  match children with
  | [] => exact allCalm_nil
  | child :: rest =>
      obtain ⟨hchild, hrest⟩ := allCalm_cons.1 h
      exact allCalm_cons.2
        ⟨calm_graft child hchild hnew, calm_graftAll rest hrest hnew⟩

end

/-- A chained tree stays chained when a calm tree is grafted to it. By induction
over the chain: what is planted comes to stand off it, at the end of a row or in
a guard. -/
theorem Chained.graft {live : Live E A} (h : Chained live) (hnew : Calm new) :
    Chained (graft link new live) := by
  induction h with
  | calm rest => exact .calm (calm_graft _ rest hnew)
  -- The chain goes on through the same child. What is added goes behind it, and
  -- so keeps its place.
  | @composite mk _ id guard front back child hmk guarded before going chained
        after ih =>
      rw [Direct.graft, graftAll_append, graftAll, List.append_assoc,
        List.cons_append, ← graftAll_length link new front]
      exact .composite hmk
        (calm_guarded id hnew (calm_graftGuard guard guarded hnew))
        (calm_graftAll front before hnew)
        ((graft_status link new child).trans going) ih
        (allCalm_append.2 ⟨calm_graftAll back after hnew, calm_adopted id hnew⟩)
  | @single task id guard child back hsingle unspent guarded chained after ih =>
      rw [Direct.graft, graftAll, List.cons_append]
      exact .single hsingle unspent
        (calm_guarded id hnew (calm_graftGuard guard guarded hnew)) ih
        (allCalm_append.2 ⟨calm_graftAll back after hnew, calm_adopted id hnew⟩)
  | @leaf task id guard children hleaf guarded beneath =>
      rw [Direct.graft]
      exact .leaf hleaf
        (calm_guarded id hnew (calm_graftGuard guard guarded hnew))
        (allCalm_append.2
          ⟨calm_graftAll children beneath hnew, calm_adopted id hnew⟩)

-- ==================================================== the parts of a tree

/-- The trees that stand somewhere in a tree. -/
inductive Part (sub : Live E A) : Live E A → Prop where
  | self : Part sub sub
  | guard {id : TaskId} {task : Stock E A} {status : Status} {guard : Live E A}
      {children : List (Live E A)} (within : Part sub guard) :
      Part sub (.node id task status (some guard) children)
  | child {id : TaskId} {task : Stock E A} {status : Status}
      {guard : Option (Live E A)} {children : List (Live E A)}
      {child : Live E A} (mem : child ∈ children) (within : Part sub child) :
      Part sub (.node id task status guard children)

variable {sub live : Live E A} {a : Arena E (Stock E A)} {role : Role}
  {x : TaskId}

/-- Every handle of a tree is that of a part of it. -/
theorem mem_ids_iff : x ∈ live.ids ↔ ∃ sub, Part sub live ∧ sub.id = x := by
  constructor
  -- One way by induction on the tree, the other on the way to the part.
  · intro h
    induction live using Live.induction with
    | step id task status guard children hguard hchildren =>
        rw [ids, List.mem_cons, List.mem_append] at h
        rcases h with rfl | h | h
        · exact ⟨_, .self, rfl⟩
        · cases guard with
          | none => cases h
          | some g =>
              obtain ⟨sub, hpart, hid⟩ := hguard g rfl h
              exact ⟨sub, .guard hpart, hid⟩
        · obtain ⟨c, hc, hx⟩ := mem_allIds.1 h
          obtain ⟨sub, hpart, hid⟩ := hchildren c hc hx
          exact ⟨sub, .child hc hpart, hid⟩
  · rintro ⟨sub, hpart, rfl⟩
    induction hpart with
    | self => exact id_mem_ids sub
    | guard within ih =>
        rw [ids]
        exact List.mem_cons_of_mem _ (List.mem_append_left _ ih)
    | child mem within ih =>
        rw [ids]
        exact List.mem_cons_of_mem _
          (List.mem_append_right _ (mem_allIds.2 ⟨_, mem, ih⟩))

/-- A part of a part is a part. -/
theorem Part.trans {mid : Live E A} (h : Part sub mid) (h' : Part mid live) :
    Part sub live := by
  induction h' with
  | self => exact h
  | guard within ih => exact .guard ih
  | child mem within ih => exact .child mem ih

/-- What holds a tree holds its parts. -/
theorem Holds.part (h : Holds a role live) (hpart : Part sub live) :
    ∃ role, Holds a role sub := by
  induction hpart generalizing role with
  | self => exact ⟨role, h⟩
  | guard within ih =>
      cases h with
      | node slot carries below beneath => exact ih (below _ rfl)
  | child mem within ih =>
      cases h with
      | node slot carries below beneath => exact ih (beneath _ mem)

/-- The parts of a calm tree are calm. -/
theorem Calm.part (h : Calm live) (hpart : Part sub live) : Calm sub := by
  induction hpart with
  | self => exact h
  | guard within ih => exact ih ((calm_node.1 h).2.1 _ rfl)
  | child mem within ih => exact ih ((calm_node.1 h).2.2 _ mem)

/-- Every child of a chained task is chained: the one on the chain because it
continues it, the others because they are calm. -/
theorem Chained.child {id : TaskId} {task : Stock E A} {status : Status}
    {guard : Option (Live E A)} {children : List (Live E A)}
    (h : Chained (.node id task status guard children)) :
    ∀ c ∈ children, Chained c := by
  intro c hc
  cases h with
  | calm rest => exact .calm ((calm_node.1 rest).2.2 c hc)
  | composite hmk guarded before going chained after =>
      rcases List.mem_append.1 hc with hc | hc
      · exact .calm (before c hc)
      · rcases List.mem_cons.1 hc with rfl | hc
        · exact chained
        · exact .calm (after c hc)
  | single hsingle unspent guarded chained after =>
      rcases List.mem_cons.1 hc with rfl | hc
      · exact chained
      · exact .calm (after c hc)
  | leaf hleaf guarded beneath => exact .calm (beneath c hc)

/-- The parts of a chained tree are chained. -/
theorem Chained.part (h : Chained live) (hpart : Part sub live) :
    Chained sub := by
  induction hpart with
  | self => exact h
  | guard within ih => exact ih (.calm (h.calmGuard _ rfl))
  | child mem within ih => exact ih (h.child _ mem)

/-- A part of a chained tree that runs is all of it, or a child of a part that
runs. By induction along the way down to the running part. A guard is calm, so
the way does not enter one. -/
theorem Chained.upward (h : Chained live) (hpart : Part sub live)
    (hrunning : sub.status = .running) :
    sub = live ∨ ∃ id task guard children,
      Part (.node id task .running guard children) live
      ∧ sub ∈ children := by
  induction hpart with
  | self => exact .inl rfl
  | guard within ih =>
      have hcalm : Calm _ := h.calmGuard _ rfl
      exact absurd hrunning (hcalm.part within).status_ne
  | @child id task status guard children child mem within ih =>
      rcases ih (h.child _ mem) with rfl |
          ⟨id', task', guard', children', hup, hmem⟩
      -- The part is a child of this task: the task runs, or all its children
      -- are calm.
      · by_cases hstatus : status = .running
        · subst hstatus
          exact .inr ⟨id, task, guard, children, .self, mem⟩
        · have hbeneath : AllCalm children :=
            (calm_node.1 (h.calm_of_status hstatus)).2.2
          have hcalm : Calm sub := hbeneath _ mem
          exact absurd hrunning hcalm.status_ne
      · exact .inr ⟨id', task', guard', children', .child mem hup, hmem⟩

/-- Between calm trees the one that runs is found by its place. -/
theorem place_of_running {front back children : List (Live E A)}
    {child c : Live E A} (hsplit : children = front ++ child :: back)
    (hbefore : AllCalm front) (hafter : AllCalm back) {i : Nat}
    (hat : children[i]? = some c) (hrunning : c.status = .running) :
    i = front.length := by
  rw [hsplit] at hat
  rcases Nat.lt_trichotomy i front.length with hlt | heq | hgt
  · rw [List.getElem?_append_left hlt] at hat
    exact absurd hrunning (hbefore c (List.mem_of_getElem? hat)).status_ne
  · exact heq
  · obtain ⟨k, hk⟩ : ∃ k, i - front.length = k + 1 :=
      ⟨i - front.length - 1, by omega⟩
    rw [List.getElem?_append_right (Nat.le_of_lt hgt), hk,
      List.getElem?_cons_succ] at hat
    exact absurd hrunning (hafter c (List.mem_of_getElem? hat)).status_ne

section

variable {id : TaskId} {task : Stock E A} {status : Status}
  {guard : Option (Live E A)} {children : List (Live E A)}

/-- At most one child of a task in a chained tree runs. -/
theorem Chained.alone (h : Chained (.node id task status guard children))
    {i j : Nat} {c d : Live E A} (hc : children[i]? = some c)
    (hd : children[j]? = some d) (hcrun : c.status = .running)
    (hdrun : d.status = .running) : i = j := by
  cases h with
  | calm rest =>
      have hbeneath : AllCalm children := (calm_node.1 rest).2.2
      exact absurd hcrun (hbeneath c (List.mem_of_getElem? hc)).status_ne
  | composite _ _ before _ _ after =>
      exact (place_of_running rfl before after hc hcrun).trans
        (place_of_running rfl before after hd hdrun).symm
  | @single _ _ _ child back _ _ _ _ after =>
      have hsplit : child :: back = [] ++ child :: back := rfl
      exact (place_of_running hsplit allCalm_nil after hc hcrun).trans
        (place_of_running hsplit allCalm_nil after hd hdrun).symm
  | leaf _ _ beneath =>
      exact absurd hcrun (beneath c (List.mem_of_getElem? hc)).status_ne

/-- A composite that runs in a chained tree runs the child at its place. -/
theorem Chained.place {current : Nat}
    (h : Chained (.node id task .running guard children))
    (htask : task = .sequence current ∨ task = .selector current) :
    ∃ c, children[current]? = some c ∧ c.status = .running := by
  cases h with
  | calm rest => exact absurd rfl (calm_node.1 rest).1
  | @composite mk _ _ _ front back child hmk _ _ going _ _ =>
      have hcurrent : current = front.length := by
        cases hmk <;> rcases htask with htask | htask <;> cases htask <;> rfl
      rw [hcurrent]
      refine ⟨child, ?_, going⟩
      rw [List.getElem?_append_right (Nat.le_refl _), Nat.sub_self,
        List.getElem?_cons_zero]
  | single harity => rcases htask with rfl | rfl <;> cases harity
  | leaf harity => rcases htask with rfl | rfl <;> cases harity

end

/-- The child at a place, in the arena and in the tree. -/
theorem Holds.child_at {self : TaskId} {task : Stock E A} {status : Status}
    {guard : Option (Live E A)} {children : List (Live E A)}
    (h : Holds a role (.node self task status guard children)) {i : Nat}
    (hat : (a.childrenOf self)[i]? = some x) :
    ∃ c, children[i]? = some c ∧ c.id = x ∧ a.statusOf x = c.status := by
  rw [h.childrenOf, List.getElem?_map, Option.map_eq_some_iff] at hat
  obtain ⟨c, hc, rfl⟩ := hat
  cases h with
  | node slot carries below beneath =>
      exact ⟨c, hc, rfl, (beneath c (List.mem_of_getElem? hc)).statusOf⟩

-- ============================================================== the arena

section

variable [Deed E A] {base : List (Listener × Notice)} {w : World E}
  {a' : Arena E (Stock E A)}

omit [Deed E A] in
/-- A tree may be taken to begin in the present world. -/
theorem Bears.anew (h : Bears base a live w) :
    Bears a.told a live (worldOf a) :=
  { h with shares := shares_worldOf a }

/-- Nothing was planted yet. -/
structure Bare (a : Arena E (Stock E A)) : Prop where
  root : a.root = none
  size : a.slots.size = 1
  idle : Idle a

omit [Deed E A] in
/-- A bare arena has no tasks. -/
theorem Bare.tasks (h : Bare a) : a.tasks = [] := by
  rw [Arena.tasks, h.size]
  rfl

/-- The arena is a chained tree, or nothing was planted in it yet. The tree
need not be chained when a step of its present run has met a fault. -/
def Grows (fine : Bool) (a : Arena E (Stock E A)) : Prop :=
  Bare a ∨ ∃ live,
    Bears a.told a live (worldOf a) ∧ (fine = true → Chained live)

/-- A tree that is planted under a task of an arena with a chain. -/
theorem Grows.plant {fine : Bool} (h : Grows fine a) {y : TaskId}
    (hopen : link.Open a) (hfrom : link.from? = some y)
    (hvacant : Vacant a link) (b : Blueprint (Stock E A)) :
    Grows fine (plant link b a) := by
  rcases h with hbare | ⟨live, hbears, hchained⟩
  · obtain ⟨hne, hlt⟩ : y ≠ .evaluator ∧ y.index < a.slots.size := by
      rcases from?_cases hfrom with rfl | rfl <;> exact hopen
    rw [hbare.size] at hlt
    exact absurd (congrArg TaskId.mk (Nat.lt_one_iff.1 hlt)) hne
  · exact .inr ⟨_, graft_bears hbears hopen hfrom hvacant b, fun hfine =>
      (hchained hfine).graft (calm_number _ b)⟩

/-- A step keeps the tree, and after an accepted one the tree is still
chained. -/
theorem Grows.step {fine : Bool} (h : Grows fine a) {budget : Nat}
    {delta : Float32} {result : Except Fault Status}
    (hstep : Arena.step budget delta a = some (result, a')) :
    Grows (fine && result.isOk) a' := by
  rcases h with hbare | ⟨live, hbears, hchained⟩
  · rw [Arena.step, hbare.root] at hstep
    obtain ⟨-, rfl⟩ := Prod.mk.inj (Option.some.inj hstep)
    exact .inl hbare
  -- The step is the direct evaluator's, so what the tree is afterwards is what
  -- a turn leaves.
  · obtain ⟨a₁, hsettles, hafter, -⟩ := step_bears hbears delta
    obtain ⟨rfl, rfl⟩ := Prod.mk.inj ((step_settles hstep).unique hsettles)
    refine .inr ⟨_, hafter.anew, fun hfine => ?_⟩
    obtain ⟨hfine, hok⟩ := Bool.and_eq_true_iff.1 hfine
    rw [Direct.step] at hok ⊢
    cases hturn : (turn delta live (worldOf a)).result with
    | error fault =>
        rw [hturn] at hok
        cases hok
    | ok outcome =>
        exact (orderly delta live).turn _ outcome hturn (hchained hfine)

end

section

variable {base : List (Listener × Notice)} {w : World E}

/-- Every task of the arena is the task of a part of the tree. -/
theorem Bears.part (h : Bears base a live w) (hx : x ∈ a.tasks) :
    ∃ task status guard children role,
      Part (.node x task status guard children) live
      ∧ Holds a role (.node x task status guard children)
      ∧ a.statusOf x = status := by
  obtain ⟨⟨self, task, status, guard, children⟩, hpart, rfl⟩ :=
    mem_ids_iff.1 (h.tasks.mem_iff.1 hx)
  obtain ⟨role, hholds⟩ := h.holds.part hpart
  exact ⟨task, status, guard, children, role, hpart, hholds, hholds.statusOf⟩

/-- The parts of the tree are tasks of the arena. -/
theorem Bears.mem_tasks (h : Bears base a live w) (hpart : Part sub live) :
    sub.id ∈ a.tasks :=
  h.tasks.mem_iff.2 (mem_ids_iff.2 ⟨sub, hpart, rfl⟩)

end

end TaskTree.Direct

-- ============================================================ the chain

namespace TaskTree.Arena

open Direct Live

variable {E A : Type} [Deed E A] {a : Arena E (Stock E A)}

/-- Whatever happened to a tree of stock tasks, its arena bears a tree, and the
tree is chained while all has gone well. By induction over the calls. A bare
arena is left by `setRoot` only; in the others the tree is grafted, stepped or
renewed. -/
theorem History.grows {fine : Bool} (h : History fine a) : Grows fine a := by
  induction h with
  | empty board dice =>
      exact .inl ⟨rfl, rfl, Slot.of .evaluator none, rfl, rfl, rfl⟩
  | @setRoot fine a a' root id _ grown ih =>
      obtain ⟨hroot, rfl⟩ := setRoot_eq_ok grown
      rcases ih with hbare | ⟨live, hbears, -⟩
      · exact .inr ⟨_,
          mirrors_plant hbare.size hbare.idle root (shares_worldOf _)
            |>.toBears, fun _ => .calm (calm_number 1 root)⟩
      · rw [Link.Open, hbears.root] at hroot
        cases hroot
  -- Where there is no root there is nothing to attach to or to guard.
  | attach _ grown ih =>
      obtain ⟨hopen, rfl, -⟩ := attach_eq_ok grown
      exact ih.plant hopen rfl (fun _ h => by cases h) _
  | setGuard _ grown ih =>
      obtain ⟨hopen, rfl, s, hslot, hnone⟩ := setGuard_eq_ok grown
      refine ih.plant hopen rfl (fun owner howner => ?_) _
      cases howner
      rw [guardOf, hslot]
      exact hnone
  | step _ stepped ih => exact ih.step stepped
  | @reset fine a _ ih =>
      rcases ih with hbare | ⟨live, hbears, -⟩
      · refine .inl ⟨?_, ?_, ?_⟩ <;> simp only [Arena.reset, hbare.root]
        · exact hbare.size
        · exact hbare.idle.congr rfl
      · exact .inr ⟨_, (reset_bears hbears).1.anew,
          fun _ => .calm (calm_renewed live)⟩
  | @instantiate fine a _ board ih =>
      rcases ih with hbare | ⟨live, hbears, -⟩
      · refine .inl ⟨?_, ?_, ?_⟩
          <;> simp only [Arena.instantiate, Arena.anchorRoot, hbare.root]
        · exact (Array.size_map ..).trans hbare.size
        · exact hbare.idle.resetSlots fun x => Array.getElem?_map ..
      · exact .inr ⟨_, (instantiate_bears hbears board).1,
          fun _ => .calm (calm_renewed live)⟩
  | @outside fine a _ board listeners journal ih =>
      rcases ih with hbare | ⟨live, hbears, hchained⟩
      · exact .inl ⟨hbare.root, hbare.size, hbare.idle.congr rfl⟩
      · exact .inr ⟨live,
          ⟨hbears.root, hbears.tasks, hbears.holds.frame fun _ _ => rfl,
          hbears.idle.congr rfl, shares_worldOf _⟩, hchained⟩

/-- The tasks at and below a task, by the links to children and guards. -/
inductive Beneath (a : Arena E (Stock E A)) (top : TaskId) : TaskId → Prop where
  | self : Beneath a top top
  | child {x y : TaskId} (above : Beneath a top x) (link : y ∈ a.childrenOf x) :
      Beneath a top y
  | guard {x y : TaskId} (above : Beneath a top x)
      (link : a.guardOf x = some y) : Beneath a top y

/-- The running tasks are a single chain from the root, and no guard has a
part in it. -/
structure SingleChain (a : Arena E (Stock E A)) : Prop where
  /-- A running task is the root or a child of a running task. -/
  upward : ∀ x ∈ a.tasks, a.statusOf x = .running →
    a.root = some x ∨ ∃ p ∈ a.tasks,
      x ∈ a.childrenOf p ∧ a.statusOf p = .running
  /-- No task has two running children. -/
  alone : ∀ p ∈ a.tasks, ∀ (i j : Nat) (x y : TaskId),
    (a.childrenOf p)[i]? = some x → (a.childrenOf p)[j]? = some y →
    a.statusOf x = .running → a.statusOf y = .running → i = j
  /-- A running composite has a running child at its place, and only
  there. -/
  place : ∀ p ∈ a.tasks, ∀ current, a.statusOf p = .running →
    a.occupantOf p = some (.task (.sequence current))
      ∨ a.occupantOf p = some (.task (.selector current)) →
    ∀ i : Nat, (∃ x, (a.childrenOf p)[i]? = some x ∧ a.statusOf x = .running)
      ↔ i = current
  /-- Nothing runs in a guard. -/
  guards : ∀ owner ∈ a.tasks, ∀ guard, a.guardOf owner = some guard →
    ∀ x, Beneath a guard x → a.statusOf x ≠ .running

omit [Deed E A] in
/-- Everything at and below a held tree is a part of it. By induction along the
links: each of them leads from a part to one of its children or to its guard. -/
theorem Beneath.part {live : Live E A} {role : Role}
    (hholds : Holds a role live) {x : TaskId} (h : Beneath a live.id x) :
    ∃ sub, Part sub live ∧ sub.id = x := by
  induction h with
  | self => exact ⟨live, .self, rfl⟩
  | child above link ih =>
      obtain ⟨⟨self, task, status, guard, children⟩, hpart, rfl⟩ := ih
      obtain ⟨role', hholds'⟩ := hholds.part hpart
      rw [Live.id, hholds'.childrenOf, List.mem_map] at link
      obtain ⟨c, hc, rfl⟩ := link
      exact ⟨c, Part.trans (.child hc .self) hpart, rfl⟩
  | guard above link ih =>
      obtain ⟨⟨self, task, status, guard, children⟩, hpart, rfl⟩ := ih
      obtain ⟨role', hholds'⟩ := hholds.part hpart
      rw [Live.id, hholds'.guardOf, Option.map_eq_some_iff] at link
      obtain ⟨g, rfl, rfl⟩ := link
      exact ⟨g, Part.trans (.guard .self) hpart, rfl⟩

/-- Whatever happened to a tree of stock tasks, its running tasks are a
single chain from the root as long as all steps of the present run have
given a status. -/
theorem History.singleChain (h : History true a) : SingleChain a := by
  -- Without a root there are no tasks; with one, the statements about slots are
  -- read off the chained tree.
  rcases h.grows with hbare | ⟨live, hbears, hchained⟩
  · have hnone : ∀ x, x ∉ a.tasks := fun x hx => by
      rw [hbare.tasks] at hx
      cases hx
    exact ⟨fun x hx => absurd hx (hnone x), fun x hx => absurd hx (hnone x),
      fun x hx => absurd hx (hnone x), fun x hx => absurd hx (hnone x)⟩
  · have hchained := hchained rfl
    refine ⟨fun x hx hrunning => ?_, fun p hp i j x y hi hj hxrun hyrun => ?_,
      fun p hp current hrunning htask i => ?_,
      fun owner howner guard hguard x hbeneath => ?_⟩
    -- A running part other than the whole is a child of a running one.
    · obtain ⟨task, status, guard, children, role, hpart, hholds, hstatus⟩ :=
        hbears.part hx
      rcases hchained.upward hpart (hstatus.symm.trans hrunning) with
        rfl | ⟨p, task', guard', children', hup, hmem⟩
      · exact .inl hbears.root
      · obtain ⟨role', hholds'⟩ := hbears.holds.part hup
        refine .inr ⟨p, hbears.mem_tasks hup, ?_, hholds'.statusOf⟩
        rw [hholds'.childrenOf]
        exact List.mem_map_of_mem hmem
    -- Two running children of a part are the same child.
    · obtain ⟨task, status, guard, children, role, hpart, hholds, -⟩ :=
        hbears.part hp
      obtain ⟨c, hc, -, hcstatus⟩ := hholds.child_at hi
      obtain ⟨d, hd, -, hdstatus⟩ := hholds.child_at hj
      exact (hchained.part hpart).alone hc hd (hcstatus.symm.trans hxrun)
        (hdstatus.symm.trans hyrun)
    -- The running child of a composite is the one at its index.
    · obtain ⟨task, status, guard, children, role, hpart, hholds, hstatus⟩ :=
        hbears.part hp
      obtain rfl : status = .running := hstatus.symm.trans hrunning
      have hkind : task = .sequence current ∨ task = .selector current := by
        rw [hholds.occupantOf] at htask
        simpa only [Option.some.injEq, Occupant.task.injEq] using htask
      obtain ⟨c, hc, hcrun⟩ := (hchained.part hpart).place hkind
      constructor
      · rintro ⟨x, hx, hxrun⟩
        obtain ⟨d, hd, -, hdstatus⟩ := hholds.child_at hx
        exact (hchained.part hpart).alone hd hc
          (hdstatus.symm.trans hxrun) hcrun
      · rintro rfl
        have hat : (a.childrenOf p)[i]? = some c.id := by
          rw [hholds.childrenOf, List.getElem?_map, hc, Option.map_some]
        obtain ⟨d, hd, -, hdstatus⟩ := hholds.child_at hat
        rw [hc] at hd
        exact ⟨c.id, hat, hdstatus.trans (Option.some.inj hd ▸ hcrun)⟩
    -- A guard is calm, and so is all that lies beneath it.
    · obtain ⟨task, status, inner, children, role, hpart, hholds, -⟩ :=
        hbears.part howner
      rw [hholds.guardOf, Option.map_eq_some_iff] at hguard
      obtain ⟨g, rfl, rfl⟩ := hguard
      have hcalm : Calm g := (hchained.part hpart).calmGuard g rfl
      obtain ⟨role', hinner⟩ := hholds.part (.guard .self)
      obtain ⟨sub, hsub, rfl⟩ := hbeneath.part hinner
      obtain ⟨role'', hheld⟩ := hinner.part hsub
      rw [hheld.statusOf]
      exact (hcalm.part hsub).status_ne

/-- A deed that goes on as long as the board has something left. -/
inductive Patience where
  | patience

/-- A deed needs as many turns as its patience says, and the last succeeds. -/
instance : Deed Nat Patience where
  act deed left _ := (if left = 0 then .succeeded else .running, left - 1, deed)

/-- A second choice behind a guard, as a decorator of such a deed. -/
def patient : Blueprint (Stock Nat Patience) :=
  .node (.selector 0) none [.single .failure,
    .node .invert (some (.single .success))
      [.single (.action "wait" .patience)]]

/-- The chain goes through the second choice, and its guard stays out of
it. -/
theorem singleChain_patient :
    ∃ a, step 12 0 (ofBlueprint patient 3 id) = some (.ok .running, a)
      ∧ SingleChain a
      ∧ (a.tasks.filter fun x => a.statusOf x = .running)
        = [⟨1⟩, ⟨3⟩, ⟨5⟩] := by
  have hrun : (step 12 0 (ofBlueprint patient 3 id)).map
      (fun r =>
        (r.1.toOption, r.2.tasks.filter fun x => r.2.statusOf x = .running))
        = some (some .running, [⟨1⟩, ⟨3⟩, ⟨5⟩]) := by decide +kernel
  obtain ⟨⟨result, a⟩, hstep, hshown⟩ := Option.map_eq_some_iff.1 hrun
  obtain ⟨hresult, hchain⟩ := Prod.mk.inj hshown
  cases result with
  | error fault => cases hresult
  | ok status =>
      cases hresult
      have hstart : History true (ofBlueprint patient 3 id) :=
        (History.empty 3 id).setRoot rfl
      exact ⟨a, hstep, (hstart.step hstep).singleChain, hchain⟩

end TaskTree.Arena
