/-
A tree that begins anew.

`Live.renewed` is a tree as it stood before it was first entered. An arena
that bears a tree bears the renewed tree after a reset and as an
independent copy. The two are made in different ways, the copy slot by slot
and the reset along the links from the root. For the reset it has to be
shown that it comes to the end of every path: a path never visits a task
twice, so none is longer than the number of tasks, and that is less than
the number of slots, which bounds the reset.
-/
import TaskTree.Arena.Renewal
import TaskTree.Proofs.Direct.Lawful
import TaskTree.Proofs.Direct.Stepping

namespace TaskTree.Direct

open Arena Live

variable {E A : Type}

-- ========================================================= renewed trees

mutual

/-- A tree as it stood before it was first entered. -/
def renewed : Live E A → Live E A
  | .node self task _ guard children =>
    .node self task.rewind .fresh (renewedGuard guard) (renewedAll children)

/-- A guard renewed. -/
def renewedGuard : Option (Live E A) → Option (Live E A)
  | none => none
  | some guard => some (renewed guard)

/-- A row of trees renewed. -/
def renewedAll : List (Live E A) → List (Live E A)
  | [] => []
  | child :: rest => renewed child :: renewedAll rest

end

/-- Rewinding a task never turns it into one of another kind. -/
theorem rewind_kind (task : Stock E A) : task.rewind.kind = task.kind := by
  cases task <;> rfl

mutual

/-- Renewing touches tasks and statuses only, so what is left without them
stays. -/
theorem renewed_skeleton (live : Live E A) :
    (renewed live).skeleton = live.skeleton := by
  match live with
  | .node self task stand guard children =>
      rw [renewed, skeleton, skeleton, rewind_kind, renewedGuard_skeleton,
        renewedAll_skeletons]

/-- The same for the guard of a task, where there is one. -/
theorem renewedGuard_skeleton (guard : Option (Live E A)) :
    guardSkeleton (renewedGuard guard) = guardSkeleton guard := by
  match guard with
  | none => rfl
  | some guard =>
      rw [renewedGuard, guardSkeleton, guardSkeleton, renewed_skeleton]

/-- The same for children, one by one. -/
theorem renewedAll_skeletons (children : List (Live E A)) :
    skeletons (renewedAll children) = skeletons children := by
  match children with
  | [] => rfl
  | child :: rest =>
      rw [renewedAll, skeletons, skeletons, renewed_skeleton,
        renewedAll_skeletons]

end

/-- A renewed tree has the tasks of the tree, in the same order; read off the
skeleton, as the next two facts are. -/
theorem renewed_ids (live : Live E A) : (renewed live).ids = live.ids := by
  rw [← skeleton_ids, renewed_skeleton, skeleton_ids]

/-- A renewed tree stands at the same place. -/
theorem renewed_id (live : Live E A) : (renewed live).id = live.id := by
  rw [← skeleton_id, renewed_skeleton, skeleton_id]

/-- Whether every task has its children and its guard in order is a matter of
the skeleton, so renewing keeps it. -/
theorem renewed_sound {live : Live E A} (h : Sound live) :
    Sound (renewed live) := by
  rw [← sound_skeleton, renewed_skeleton, sound_skeleton]
  exact h

/-- A guard stands where it stood. -/
theorem renewedGuard_map_id (guard : Option (Live E A)) :
    (renewedGuard guard).map Live.id = guard.map Live.id := by
  rw [← guardSkeleton_map_id, renewedGuard_skeleton, guardSkeleton_map_id]

/-- Children stand where they stood, in their order. -/
theorem renewedAll_map_id (children : List (Live E A)) :
    (renewedAll children).map Live.id = children.map Live.id := by
  rw [← skeletons_map_id, renewedAll_skeletons, skeletons_map_id]

/-- Renewing children is renewing each of them. -/
theorem renewedAll_eq_map (children : List (Live E A)) :
    renewedAll children = children.map renewed := by
  induction children with
  | nil => rfl
  | cons child rest ih => rw [renewedAll, List.map_cons, ih]

variable [Deed E A] {base : List (Listener × Notice)} {w : World E}
  {a : Arena E (Stock E A)} {role : Role} {live : Live E A}

/-- A reset slot is the slot of the renewed task. -/
theorem Carries.reset {s : Slot (Stock E A)} {task : Stock E A} {stand : Status}
    {guard : Option (Live E A)} {children : List (Live E A)}
    (h : Carries s role task stand (guard.map Live.id) (children.map Live.id)) :
    Carries s.reset role task.rewind .fresh ((renewedGuard guard).map Live.id)
      ((renewedAll children).map Live.id) where
  occupant := by
    rw [Slot.reset, h.occupant]
    rfl
  name := by
    rw [← Stock.kind_name, rewind_kind, Stock.kind_name]
    exact h.name
  status := rfl
  control hrunning := nomatch hrunning
  guard := by
    -- Where the guard and the children stand is left as it was; only their own
    -- slots are reset.
    rw [renewedGuard_map_id]
    exact h.guard
  children := by
    rw [renewedAll_map_id]
    exact h.children
  inbox := rfl

-- ========================================================= link by link

/-- A reset from the top of a tree reaches all of it, and nothing else. -/
def Resets (live : Live E A) : Prop :=
  ∀ (base : List (Listener × Notice)) (role : Role) (a :
    Arena E (Stock E A)) (w : World E)
    (depth : Nat), Shares base a w → Holds a role live → live.ids.Nodup →
      live.ids.length ≤ depth →
    Holds (resetFrom depth live.id a) role (renewed live)
      ∧ Effect base live.ids a.fault w a (resetFrom depth live.id a)

/-- Resetting children one after another resets each of them, and leaves what
was reset before as it is. By induction on the children; the arena changes from
one to the next, and the tasks of different children are apart from each other.
-/
theorem resetAll_holds {parent : TaskId} {depth : Nat}
    {children : List (Live E A)} (h : ∀ c ∈ children, Resets c)
    (hshares : Shares base a w) (hholds : HoldsAll a parent children)
    (hnodup : (allIds children).Nodup)
    (hdepth : (allIds children).length ≤ depth) :
    HoldsAll ((children.map Live.id).foldl
      (fun a child => resetFrom depth child a) a) parent
        (renewedAll children)
      ∧ Effect base (allIds children) a.fault w a
          ((children.map Live.id).foldl
            (fun a child => resetFrom depth child a) a) := by
  induction children generalizing a with
  | nil => exact ⟨(fun c hc => nomatch hc), Effect.refl hshares⟩
  | cons c rest ih =>
      rw [allIds] at hnodup hdepth ⊢
      rw [List.length_append] at hdepth
      obtain ⟨hfirst, hlater, hapart⟩ := List.nodup_append.1 hnodup
      obtain ⟨hchild, heffect⟩ :=
        h c List.mem_cons_self base (.child parent) a w depth hshares
          (hholds c List.mem_cons_self) hfirst (by omega)
      -- The first child's reset has touched none of the other children.
      have hrest : HoldsAll (resetFrom depth c.id a) parent rest :=
        HoldsAll.frame (fun d hd => hholds d (List.mem_cons_of_mem _ hd))
          fun x hx => heffect.slots x fun hmem => hapart x hmem x hx rfl
      obtain ⟨hall, heffect'⟩ :=
        ih (fun d hd => h d (List.mem_cons_of_mem _ hd)) heffect.shares
          hrest hlater (by omega)
      -- The fault of the arena does not change on the way, so the effects can
      -- be put together.
      rw [heffect.fault] at heffect'
      rw [List.map_cons, List.foldl_cons, renewedAll]
      refine ⟨fun d hd => ?_, (heffect.mono (List.subset_append_left _ _)).trans
        (heffect'.mono (List.subset_append_right _ _))⟩
      rcases List.mem_cons.1 hd with rfl | hd
      · refine hchild.frame fun x hx => heffect'.slots x fun hmem => ?_
        rw [renewed_ids] at hx
        exact hapart x hx x hmem rfl
      · exact hall d hd

/-- Resetting a guard, where there is one, resets it. -/
theorem resetGuard_holds {depth : Nat} {guard : Option (Live E A)}
    (h : ∀ g, guard = some g → Resets g) (hshares : Shares base a w)
    (hholds : HoldsGuard a guard) (hnodup : (guardIds guard).Nodup)
    (hdepth : (guardIds guard).length ≤ depth) :
    let a' := match guard.map Live.id with
      | none => a
      | some guard => resetFrom depth guard a
    HoldsGuard a' (renewedGuard guard)
      ∧ Effect base (guardIds guard) a.fault w a a' := by
  cases guard with
  | none => exact ⟨(fun g hg => nomatch hg), Effect.refl hshares⟩
  | some g =>
      obtain ⟨hholds', heffect⟩ :=
        h g rfl base .guard a w depth hshares (hholds g rfl) hnodup hdepth
      refine ⟨fun g' hg' => ?_, heffect⟩
      cases hg'
      exact hholds'

/-- Every live tree is one that a reset renews. In the order in which the arena
does it: the task itself, its guard, its children. -/
theorem resets (live : Live E A) : Resets live := by
  induction live using Live.induction with
  | step id task status guard children hguard hchildren =>
      intro base role a w depth hshares hholds hnodup hdepth
      rw [ids] at hnodup hdepth ⊢
      rw [Live.id]
      rw [List.length_cons, List.length_append] at hdepth
      obtain ⟨hout, hbelow⟩ := List.nodup_cons.1 hnodup
      obtain ⟨hguardIds, hallIds, hapart⟩ := List.nodup_append.1 hbelow
      -- The depth is at least the number of tasks, so it is not used up before
      -- the leaves are.
      obtain ⟨depth, rfl⟩ : ∃ d, depth = d + 1 := ⟨depth - 1, by omega⟩
      cases hholds with
      | @node _ _ _ _ _ _ s slot carries below beneath =>
          -- The task itself: its slot is reset, and no other slot is touched.
          have hself : id ∈ id :: (guardIds guard ++ allIds children) :=
            List.mem_cons_self
          obtain ⟨a₁, ha₁⟩ : ∃ a₁, a₁ = a.modify id Slot.reset := ⟨_, rfl⟩
          have hslot₁ : a₁.slot? id = some s.reset := by
            rw [ha₁, slot?_modify, if_pos rfl, slot]
            rfl
          have hother₁ : ∀ x ∈ guardIds guard ++ allIds children,
              a₁.slot? x = a.slot? x := by
            intro x hx
            have hne : x ≠ id := fun heq => hout (heq ▸ hx)
            rw [ha₁, slot?_modify, if_neg hne]
          have hfirst : Effect base (id :: (guardIds guard ++ allIds children))
              a.fault w a a₁ := by
            rw [ha₁]
            exact (Effect.refl hshares).modify hself _
          obtain ⟨hguard₂, heffect₂⟩ := resetGuard_holds hguard hfirst.shares
            (HoldsGuard.frame below fun x hx =>
              hother₁ x (List.mem_append_left _ hx)) hguardIds
            (by omega : (guardIds guard).length ≤ depth)
          obtain ⟨a₂, ha₂⟩ : ∃ a₂, a₂ = (match guard.map Live.id with
            | none => a₁
            | some guard =>
                resetFrom depth guard a₁ : Arena E (Stock E A)) := ⟨_, rfl⟩
          rw [← ha₂] at hguard₂ heffect₂
          have hslot₂ : a₂.slot? id = some s.reset := by
            rw [heffect₂.slots id fun hmem =>
                hout (List.mem_append_left _ hmem), hslot₁]
          obtain ⟨hall₃, heffect₃⟩ := resetAll_holds hchildren heffect₂.shares
            (HoldsAll.frame beneath fun x hx => by
              rw [heffect₂.slots x fun hmem => hapart x hmem x hx rfl,
                hother₁ x (List.mem_append_right _ hx)]) hallIds
            (by omega : (allIds children).length ≤ depth)
          -- What the arena runs through are the guard and the children that the
          -- slot names, and those are the tree's.
          have hreset : resetFrom (depth + 1) id a
              = (children.map Live.id).foldl
                (fun a child => resetFrom depth child a) a₂ := by
            have hguardOf : a₁.guardOf id = guard.map Live.id := by
              rw [guardOf, hslot₁]
              exact carries.guard
            have hchildrenOf : a₂.childrenOf id = children.map Live.id := by
              rw [childrenOf, hslot₂]
              exact carries.children
            rw [← hchildrenOf, ha₂, ← hguardOf, ha₁]
            rfl
          rw [hreset, renewed]
          rw [heffect₂.fault] at heffect₃
          rw [hfirst.fault] at heffect₂ heffect₃
          -- Each of the three parts, with nothing in it touched by the two
          -- others.
          refine ⟨.node ?_ carries.reset (hguard₂.frame fun x hx => ?_) hall₃,
            (hfirst.trans (heffect₂.mono fun x hx => ?_)).trans
              (heffect₃.mono fun x hx => ?_)⟩
          · rw [heffect₃.slots id fun hmem =>
                hout (List.mem_append_right _ hmem), hslot₂]
          · rw [← guardSkeleton_ids, renewedGuard_skeleton,
              guardSkeleton_ids] at hx
            exact heffect₃.slots x fun hmem => hapart x hx x hmem rfl
          · exact List.mem_cons_of_mem _ (List.mem_append_left _ hx)
          · exact List.mem_cons_of_mem _ (List.mem_append_right _ hx)

omit [Deed E A] in
/-- The root may be told again who receives its reports. -/
theorem Bears.anchorRoot (h : Bears base a live w) :
    Bears base a.anchorRoot live w := by
  have hanchor : a.anchorRoot = a.modify live.id fun s =>
      { s with control := some .tree } := by
    rw [Arena.anchorRoot, h.root]
  obtain ⟨hhidden, hnodup⟩ := h.quiet
  -- What must be shown first of all: the root's slot is not the slot that
  -- idles.
  have hholds := h.holds
  have htasks := h.tasks
  rw [hanchor]
  refine ⟨h.root, ?_, ?_, h.idle.congr ?_, { h.shares with }⟩
  · rw [tasks_congr (modify_size ..)]
    exact htasks
  · cases hholds with
    | @node _ id _ _ _ _ s slot carries below beneath =>
        rw [ids] at hnodup
        have hother : ∀ x ∈ guardIds _ ++ allIds _, x ≠ id := fun x hx heq =>
          (List.nodup_cons.1 hnodup).1 (heq ▸ hx)
        rw [Live.id]
        have hslot :
            (a.modify id fun s => { s with control := some .tree }).slot? id
            = some { s with control := some .tree } := by
          rw [slot?_modify, if_pos rfl, slot, Option.map_some]
        refine .node hslot { carries with control := fun _ => rfl }
          (HoldsGuard.frame below fun x hx => ?_)
          (HoldsAll.frame beneath fun x hx => ?_)
        · rw [slot?_modify, if_neg (hother x (List.mem_append_left _ hx))]
        · rw [slot?_modify, if_neg (hother x (List.mem_append_right _ hx))]
  · rw [slot?_modify, if_neg]
    intro heq
    exact hhidden (heq ▸ id_mem_ids live)

omit [Deed E A] in
/-- Setting the control of the root adds no task. -/
theorem anchorRoot_tasks (a : Arena E (Stock E A)) :
    a.anchorRoot.tasks = a.tasks := by
  rw [Arena.anchorRoot]
  split
  · rfl
  · exact tasks_congr (modify_size ..)

/-- A reset makes a tree the renewed tree, and changes nothing in the
world. -/
theorem reset_bears (h : Bears base a live w) :
    Bears base a.reset (renewed live) w ∧ a.reset.tasks = a.tasks := by
  obtain ⟨hhidden, hnodup⟩ := h.quiet
  -- The arena resets to a depth of as many slots as it has, and each task has
  -- one.
  have hdepth : live.ids.length ≤ a.slots.size := by
    rw [← h.tasks.length_eq, tasks, List.length_map, List.length_range]
    exact Nat.sub_le _ _
  obtain ⟨hholds, heffect⟩ :=
    resets live base .root a w a.slots.size h.shares h.holds hnodup hdepth
  have htasks : (resetFrom a.slots.size live.id a).tasks = a.tasks :=
    tasks_congr heffect.size
  -- The reset arena bears the renewed tree; setting control of the root at last
  -- changes nothing of that.
  have hreset : Bears base (resetFrom a.slots.size live.id a)
      (renewed live) w := by
    refine ⟨?_, ?_, hholds, heffect.idle hhidden h.idle, heffect.shares⟩
    · rw [renewed_id, heffect.root, h.root]
    · rw [renewed_ids, htasks]
      exact h.tasks
  have hanchored := hreset.anchorRoot
  rw [Arena.reset, h.root]
  exact ⟨⟨hanchored.root, hanchored.tasks, hanchored.holds.frame fun _ _ => rfl,
    hanchored.idle.congr rfl, { hanchored.shares with }⟩,
    (anchorRoot_tasks _).trans htasks⟩

/-- The same with the order of the tasks in the arena. -/
theorem reset_mirrors (h : Mirrors base a live w) :
    Mirrors base a.reset (renewed live) w := by
  obtain ⟨hbears, htasks⟩ := reset_bears h.toBears
  refine ⟨hbears, ?_⟩
  rw [htasks, h.order, renewed_ids]

-- ========================================================= slot by slot

/-- The world of an arena in which nothing was told yet. -/
def worldOf (a : Arena E (Stock E A)) : World E :=
  { board := a.board, dice := a.dice, rolled := a.rolled, notices := [] }

omit [Deed E A] in
/-- A world that is taken from the arena as it is has nothing to catch up
with. -/
theorem shares_worldOf (a : Arena E (Stock E A)) :
    Shares a.told a (worldOf a) :=
  ⟨rfl, rfl, rfl, (List.append_nil _).symm⟩

/-- When every slot is reset at once, a tree that the arena holds is renewed all
over. -/
theorem Holds.resetSlots {a' : Arena E (Stock E A)} (h : Holds a role live)
    (hslots : ∀ x, a'.slot? x = (a.slot? x).map Slot.reset) :
    Holds a' role (renewed live) := by
  induction live using Live.induction generalizing role with
  | step id task status guard children hguard hchildren =>
      cases h with
      | node slot carries below beneath =>
          rw [renewed]
          refine .node ?_ carries.reset (fun g hg => ?_) (fun c hc => ?_)
          · rw [hslots, slot, Option.map_some]
          · cases guard with
            | none => cases hg
            | some g' =>
                cases hg
                exact hguard g' rfl (below g' rfl)
          · rw [renewedAll_eq_map, List.mem_map] at hc
            obtain ⟨c', hc', rfl⟩ := hc
            exact hchildren c' hc' (beneath c' hc')

/-- A slot that idles still idles after its reset. -/
theorem Idle.resetSlots {a' : Arena E (Stock E A)} (h : Idle a)
    (hslots : ∀ x, a'.slot? x = (a.slot? x).map Slot.reset) : Idle a' := by
  obtain ⟨s, hslot, hoccupant, -⟩ := h
  refine ⟨s.reset, by rw [hslots, hslot, Option.map_some], ?_, rfl⟩
  rw [Slot.reset, hoccupant]
  rfl

/-- A copy of a tree is the renewed tree, in a world of its own. -/
theorem instantiate_bears (h : Bears base a live w) (board : E) :
    Bears (a.instantiate board).told (a.instantiate board) (renewed live)
        (worldOf (a.instantiate board))
      ∧ (a.instantiate board).tasks = a.tasks := by
  obtain ⟨copy, hcopy⟩ : ∃ copy : Arena E (Stock E A), copy =
    { a with
      slots := a.slots.map Slot.reset
      board := board
      status := .fresh
      listeners := []
      fault := none
      journal := #[] } := ⟨_, rfl⟩
  have hslots : ∀ x, copy.slot? x = (a.slot? x).map Slot.reset := fun x => by
    rw [hcopy]
    exact Array.getElem?_map ..
  have htasks : copy.tasks = a.tasks :=
    tasks_congr (by rw [hcopy, Array.size_map])
  -- The copy is told of nothing yet, so it has a world of its own.
  have hbears : Bears copy.told copy (renewed live) (worldOf copy) := by
    refine ⟨?_, ?_, h.holds.resetSlots hslots, h.idle.resetSlots hslots,
      shares_worldOf copy⟩
    · rw [hcopy, renewed_id]
      exact h.root
    · rw [renewed_ids, htasks]
      exact h.tasks
  have hanchored := hbears.anchorRoot
  have hinstance : a.instantiate board = copy.anchorRoot := by
    rw [hcopy]
    rfl
  rw [hinstance]
  exact ⟨{ hanchored with shares := shares_worldOf _ },
    (anchorRoot_tasks _).trans htasks⟩

theorem instantiate_mirrors (h : Mirrors base a live w) (board : E) :
    Mirrors (a.instantiate board).told (a.instantiate board) (renewed live)
      (worldOf (a.instantiate board)) := by
  obtain ⟨hbears, htasks⟩ := instantiate_bears h.toBears board
  refine ⟨hbears, ?_⟩
  rw [htasks, h.order, renewed_ids]

end TaskTree.Direct
