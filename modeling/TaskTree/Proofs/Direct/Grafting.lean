/-
A tree that grows after it was planted.

`graft` puts a new tree under a link of an old one: as the last child of a
task, or as the guard of a task that has none. Planting a blueprint under
a task of an arena makes the tree that the arena bears the grafted tree
(`graft_bears`), whatever state the old tree is in.

The new tasks come to later slots than all old ones, wherever in the tree
they are linked. So the handles of the grafted tree are not in the order of
the slots, but they are the same handles: each handle is counted as often
as before, and once for every time that its tree is put in (`count_graft`).
-/
import TaskTree.Proofs.Arena.Wiring
import TaskTree.Proofs.Direct.Renewal

namespace TaskTree.Direct

open Arena Live

variable {E A : Type}

-- ========================================================= grafted trees

/-- What a task is guarded by once something is put under a link. -/
def guarded {α : Type} (link : Link) (self : TaskId) (new : α)
    (guard : Option α) : Option α :=
  if link = .guard self then some new else guard

/-- What comes after the children of a task once something is put under a
link. -/
def adopted {α : Type} (link : Link) (self : TaskId) (new : α) : List α :=
  if link = .child self then [new] else []

mutual

/-- A tree with a new one under a link. -/
def graft (link : Link) (new : Live E A) : Live E A → Live E A
  | .node self task stand guard children =>
    .node self task stand (guarded link self new (graftGuard link new guard))
      (graftAll link new children ++ adopted link self new)

/-- A guard with a new tree under a link. -/
def graftGuard (link : Link) (new : Live E A) :
    Option (Live E A) → Option (Live E A)
  | none => none
  | some guard => some (graft link new guard)

/-- A row of trees with a new tree under a link. -/
def graftAll (link : Link) (new : Live E A) : List (Live E A) → List (Live E A)
  | [] => []
  | child :: rest => graft link new child :: graftAll link new rest

end

section

variable {α β : Type} {link : Link} {self y : TaskId}

/-- What becomes of the guard may be looked at through any function, such as the
number of a task. -/
theorem guarded_map (f : α → β) (new : α) (guard : Option α) :
    (guarded link self new guard).map f
      = guarded link self (f new) (guard.map f) := by
  unfold guarded
  split <;> rfl

/-- The same for the children that are added. -/
theorem adopted_map (f : α → β) (new : α) :
    (adopted link self new).map f = adopted link self (f new) := by
  unfold adopted
  split <;> rfl

/-- A task from which the link does not go is left as it is. -/
theorem guarded_of_ne (hfrom : link.from? = some y) (hne : self ≠ y) (new : α)
    (guard : Option α) :
    guarded link self new guard = guard := by
  refine if_neg fun h => hne ?_
  rw [h] at hfrom
  exact Option.some.inj hfrom

/-- A task that the link does not go out from adopts nobody. -/
theorem adopted_of_ne (hfrom : link.from? = some y) (hne : self ≠ y) (new : α) :
    adopted link self new = [] := by
  refine if_neg fun h => hne ?_
  rw [h] at hfrom
  exact Option.some.inj hfrom

/-- The two links that go out from a task. -/
theorem from?_cases (hfrom : link.from? = some y) :
    link = .child y ∨ link = .guard y := by
  cases link with
  | root => cases hfrom
  | child parent => exact .inl (congrArg Link.child (Option.some.inj hfrom))
  | guard owner => exact .inr (congrArg Link.guard (Option.some.inj hfrom))

/-- A child link leaves the guards alone. -/
theorem guarded_child (new : α) (guard : Option α) :
    guarded (.child y) self new guard = guard :=
  if_neg fun h => nomatch h

/-- It gives its parent one child more. -/
theorem adopted_child (new : α) : adopted (.child self) self new = [new] :=
  if_pos rfl

/-- A guard link gives its owner the new guard. -/
theorem guarded_guard (new : α) (guard : Option α) :
    guarded (.guard self) self new guard = some new :=
  if_pos rfl

/-- It gives nobody a child. -/
theorem adopted_guard (new : α) : adopted (.guard y) self new = [] :=
  if_neg fun h => nomatch h

end

/-- A tree stands where it stood. -/
theorem graft_id (link : Link) (new live : Live E A) :
    (graft link new live).id = live.id := by
  cases live
  rw [graft]
  rfl

/-- Grafting onto children is grafting onto each of them. -/
theorem graftAll_eq_map (link : Link) (new : Live E A)
    (children : List (Live E A)) :
    graftAll link new children = children.map (graft link new) := by
  induction children with
  | nil => rfl
  | cons child rest ih => rw [graftAll, List.map_cons, ih]

/-- So they stand where they stood. -/
theorem graftAll_map_id (link : Link) (new : Live E A)
    (children : List (Live E A)) :
    (graftAll link new children).map Live.id = children.map Live.id := by
  rw [graftAll_eq_map, List.map_map]
  exact List.map_congr_left fun c _ => graft_id link new c

/-- And the guard does. -/
theorem graftGuard_map_id (link : Link) (new : Live E A)
    (guard : Option (Live E A)) :
    (graftGuard link new guard).map Live.id = guard.map Live.id := by
  cases guard with
  | none => rfl
  | some g => rw [graftGuard, Option.map_some, Option.map_some, graft_id]

/-- The root of the tree keeps its status. -/
theorem graft_status (link : Link) (new live : Live E A) :
    (graft link new live).status = live.status := by
  cases live
  rw [graft]
  rfl

/-- The children in two parts. -/
theorem graftAll_append (link : Link) (new : Live E A)
    (front back : List (Live E A)) :
    graftAll link new (front ++ back)
      = graftAll link new front ++ graftAll link new back := by
  rw [graftAll_eq_map, List.map_append, ← graftAll_eq_map, ← graftAll_eq_map]

/-- No child is lost or added below the task that takes the new tree. -/
theorem graftAll_length (link : Link) (new : Live E A)
    (children : List (Live E A)) :
    (graftAll link new children).length = children.length := by
  rw [graftAll_eq_map, List.length_map]

-- ============================================================ the handles

/-- A task that is to take a guard has none. -/
def Vacant (a : Arena E (Stock E A)) (link : Link) : Prop :=
  ∀ owner, link = .guard owner → a.guardOf owner = none

variable {a a' : Arena E (Stock E A)} {link : Link} {new live : Live E A}
  {role : Role} {y : TaskId}

/-- A task without a guard in the arena has none in the live tree. -/
theorem Holds.guard_eq_none {task : Stock E A} {status : Status}
    {guard : Option (Live E A)} {children : List (Live E A)}
    (h : Holds a role (.node y task status guard children))
    (hvacant : a.guardOf y = none) : guard = none := by
  rw [h.guardOf] at hvacant
  exact Option.map_eq_none_iff.1 hvacant

/-- What each child counts, they count together. -/
theorem count_graftAll {n : Nat} {x : TaskId} {children : List (Live E A)}
    (h : ∀ c ∈ children,
      (graft link new c).ids.count x = c.ids.count x + c.ids.count y * n) :
    (allIds (graftAll link new children)).count x
      = (allIds children).count x + (allIds children).count y * n := by
  induction children with
  | nil => rw [graftAll, allIds, List.count_nil, List.count_nil, Nat.zero_mul]
  | cons child rest ih =>
      rw [graftAll, allIds, allIds, List.count_append, List.count_append,
        List.count_append, h child List.mem_cons_self,
        ih fun c hc => h c (List.mem_cons_of_mem _ hc), Nat.add_mul]
      omega

/-- Every handle is counted as before, and once more for each time that its
tree is put in. -/
theorem count_graft (hfrom : link.from? = some y) (hvacant : Vacant a link)
    (x : TaskId) (h : Holds a role live) :
    (graft link new live).ids.count x
      = live.ids.count x + live.ids.count y * new.ids.count x := by
  induction live using Live.induction generalizing role with
  | step id task status guard children hguard hchildren =>
      -- The link goes out from a task without a guard, if it is a guard link.
      -- So the new guard is not counted in the place of another one.
      have hnone :=
        fun hlink : link = .guard id => h.guard_eq_none (hvacant id hlink)
      cases h with
      | node slot carries below beneath =>
          have hall := count_graftAll fun c hc => hchildren c hc (beneath c hc)
          have hbelow : (guardIds (graftGuard link new guard)).count x
              = (guardIds guard).count x + (guardIds guard).count y
                * new.ids.count x := by
            cases guard with
            | none =>
                rw [graftGuard, guardIds, List.count_nil, List.count_nil,
                  Nat.zero_mul]
            | some g => exact hguard g rfl (below g rfl)
          rw [graft, ids, ids]
          -- Either the new tree is put here, as a child or as a guard, or it is
          -- put below.
          by_cases hself : id = y
          · subst hself
            have hone : (if (id == id) = true then 1 else 0) = 1 :=
              if_pos (beq_self_eq_true id)
            rcases from?_cases hfrom with rfl | rfl
            · rw [guarded_child, adopted_child, allIds_append]
              simp only [List.count_cons, List.count_append, allIds,
                List.count_nil, hall, hbelow, hone, Nat.add_mul, Nat.one_mul]
              omega
            · obtain rfl := hnone rfl
              rw [guarded_guard, adopted_guard, List.append_nil]
              simp only [List.count_cons, List.count_append, guardIds,
                List.count_nil, hall, hone, Nat.add_mul, Nat.one_mul,
                Nat.zero_mul]
              omega
          · have hzero : (if (id == y) = true then 1 else 0) = 0 :=
              if_neg fun h => hself (eq_of_beq h)
            rw [guarded_of_ne hfrom hself, adopted_of_ne hfrom hself,
              List.append_nil]
            simp only [List.count_cons, List.count_append, hall, hbelow, hzero,
              Nat.add_mul, Nat.zero_mul]
            omega

-- ============================================================== the slots

variable [Deed E A]

omit [Deed E A] in
/-- A slot that is marked by a link carries one task more. -/
theorem Carries.marked {s : Slot (Stock E A)} {task : Stock E A}
    {stand : Status} {guardId : Option TaskId} {childIds : List TaskId}
    (h : Carries s role task stand guardId childIds)
    (hfrom : link.from? = some y) (x : TaskId) :
    Carries (link.mark x s) role task stand (guarded link y x guardId)
      (childIds ++ adopted link y x) := by
  rcases from?_cases hfrom with rfl | rfl
  · rw [guarded_child, adopted_child]
    exact { h with children := congrArg (· ++ [x]) h.children }
  · rw [guarded_guard, adopted_guard, List.append_nil]
    exact { h with guard := rfl }

omit [Deed E A] in
/-- The grafted tree is held by the arena in which the link is marked. -/
theorem Holds.graft (h : Holds a role live) (hfrom : link.from? = some y)
    (hmarked : a'.slot? y = (a.slot? y).map (link.mark new.id))
    (hothers : ∀ x ∈ live.ids, x ≠ y → a'.slot? x = a.slot? x)
    (hnew : Holds a' (roleOf link) new) :
    Holds a' role (graft link new live) := by
  induction live using Live.induction generalizing role with
  | step id task status guard children hguard hchildren =>
      cases h with
      | @node _ _ _ _ _ _ s slot carries below beneath =>
          rw [ids] at hothers
          -- Everything beneath the task is grafted in the arena, and the slots
          -- on the way are untouched but for the one that takes the new tree.
          have hbelow : HoldsGuard a' (graftGuard link new guard) := by
            intro g' hg'
            cases guard with
            | none => cases hg'
            | some g =>
                cases hg'
                exact hguard g rfl (below g rfl) fun x hx =>
                  hothers x (List.mem_cons_of_mem _ (List.mem_append_left _ hx))
          have hbeneath : HoldsAll a' id (graftAll link new children) := by
            intro c' hc'
            rw [graftAll_eq_map] at hc'
            obtain ⟨c, hc, rfl⟩ := List.mem_map.1 hc'
            exact hchildren c hc (beneath c hc) fun x hx => hothers x
              (List.mem_cons_of_mem _
                (List.mem_append_right _ (mem_allIds.2 ⟨c, hc, hx⟩)))
          rw [Direct.graft]
          -- That slot is marked, and holds the new tree as its child or as its
          -- guard.
          by_cases hself : id = y
          · subst hself
            rw [slot, Option.map_some] at hmarked
            refine .node hmarked ?_ ?_ ?_
            · rw [guarded_map, List.map_append, adopted_map, graftGuard_map_id,
                graftAll_map_id]
              exact carries.marked hfrom new.id
            · rcases from?_cases hfrom with rfl | rfl
              · rw [guarded_child]
                exact hbelow
              · rw [guarded_guard]
                exact fun g hg => Option.some.inj hg ▸ hnew
            · rcases from?_cases hfrom with rfl | rfl
              · rw [adopted_child]
                intro c hc
                rcases List.mem_append.1 hc with hc | hc
                · exact hbeneath c hc
                · exact List.mem_singleton.1 hc ▸ hnew
              · rw [adopted_guard, List.append_nil]
                exact hbeneath
          -- Any other slot is as it was.
          · rw [guarded_of_ne hfrom hself, adopted_of_ne hfrom hself,
              List.append_nil]
            refine .node ((hothers id List.mem_cons_self hself).trans slot) ?_
              hbelow hbeneath
            rw [graftGuard_map_id, graftAll_map_id]
            exact carries

-- =============================================================== the arena

variable {base : List (Listener × Notice)} {w : World E}

omit [Deed E A] in
/-- There is a slot at least, that of the guard evaluator. -/
theorem Bears.size_pos (h : Bears base a live w) : 0 < a.slots.size := by
  obtain ⟨s, hs, -⟩ := h.idle
  exact (Array.getElem?_eq_some_iff.1 hs).1

omit [Deed E A] in
/-- The handles of a tree are those of the arena's slots. -/
theorem Bears.index_lt (h : Bears base a live w) {x : TaskId}
    (hx : x ∈ live.ids) :
    x.index < a.slots.size := by
  rw [← h.tasks.mem_iff, Arena.tasks, List.mem_map] at hx
  obtain ⟨i, hi, rfl⟩ := hx
  have hlt := List.mem_range.1 hi
  show i + 1 < a.slots.size
  omega

omit [Deed E A] in
/-- Every task that may be linked from is a task of the tree. -/
theorem Bears.mem_ids (h : Bears base a live w) (hne : y ≠ .evaluator)
    (hsize : y.index < a.slots.size) : y ∈ live.ids := by
  obtain ⟨_ | i⟩ := y
  · exact absurd rfl hne
  · rw [← h.tasks.mem_iff, Arena.tasks, List.mem_map]
    exact ⟨i, List.mem_range.2 (Nat.lt_sub_of_add_lt hsize), rfl⟩

/-- The tasks of a planted blueprint come after the old ones. -/
theorem plant_tasks (link : Link) (b : Blueprint (Stock E A))
    (hsize : 0 < a.slots.size) :
    (plant link b a).tasks = a.tasks ++ (number a.slots.size b).ids := by
  have hsum : a.slots.size + b.count - 1 = (a.slots.size - 1) + b.count := by
    omega
  rw [Arena.tasks, Arena.tasks, plant_size, hsum, List.range_add,
    List.map_append, ids_number, List.range'_eq_map_range, List.map_map,
    List.map_map]
  refine congrArg _ (List.map_congr_left fun i _ => congrArg TaskId.mk ?_)
  show a.slots.size - 1 + i + 1 = a.slots.size + i
  omega

/-- A tree that is planted under a task of another is grafted to it. -/
theorem graft_bears (h : Bears base a live w) (hopen : link.Open a)
    (hfrom : link.from? = some y) (hvacant : Vacant a link)
    (b : Blueprint (Stock E A)) :
    Bears (plant link b a).told (plant link b a)
      (graft link (number a.slots.size b) live) (worldOf (plant link b a)) := by
  obtain ⟨new, hnew⟩ : ∃ new, new = number a.slots.size b := ⟨_, rfl⟩
  obtain ⟨hhidden, hin⟩ : y ≠ .evaluator ∧ y.index < a.slots.size := by
    rcases from?_cases hfrom with rfl | rfl <;> exact hopen
  have hlink : link ≠ .root := by
    rintro rfl
    cases hfrom
  have hother : ∀ x : TaskId, x ≠ y → link.from? ≠ some x := fun x hne hx => by
    rw [hfrom] at hx
    exact hne (Option.some.inj hx).symm
  -- The new tree stands in the grown arena, in its new slots.
  have hheld : Holds (plant link b a) (roleOf link) new := by
    rw [hnew]
    refine plant_holds link b a fun x hx => ?_
    rw [hfrom] at hx
    exact Option.some.inj hx ▸ hin
  rw [← hnew]
  -- The old tree stands there as well, with its one slot marked; the rest of
  -- its slots, and the idle one, are older than the new ones.
  refine ⟨?_, ?_, h.holds.graft hfrom ?_ (fun x hx hne => ?_) hheld,
    h.idle.congr ?_, shares_worldOf _⟩
  · rw [graft_id, (plant_grown link hlink b a).root, h.root]
  · -- the handle of the task that takes the new tree is counted once
    have honce : live.ids.count y = 1 := by
      rw [h.quiet.2.count, if_pos (h.mem_ids hhidden hin)]
    rw [plant_tasks link b h.size_pos, ← hnew]
    refine List.perm_iff_count.2 fun x => ?_
    rw [List.count_append, h.tasks.count_eq,
      count_graft hfrom hvacant x h.holds, honce, Nat.one_mul]
  · rw [plant_slot?_from b a hin hfrom, hnew, number_id]
    rfl
  · exact plant_slot?_other link b a (h.index_lt hx) (hother x hne)
  · exact plant_slot?_other link b a h.size_pos (hother _ hhidden.symm)

end TaskTree.Direct
