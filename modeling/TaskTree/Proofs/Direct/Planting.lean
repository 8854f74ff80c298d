/-
A planted blueprint is a tree that was never entered.

`plant_holds` follows a blueprint into its slots, by recursion over the
blueprint. What it needs of planting is that the slots of a subtree stay as
they are while its siblings are planted, since these come to later slots
and are linked from an earlier one. The handles of the tree are those of
the slots that were taken (`ids_number`), so they are as many different
ones as the blueprint has tasks.
-/
import TaskTree.Proofs.Arena.Planting
import TaskTree.Proofs.Direct.Report

namespace TaskTree.Direct

open Arena Live

variable {E A : Type}

-- ========================================================== the handles

mutual

/-- The handles of a numbered blueprint, in preorder. -/
theorem ids_number (next : Nat) (b : Blueprint (Stock E A)) :
    (number next b).ids = (List.range' next b.count).map TaskId.mk := by
  match b with
  | .node task guard children =>
      have hcount : (Blueprint.node task guard children).count
          = (Blueprint.countGuard guard + Blueprint.countAll children) + 1 := by
        rw [Blueprint.count]
        omega
      rw [hcount, number, ids, guardIds_number, allIds_number, List.range'_succ,
        ← List.range'_append_1, List.map_cons, List.map_append]

/-- A guard takes as many handles as it has tasks. -/
theorem guardIds_number (next : Nat) (guard : Option (Blueprint (Stock E A))) :
    guardIds (numberGuard next guard)
      = (List.range' next (Blueprint.countGuard guard)).map TaskId.mk := by
  match guard with
  | none => rfl
  | some guard => rw [numberGuard, guardIds, ids_number, Blueprint.countGuard]

/-- Children take theirs one after another. -/
theorem allIds_number (next : Nat) (children : List (Blueprint (Stock E A))) :
    allIds (numberAll next children)
      = (List.range' next (Blueprint.countAll children)).map TaskId.mk := by
  match children with
  | [] => rfl
  | child :: rest =>
      rw [numberAll, allIds, ids_number, allIds_number, Blueprint.countAll,
        ← List.range'_append_1, List.map_append]

end

/-- The handles of a numbered tree are those from the first one on, as many as
the tree has tasks. -/
theorem mem_ids_number {next : Nat} {b : Blueprint (Stock E A)} {x : TaskId} :
    x ∈ (number next b).ids ↔ next ≤ x.index ∧ x.index < next + b.count := by
  rw [ids_number, List.mem_map]
  constructor
  · rintro ⟨i, hi, rfl⟩
    exact List.mem_range'_1.1 hi
  · intro h
    exact ⟨x.index, List.mem_range'_1.2 h, rfl⟩

/-- Its root has the first of them. -/
theorem number_id (next : Nat) (b : Blueprint (Stock E A)) :
    (number next b).id = ⟨next⟩ := by
  cases b
  rfl

-- ============================================================ the slots

variable [Deed E A]

/-- The place of a task whose blueprint is planted under a link. -/
def roleOf : Link → Role
  | .root => .root
  | .child parent => .child parent
  | .guard _ => .guard

/-- The slot of a task that was just linked. The new slot is the one at the end;
the link changes another one, if it changes any. -/
theorem attachLink_slot?_self (link : Link) (task : Stock E A)
    (a : Arena E (Stock E A))
    (hfrom : ∀ x, link.from? = some x → x.index < a.slots.size) :
    ∃ s, (attachLink link a.nextId (a.occupy task link.parent)).slot?
      a.nextId = some s
      ∧ Carries s (roleOf link) task .fresh none [] := by
  have hnew := occupy_slot?_nextId a task link.parent
  cases link with
  | root =>
      refine ⟨{ Slot.of (.task task) Link.root.parent with
                control := some .tree }, ?_,
        ⟨rfl, rfl, rfl, (fun h => nomatch h), rfl, rfl, rfl⟩⟩
      rw [attachLink, slot?_announce, slot?_modify, if_pos rfl]
      show ((a.occupy task Link.root.parent).slot? a.nextId).map _ = _
      rw [hnew]
      rfl
  | child parent =>
      have hne := ne_nextId (hfrom parent rfl)
      refine ⟨Slot.of (.task task) (Link.child parent).parent, ?_,
        ⟨rfl, rfl, rfl, (fun h => nomatch h), rfl, rfl, rfl⟩⟩
      rw [attachLink, slot?_announce, slot?_modify, if_neg hne.symm, hnew]
  | guard owner =>
      have hne := ne_nextId (hfrom owner rfl)
      refine ⟨Slot.of (.task task) (Link.guard owner).parent, ?_,
        ⟨rfl, rfl, rfl, (fun h => nomatch h), rfl, rfl, rfl⟩⟩
      rw [attachLink, slot?_modify, if_neg hne.symm, hnew]

/-- The slot of a task whose guard is planted. -/
theorem plantGuard_slot?_owner (owner : TaskId)
    (guard : Option (Blueprint (Stock E A))) (a : Arena E (Stock E A))
    {s : Slot (Stock E A)} (hslot : a.slot? owner = some s)
    (hnone : s.guard = none) (hsize : owner.index < a.slots.size) :
    (plantGuard owner guard a).slot? owner
      = some
        { s with guard := (numberGuard a.slots.size guard).map Live.id } := by
  cases guard with
  | none =>
      rw [plantGuard, hslot, numberGuard, Option.map_none, ← hnone]
  | some guard =>
      rw [plantGuard, plant_slot?_from guard a hsize rfl, hslot, numberGuard,
        Option.map_some, Option.map_some, number_id]
      rfl

/-- The slot of a task whose children are planted. -/
theorem plantAll_slot?_parent (parent : TaskId)
    (children : List (Blueprint (Stock E A))) (a : Arena E (Stock E A))
    {s : Slot (Stock E A)} (hslot : a.slot? parent = some s)
    (hsize : parent.index < a.slots.size) :
    (plantAll parent children a).slot? parent
      = some { s with
               children := s.children
                 ++ (numberAll a.slots.size children).map Live.id } := by
  induction children generalizing a s with
  | nil => rw [plantAll, hslot, numberAll, List.map_nil, List.append_nil]
  | cons child rest ih =>
      have hfirst : (plant (.child parent) child a).slot? parent
          = some { s with children := s.children ++ [a.nextId] } := by
        rw [plant_slot?_from child a hsize rfl, hslot]
        rfl
      rw [plantAll, ih _ hfirst (by rw [plant_size]; omega), plant_size,
        numberAll, List.map_cons, number_id, List.append_assoc]
      rfl

mutual

/-- A planted blueprint is held by its arena. -/
theorem plant_holds (link : Link) (b : Blueprint (Stock E A))
    (a : Arena E (Stock E A))
    (hfrom : ∀ x, link.from? = some x → x.index < a.slots.size) :
    Holds (plant link b a) (roleOf link) (number a.slots.size b) := by
  match b with
  | .node task guard children =>
      -- The task in its slot, then with its guard, then with its children. What
      -- is planted later only adds to the slot of the task itself.
      obtain ⟨placed, hplaced⟩ : ∃ placed, placed
          = attachLink link a.nextId (a.occupy task link.parent) := ⟨_, rfl⟩
      obtain ⟨s, hslot, hcarries⟩ := attachLink_slot?_self link task a hfrom
      have hsize : placed.slots.size = a.slots.size + 1 := by
        rw [hplaced, attachLink_size, occupy, Array.size_push]
      rw [← hplaced] at hslot
      have hin : a.nextId.index < placed.slots.size := by
        rw [hsize, nextId]
        exact Nat.lt_succ_self _
      obtain ⟨guarded, hguarded⟩ : ∃ guarded,
          guarded = plantGuard a.nextId guard placed := ⟨_, rfl⟩
      have hsize' : guarded.slots.size
          = a.slots.size + 1 + Blueprint.countGuard guard := by
        rw [hguarded, plantGuard_size, hsize]
      -- The slot after the guard was planted, and after the children were.
      have hslot' :=
        plantGuard_slot?_owner a.nextId guard placed hslot hcarries.guard hin
      rw [← hguarded] at hslot'
      have hin' : a.nextId.index < guarded.slots.size := by omega
      have hslot'' :=
        plantAll_slot?_parent a.nextId children guarded hslot' hin'
      -- The guard and the children stand in the tree by induction.
      have hguard := plantGuard_holds a.nextId guard placed hin
      have hall := plantAll_holds a.nextId children guarded hin'
      rw [hsize] at hguard hslot''
      rw [hsize'] at hall hslot''
      rw [← hguarded] at hguard
      rw [plant, number, ← hplaced, ← hguarded]
      refine .node hslot'' ?_ (hguard.frame fun x hx => ?_) hall
      · exact { hcarries with
          guard := rfl
          children := by
            show s.children ++ _ = _
            rw [hcarries.children, List.nil_append] }
      -- The slots of the guard are older than those of the children, and none
      -- of them is the task's own.
      · rw [guardIds_number, List.mem_map] at hx
        obtain ⟨i, hi, rfl⟩ := hx
        have hbounds := List.mem_range'_1.1 hi
        refine plantAll_slot?_other _ _ _
          (by rw [hsize']; exact hbounds.2) fun heq => ?_
        have hindex : i = a.slots.size := congrArg TaskId.index heq
        omega

/-- A guard that is planted stands in the tree. -/
theorem plantGuard_holds (owner : TaskId)
    (guard : Option (Blueprint (Stock E A))) (a : Arena E (Stock E A))
    (howner : owner.index < a.slots.size) :
    HoldsGuard (plantGuard owner guard a) (numberGuard a.slots.size guard) := by
  match guard with
  | none => exact fun g hg => nomatch hg
  | some guard =>
      intro g hg
      cases hg
      exact plant_holds (.guard owner) guard a fun x hx =>
        Option.some.inj hx ▸ howner

/-- So do children. Each of them is left alone by those planted after it. -/
theorem plantAll_holds (parent : TaskId)
    (children : List (Blueprint (Stock E A))) (a : Arena E (Stock E A))
    (hparent : parent.index < a.slots.size) :
    HoldsAll (plantAll parent children a) parent
      (numberAll a.slots.size children) := by
  match children with
  | [] => exact fun c hc => nomatch hc
  | child :: rest =>
      have hchild :=
        plant_holds (.child parent) child a fun x hx =>
          Option.some.inj hx ▸ hparent
      have hrest := plantAll_holds parent rest (plant (.child parent) child a)
        (by rw [plant_size]; omega)
      rw [plant_size] at hrest
      intro c hc
      rw [numberAll] at hc
      -- The slots of the first child, which the planting of the others does not
      -- touch.
      rcases List.mem_cons.1 hc with rfl | hc
      · refine hchild.frame fun x hx => ?_
        obtain ⟨hlow, hhigh⟩ := mem_ids_number.1 hx
        have hold : x.index < (plant (.child parent) child a).slots.size := by
          rw [plant_size]
          exact hhigh
        refine plantAll_slot?_other _ _ _ hold fun heq => ?_
        rw [heq] at hlow
        omega
      · exact hrest c hc

end

end TaskTree.Direct
