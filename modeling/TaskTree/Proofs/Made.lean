/-
Blueprints as they can be made.

A blueprint begins as a task alone and grows child by child, or it gets a
row of children at once where its task takes so many. It gets one guard at
most, and it can be copied. What is `Made` like this has room for its
children everywhere, also in its guards and in theirs (`Fitting`).
-/
import TaskTree.Blueprint

namespace TaskTree.Blueprint

variable {E T : Type} [Behavior E T]

/-- The blueprints that can be made. -/
inductive Made : Blueprint T → Prop where
  | single (task : T) : Made (.single task)
  | row {task : T} {children : List (Blueprint T)}
      (room : ∀ limit, (Behavior.arity task).most = some limit →
        children.length ≤ limit)
      (parts : ∀ c ∈ children, Made c) : Made (.node task none children)
  | addChild {b child b' : Blueprint T} (before : Made b) (part : Made child)
      (added : b.addChild child = .ok b') : Made b'
  | setGuard {b guard b' : Blueprint T} (before : Made b) (part : Made guard)
      (guarded : b.setGuard guard = .ok b') : Made b'
  | renewed {b : Blueprint T} (before : Made b) : Made b.renewed

/-- No task of a blueprint has more children than it takes. -/
inductive Fitting : Blueprint T → Prop where
  | node {task : T} {guard : Option (Blueprint T)}
      {children : List (Blueprint T)}
      (room : ∀ limit, (Behavior.arity task).most = some limit →
        children.length ≤ limit) (below : ∀ g, guard = some g → Fitting g)
        (beneath : ∀ c ∈ children, Fitting c) :
      Fitting (.node task guard children)

/-- Renewal goes through the children one by one. -/
theorem renewedAll_eq_map (children : List (Blueprint T)) :
    renewedAll children = children.map renewed := by
  induction children with
  | nil => rfl
  | cons child rest ih => rw [renewedAll, ih, List.map_cons]

/-- A child is added where there is room for it. -/
theorem Fitting.addChild {b child b' : Blueprint T} (h : b.Fitting)
    (hchild : child.Fitting) (hadded : b.addChild child = .ok b') :
    b'.Fitting := by
  cases h with
  | @node task guard children room below beneath =>
      unfold Blueprint.addChild at hadded
      split at hadded
      · cases hadded
      · rename_i hnone
        cases hadded
        -- The new child fits, and there was room for it.
        refine .node (fun limit hlimit => ?_) below fun c hc => ?_
        · rw [List.length_append]
          exact Arity.exceeded?_eq_none_iff.1 hnone limit hlimit
        · rcases List.mem_append.1 hc with hc | hc
          · exact beneath c hc
          · rw [List.mem_singleton.1 hc]
            exact hchild

/-- A fitting guard makes a fitting tree. -/
theorem Fitting.setGuard {b guard b' : Blueprint T} (h : b.Fitting)
    (hguard : guard.Fitting) (hguarded : b.setGuard guard = .ok b') :
    b'.Fitting := by
  cases h with
  | node room below beneath =>
      unfold Blueprint.setGuard at hguarded
      split at hguarded
      · cases hguarded
      · cases hguarded
        exact .node room (fun g hg => Option.some.inj hg ▸ hguard) beneath

/-- A copy has as many children as the original. By induction over the tree:
renewal keeps the arity of every task, and with it the room. -/
theorem Fitting.renewed
    (hrewind : ∀ task : T,
      Behavior.arity (Behavior.rewind task) = Behavior.arity task)
    {b : Blueprint T} (h : b.Fitting) : b.renewed.Fitting := by
  induction h with
  | @node task guard children room below beneath hbelow hbeneath =>
      rw [Blueprint.renewed, renewedAll_eq_map]
      refine .node (fun limit hlimit => ?_) (fun g hg => ?_) fun c hc => ?_
      · rw [hrewind task] at hlimit
        rw [List.length_map]
        exact room limit hlimit
      · cases guard with
        | none => cases hg
        | some guard =>
            cases hg
            exact hbelow guard rfl
      · obtain ⟨child, hchild, rfl⟩ := List.mem_map.1 hc
        exact hbeneath child hchild

/-- What can be made has room for its children. -/
theorem Made.fitting
    (hrewind : ∀ task : T,
      Behavior.arity (Behavior.rewind task) = Behavior.arity task)
    {b : Blueprint T} (h : b.Made) : b.Fitting := by
  induction h with
  | single task =>
      exact .node (fun _ _ => Nat.zero_le _) (fun _ hg => nomatch hg)
        (List.forall_mem_nil _)
  | row room _ ih => exact .node room (fun _ hg => nomatch hg) ih
  | addChild _ _ added ih ihchild => exact ih.addChild ihchild added
  | setGuard _ _ guarded ih ihguard => exact ih.setGuard ihguard guarded
  | renewed _ ih => exact ih.renewed hrewind

end TaskTree.Blueprint
