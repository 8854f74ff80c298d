/-
Trees whose steps can go wrong in one way only.

A tree is `Sound` if every task in it, guards included, has the children
without which it cannot run, and no task is an action, whose deed may leave
out its report. On such a tree every turn ends with a report, or with a
guard that came to no end (`step_lawful`). Soundness is a matter of the
tree's skeleton, so that no turn ends it (`turn_sound`), whether the turn
came to its end or was broken off.
-/
import TaskTree.Proofs.Direct.Shape

namespace TaskTree

/-- Whether every update of a task ends with a report. -/
def Stock.speaks {E A : Type} : Stock E A → Bool
  | .action _ _ => false
  | _ => true

/-- Whether a task speaks is a matter of its kind. -/
@[simp] theorem Stock.kind_speaks {E A : Type} (task : Stock E A) :
    task.kind.speaks = task.speaks := by
  cases task <;> rfl

/-- Whether a result is a value or the fault of a guard that came to no
end. -/
def Lawful {α : Type} : Except Fault α → Prop
  | .ok _ => True
  | .error fault =>
    ∃ guard name status, fault = .unsettledGuard guard name status

namespace Direct

variable {E A : Type}

/-- Every task has the children without which it cannot run, and gives a
report in every update. -/
inductive Sound : Live E A → Prop where
  | node {id : TaskId} {task : Stock E A} {status : Status}
      {guard : Option (Live E A)} {children : List (Live E A)}
      (speaks : task.speaks)
      (enough : task.arity.least ≤ children.length)
      (below : ∀ g, guard = some g → Sound g)
      (beneath : ∀ c ∈ children, Sound c) :
      Sound (.node id task status guard children)

-- ==================================================== soundness and shape

open Live

/-- The skeletons of a row are those of its trees. -/
theorem skeletons_eq_map (children : List (Live E A)) :
    skeletons children = children.map skeleton := by
  induction children with
  | nil => rfl
  | cons child rest ih => rw [skeletons, List.map_cons, ih]

/-- Soundness can be read off the skeleton. By induction over the tree: the
skeleton has the same kinds and as many children. -/
theorem sound_skeleton (live : Live E A) :
    Sound live.skeleton ↔ Sound live := by
  induction live using Live.induction with
  | step id task status guard children hguard hchildren =>
      rw [skeleton]
      constructor
      · intro h
        cases h with
        | node speaks enough below beneath =>
            rw [Stock.kind_speaks] at speaks
            rw [Stock.kind_arity, skeletons_eq_map, List.length_map] at enough
            refine .node speaks enough (fun g hg => ?_) (fun c hc => ?_)
            · subst hg
              exact (hguard g rfl).1 (below _ rfl)
            · refine (hchildren c hc).1 (beneath _ ?_)
              rw [skeletons_eq_map]
              exact List.mem_map_of_mem hc
      · intro h
        cases h with
        | node speaks enough below beneath =>
            refine .node ?_ ?_ (fun g hg => ?_) (fun c hc => ?_)
            · rw [Stock.kind_speaks]
              exact speaks
            · rw [Stock.kind_arity, skeletons_eq_map, List.length_map]
              exact enough
            · cases guard with
              | none => cases hg
              | some g' =>
                  cases hg
                  exact (hguard g' rfl).2 (below g' rfl)
            · rw [skeletons_eq_map, List.mem_map] at hc
              obtain ⟨c', hc', rfl⟩ := hc
              exact (hchildren c' hc').2 (beneath c' hc')

variable [Deed E A]

/-- No turn makes a sound tree unsound. -/
theorem turn_sound {live : Live E A} (h : Sound live) (delta : Float32)
    (w : World E) :
    Sound (turn delta live w).live := by
  rw [← sound_skeleton, turn_skeleton, sound_skeleton]
  exact h

-- ======================================================== the evaluation

/-- The turn of a tree, and the asking of it as a guard, come to a lawful
result. -/
structure Answers (delta : Float32) (live : Live E A) : Prop where
  turn : ∀ w, Lawful (turn delta live w).result
  ask : ∀ w, Lawful (ask delta (some live) w).result

/-- A row of tasks that answer ends lawfully: the row has no fault of its
own. -/
theorem row_lawful {delta : Float32} {children : List (Live E A)}
    (h : ∀ c ∈ children, Answers delta c) (goOn : Outcome) (w : World E) :
    Lawful (row delta goOn children w).result := by
  induction children generalizing w with
  | nil =>
      rw [row]
      trivial
  | cons child rest ih =>
      have hchild := (h child List.mem_cons_self).turn w
      rw [row]
      dsimp only
      split
      · rename_i fault hresult
        rw [hresult] at hchild
        exact hchild
      · split
        · exact ih (fun c hc => h c (List.mem_cons_of_mem _ hc)) _
        · trivial

omit [Deed E A] in
/-- To finish a task passes the result on. -/
theorem finish_lawful {id : TaskId} {task : Stock E A} {status : Status}
    {guard : Option (Live E A)} {children : List (Live E A)}
    {result : Except Fault Outcome} {w : World E} (h : Lawful result) :
    Lawful (finish id task status guard children result w).result := by
  cases result with
  | ok outcome => trivial
  | error fault => exact h

/-- The update of a task comes to a lawful result, if the task has its children
and they do. By what a task does with its children: go through them, attend to
one, or do without. -/
theorem work_lawful {delta : Float32} {children : List (Live E A)}
    (h : ∀ c ∈ children, Answers delta c) (id : TaskId) (task : Stock E A)
    (status : Status) (guard : Option (Live E A)) (w : World E)
    (hspeaks : task.speaks) (henough : task.arity.least ≤ children.length) :
    Lawful (work delta id task status guard children w).result := by
  rcases arity_cases task with ⟨mk, goOn, current, hmk, rfl⟩ | hsingle | hleaf
  · rw [work_composite hmk]
    exact finish_lawful
      (row_lawful (fun c hc => h c (List.mem_of_mem_drop hc)) goOn w)
  · rw [work_single _ _ _ _ _ _ hsingle]
    split
    · trivial
    · cases children with
      | nil =>
          -- a decorator needs one child
          rw [hsingle] at henough
          exact absurd henough (Nat.not_succ_le_zero 0)
      | cons child rest =>
          have hchild := (h child List.mem_cons_self).turn w
          dsimp only
          split
          · rename_i fault hresult
            rw [hresult] at hchild
            exact hchild
          · trivial
  · obtain ⟨task', board, -, ⟨outcome, hwork⟩ | ⟨name, deed, haction, -⟩⟩ :=
      work_leaf delta id status guard children w hleaf
    · rw [hwork]
      trivial
    · rw [haction] at hspeaks
      cases hspeaks

/-- A guard that is unsettled is the one fault that asking may have of its
own. -/
theorem admission_lawful {id : TaskId} {name : String}
    {result : Except Fault Outcome} (h : Lawful result) :
    Lawful (admission id name result) := by
  cases result with
  | error fault => exact h
  | ok outcome =>
      cases outcome with
      | succeeded => trivial
      | failed => trivial
      | running => exact ⟨id, name, .running, rfl⟩

/-- Asking a guard that answers ends lawfully, and so does having none to
ask. -/
theorem ask_lawful {delta : Float32} {guard : Option (Live E A)}
    (h : ∀ g, guard = some g → Answers delta g) (w : World E) :
    Lawful (ask delta guard w).result := by
  cases guard with
  | none =>
      rw [ask]
      trivial
  | some g => exact (h g rfl).ask w

/-- Every evaluation of a sound tree comes to a lawful result. By induction over
the tree. What a task turns into by entering is of the same kind, so it still
speaks and has enough children. -/
theorem sound_answers {live : Live E A} (h : Sound live) (delta : Float32) :
    Answers delta live := by
  induction live using Live.induction with
  | step id task status guard children hguard hchildren =>
      cases h with
      | node speaks enough below beneath =>
          have hask := ask_lawful fun g hg => hguard g hg (below g hg)
          have hwork :=
            work_lawful (fun c hc => hchildren c hc (beneath c hc)) id
          have hentered : ∀ w, (enter w task).1.speaks
              ∧ (enter w task).1.arity.least ≤ children.length := fun w => by
            rw [← Stock.kind_speaks, ← Stock.kind_arity, enter_kind,
              Stock.kind_speaks, Stock.kind_arity]
            exact ⟨speaks, enough⟩
          refine ⟨fun w => ?_, fun w => ?_⟩
          · have hasked := hask w
            rw [turn]
            split
            · exact hwork _ _ _ _ speaks enough
            · dsimp only
              split
              · rename_i fault hresult
                rw [hresult] at hasked
                exact hasked
              · trivial
              · exact hwork _ _ _ _ (hentered _).1 (hentered _).2
          · have hasked := hask w
            rw [ask]
            dsimp only
            split
            · rename_i fault hresult
              rw [hresult] at hasked
              exact hasked
            · trivial
            · exact admission_lawful
                (hwork _ _ _ _ (hentered _).1 (hentered _).2)

/-- A step of a sound tree gives a status, or finds a guard that came to no
end. -/
theorem step_lawful {live : Live E A} (h : Sound live) (delta : Float32)
    (w : World E) :
    Lawful (step delta live w).result := by
  have hturn := (sound_answers h delta).turn w
  rw [step]
  dsimp only
  cases hresult : (turn delta live w).result with
  | ok outcome => trivial
  | error fault =>
      rw [hresult] at hturn
      exact hturn

end Direct

end TaskTree
