/-
What the hooks of a task leave of it.

A hook leaves the new value of its task. Of a stock task it changes only
what belongs to a run, which rewinding undoes, and the deed of an action,
which has a state of its own (`leaves_update`). So rewinding leads back to
the same task wherever deeds do not change (`leaves_rewind`), and no stock
task ever changes its name or its arity. `Steady` says this of any tasks.
-/
import TaskTree.Proofs.Arena.Seats
import TaskTree.Stock.Basic

namespace TaskTree

-- ============================================================ steady tasks

section

variable {E T : Type} [Behavior E T]

/-- Tasks whose names and arities never change. -/
structure Steady (E T : Type) [Behavior E T] : Prop where
  rewind : ∀ task : T, Behavior.name (Behavior.rewind task) = Behavior.name task
    ∧ Behavior.arity (Behavior.rewind task) = Behavior.arity task
  hook : ∀ (call : Call) (task left : T), (call.hook task).Leaves left →
    Behavior.name left = Behavior.name task
      ∧ Behavior.arity left = Behavior.arity task

/-- An aged task has its name and its arity. -/
theorem Steady.aged (h : Steady E T) {occupant occupant' : Occupant T}
    (haged : Aged occupant occupant') :
    Behavior.name occupant' = Behavior.name occupant
      ∧ Behavior.arity occupant' = Behavior.arity occupant := by
  induction haged with
  | refl => exact ⟨rfl, rfl⟩
  | tail _ hlast ih =>
      obtain ⟨call, hleaves⟩ := hlast
      cases leaves_occupant hleaves with
      | evaluator => exact ih
      | task hleft =>
          obtain ⟨hname, harity⟩ := h.hook call _ _ hleft
          exact ⟨hname.trans ih.1, harity.trans ih.2⟩

/-- A rewound occupant has its name and its arity. -/
theorem Steady.rewound (h : Steady E T) (occupant : Occupant T) :
    Behavior.name (Behavior.rewind occupant) = Behavior.name occupant
      ∧ Behavior.arity (Behavior.rewind occupant)
        = Behavior.arity occupant := by
  cases occupant with
  | evaluator => exact ⟨rfl, rfl⟩
  | task task => exact h.rewind task

end

-- ============================================================= stock tasks

variable {E A : Type}

namespace Stock

/-- A task that is called for its child at a place stays as it is. -/
theorem leaves_runAt {current : Nat} {atEnd : Outcome} {task left : Stock E A}
    (h : (runAt current atEnd task).Leaves left) : left = task := by
  cases h with
  | look view h =>
      dsimp only at h
      split at h
      · cases h with
        | runChild h =>
            cases h
            rfl
      · cases h with
        | report h =>
            cases h
            rfl

/-- What a task with one child has become when it answers is undone by
rewinding. -/
theorem answerEnd?_rewind {succeeded : Bool} {task left : Stock E A}
    {outcome : Outcome} (h : task.answerEnd? succeeded = some (outcome, left)) :
    left.rewind = task.rewind := by
  cases task <;> cases h <;> rfl

/-- Starting a task draws a number at most, and leaves it equal to itself once
rewound. -/
theorem leaves_start {task left : Stock E A} (h : (start task).Leaves left) :
    left.rewind = task.rewind := by
  cases task with
  | repeating count remaining =>
      rw [start] at h
      split at h
      · cases h with
        | draw roll h =>
            cases h
            rfl
      · cases h
        rfl
  | _ =>
      cases h
      rfl

/-- So does the answer to a child. -/
theorem leaves_respond {outcome : Outcome} {task left : Stock E A}
    (h : (respond outcome task).Leaves left) : left.rewind = task.rewind := by
  unfold respond at h
  split at h
  -- The state that a hook leaves is found at the end of its script: each kind
  -- of task has one path through it, or one for each answer.
  · cases h with
    | report h =>
        cases h
        rfl
  · rw [leaves_runAt h]
    rfl
  · cases h with
    | report h =>
        cases h
        rfl
  · cases h with
    | report h =>
        cases h
        rfl
  · rw [leaves_runAt h]
    rfl
  · split at h
    · rename_i hanswer
      cases h with
      | report h =>
          cases h
          exact answerEnd?_rewind hanswer
    · cases h
      rfl

variable [Deed E A]

/-- Deeds that do not change themselves. -/
def Stateless (E A : Type) [Deed E A] : Prop :=
  ∀ (deed : A) (board : E) (delta : Float32),
    (Deed.act deed board delta).2.2 = deed

/-- An update changes nothing that rewinding does not undo, but an action may
change its deed. -/
theorem leaves_update {task left : Stock E A} (h : (update task).Leaves left) :
    left.rewind = task.rewind
      ∨ ∃ name deed board delta, task = .action name deed
      ∧ left = .action name (Deed.act deed board delta).2.2 := by
  -- An action is whatever its deed becomes.
  cases task with
  | action name deed =>
      refine .inr ⟨name, deed, ?_⟩
      cases h with
      | look view h =>
          refine ⟨view.board, view.delta, rfl, ?_⟩
          dsimp only at h
          split at h
          · cases h with
            | write h =>
                cases h with
                | report h =>
                    cases h
                    rfl
          · cases h with
            | write h =>
                cases h
                rfl
  | sequence current | selector current => exact .inl (by rw [leaves_runAt h])
  -- A repeater that is spent reports; otherwise it runs its child. In both
  -- cases it keeps its state.
  | repeating count remaining =>
      refine .inl ?_
      rw [update] at h
      split at h
      · cases h with
        | report h =>
            cases h
            rfl
      · cases h with
        | runChild h =>
            cases h
            rfl
  | wait seconds elapsed | condition name holds =>
      refine .inl ?_
      cases h with
      | look view h =>
          cases h with
          | report h =>
              cases h
              rfl
  | success | failure =>
      refine .inl ?_
      cases h with
      | report h =>
          cases h
          rfl
  | invert | alwaysSucceed | alwaysFail | untilSuccess | untilFail =>
      refine .inl ?_
      cases h with
      | runChild h =>
          cases h
          rfl

/-- No hook of a task changes more of it than rewinding undoes. -/
theorem leaves_rewind (hdeeds : Stateless E A) (call : Call)
    {task left : Stock E A} (h : (call.hook task).Leaves left) :
    left.rewind = task.rewind := by
  cases call with
  | start => exact leaves_start h
  | update =>
      rcases leaves_update h with heq | ⟨name, deed, board, delta, rfl, rfl⟩
      · exact heq
      · rw [hdeeds]
  | respond outcome child => exact leaves_respond h

/-- The name and the arity of a task. -/
def label (task : Stock E A) : String × Arity := (task.name, task.arity)

omit [Deed E A] in
/-- The label is no part of what rewinding touches. -/
theorem label_rewind (task : Stock E A) : task.rewind.label = task.label := by
  cases task <;> rfl

/-- A hook leaves a task of the same name and arity. -/
theorem leaves_label {call : Call} {task left : Stock E A}
    (h : (call.hook task).Leaves left) :
    left.label = task.label := by
  have hlabel : left.rewind = task.rewind → left.label = task.label := by
    intro heq
    rw [← label_rewind left, heq, label_rewind]
  cases call with
  | start => exact hlabel (leaves_start h)
  | update =>
      rcases leaves_update h with heq | ⟨name, deed, board, delta, rfl, rfl⟩
      · exact hlabel heq
      · rfl
  | respond outcome child => exact hlabel (leaves_respond h)

/-- Stock tasks keep their names and arities. -/
theorem steady (E A : Type) [Deed E A] : Steady E (Stock E A) where
  rewind task := Prod.mk.inj (label_rewind task)
  hook _ _ _ h := Prod.mk.inj (leaves_label h)

end Stock

end TaskTree
