/-
The parent of a task is the innermost task left open when it comes.

The tasks that stand open after others are given here as they would be by
a stack: a task stands on those that were open when it came, and the first
task of a line closes all that are indented at least as deep. On this stack
the task that a document declares as parent is always the top one, and a
task once closed is never a parent again.
-/
import TaskTree.Proofs.Outline.Declared

namespace TaskTree.Outline

variable {T : Type}

/-- The numbers and indentations of the tasks that stand open after
others, innermost first. -/
def openTasks : List (Sited T) → List (Nat × Nat)
  | [] => []
  | task :: before =>
    (before.length, task.indent) ::
      if hasTask task.line before then openTasks before
      else (openTasks before).dropWhile fun x => task.indent ≤ x.2

/-- The tasks that are still open when a task has found its place. -/
def around (before : List (Sited T)) (task : Sited T) : List (Nat × Nat) :=
  if hasTask task.line before then openTasks before
  else (openTasks before).dropWhile fun x => task.indent ≤ x.2

/-- A task is open on its own line, inside those around it. -/
theorem openTasks_cons (task : Sited T) (before : List (Sited T)) :
    openTasks (task :: before)
      = (before.length, task.indent) :: around before task := rfl

/-- What is around a task was open before it. -/
theorem around_sublist (before : List (Sited T)) (task : Sited T) :
    (around before task).Sublist (openTasks before) := by
  unfold around
  split
  · exact List.Sublist.refl _
  · exact List.dropWhile_sublist _

/-- Closing deeper tasks hides none that is indented less. By induction along
the list, until the first element that is not closed. -/
theorem find?_dropWhile {α : Type} {closed wanted : α → Bool} {l : List α}
    (h : ∀ x ∈ l, wanted x = true → closed x = false) :
    (l.dropWhile closed).find? wanted = l.find? wanted := by
  induction l with
  | nil => rfl
  | cons x l ih =>
      cases hclosed : closed x with
      | false =>
          rw [List.dropWhile_cons_of_neg
              (by rw [hclosed]; exact Bool.false_ne_true)]
      | true =>
          have hwanted : wanted x ≠ true := fun hx => by
            rw [h x List.mem_cons_self hx] at hclosed
            cases hclosed
          rw [List.dropWhile_cons_of_pos hclosed,
            List.find?_cons_of_neg hwanted]
          exact ih fun y hy => h y (List.mem_cons_of_mem _ hy)

/-- The last task that is indented less stands open. By induction over the tasks
before. A task that is indented as far closes others of at least its own
indentation, and none of them is wanted. -/
theorem find?_openTasks (indent : Nat) (before : List (Sited T)) :
    ((openTasks before).find? fun x => x.2 < indent).map (·.1)
      = lessIndented indent before := by
  induction before with
  | nil => rfl
  | cons task before ih =>
      rw [openTasks_cons, lessIndented]
      by_cases hlt : task.indent < indent
      · simp only [List.find?_cons, hlt, decide_true, if_true, Option.map_some]
      · simp only [List.find?_cons, hlt, decide_false, if_false]
        rw [← ih]
        unfold around
        split
        · rfl
        · congr 1
          refine find?_dropWhile fun x _ hx => ?_
          have hx : x.2 < indent := of_decide_eq_true hx
          exact decide_eq_false (by omega)

/-- The parent of a task is the innermost task still open when it comes. -/
theorem parent?_eq_head?_around (before : List (Sited T)) (task : Sited T) :
    parent? before task = (around before task).head?.map (·.1) := by
  unfold parent? around
  split
  · rename_i hsame
    cases before with
    | nil => cases hsame
    | cons last before => rfl
  · have hopen : (fun x : Nat × Nat => !decide (task.indent ≤ x.2)) = fun x =>
        decide (x.2 < task.indent) := by
      funext x
      rw [← decide_not, decide_eq_decide]
      exact Nat.not_le
    rw [← find?_openTasks, ← List.find?_not_eq_head?_dropWhile, hopen]

-- ============================================================== numbers

/-- Open tasks have numbers below that of the next one. -/
theorem openTasks_lt {before : List (Sited T)} :
    ∀ x ∈ openTasks before, x.1 < before.length := by
  induction before with
  | nil => exact fun x hx => absurd hx List.not_mem_nil
  | cons task before ih =>
      intro x hx
      rw [openTasks_cons] at hx
      rw [List.length_cons]
      rcases List.mem_cons.1 hx with rfl | hx
      · exact Nat.lt_succ_self _
      · exact Nat.lt_succ_of_lt (ih x ((around_sublist before task).subset hx))

/-- Inner tasks come after outer ones. -/
theorem openTasks_pairwise (before : List (Sited T)) :
    (openTasks before).Pairwise fun inner outer => outer.1 < inner.1 := by
  induction before with
  | nil => exact List.Pairwise.nil
  | cons task before ih =>
      rw [openTasks_cons]
      refine List.Pairwise.cons (fun x hx => ?_)
        (ih.sublist (around_sublist before task))
      exact openTasks_lt x ((around_sublist before task).subset hx)

/-- Later tasks are children of tasks that stand open and of each other. By
induction along the tasks: a parent is open when its child comes, or is one of
the tasks in between. -/
theorem parent_mem_openTasks {tasks : List (Sited T)}
    {before : List (Sited T)} :
    ∀ e ∈ entries before tasks, ∀ number, e.parent = some number →
      number ∈ (openTasks before).map (·.1) ∨ before.length ≤ number := by
  induction tasks generalizing before with
  | nil => exact fun e he => absurd he List.not_mem_nil
  | cons task tasks ih =>
      intro e he number hparent
      have haround : ∀ number ∈ (around before task).map (·.1),
          number ∈ (openTasks before).map (·.1) := fun number hnumber =>
        ((around_sublist before task).map _).subset hnumber
      rw [entries] at he
      rcases List.mem_cons.1 he with rfl | he
      · refine .inl (haround number ?_)
        rw [parent?_eq_head?_around, ← List.head?_map] at hparent
        exact List.mem_of_head? hparent
      · rcases ih e he number hparent with hopen | hlater
        · rw [openTasks_cons, List.map_cons] at hopen
          rcases List.mem_cons.1 hopen with rfl | hopen
          · exact .inr (Nat.le_refl _)
          · exact .inl (haround number hopen)
        · rw [List.length_cons] at hlater
          exact .inr (by omega)

/-- A number that no task names has nothing below it. -/
theorem below_eq_nil {number : Nat} {later : List (Entry T)}
    (h : ∀ e ∈ later, e.parent ≠ some number) : below number later = [] := by
  induction later with
  | nil => rfl
  | cons e later ih =>
      rw [below, if_neg (h e List.mem_cons_self)]
      exact ih fun e he => h e (List.mem_cons_of_mem _ he)

/-- A task that is closed gets no more children. -/
theorem below_entries_eq_nil {number : Nat} {before tasks : List (Sited T)}
    (hlt : number < before.length)
    (hclosed : number ∉ (openTasks before).map (·.1)) :
    below number (entries before tasks) = [] := by
  refine below_eq_nil fun e he hparent => ?_
  rcases parent_mem_openTasks e he number hparent with hopen | hle
  · exact hclosed hopen
  · omega

/-- A task is no child of one that it closes, and neither are later ones. -/
theorem below_entries_cons_eq_nil {number : Nat} {before : List (Sited T)}
    {task : Sited T} {tasks : List (Sited T)} (hlt : number < before.length)
    (hclosed : number ∉ (around before task).map (·.1)) :
    below number (entries before (task :: tasks)) = [] := by
  have hparent : parent? before task ≠ some number := fun hparent => by
    rw [parent?_eq_head?_around, ← List.head?_map] at hparent
    exact hclosed (List.mem_of_head? hparent)
  rw [entries, below, if_neg hparent]
  refine below_entries_eq_nil (Nat.lt_succ_of_lt hlt) ?_
  rw [openTasks_cons, List.map_cons, List.mem_cons]
  rintro (heq | hopen)
  · exact Nat.lt_irrefl _ (heq ▸ hlt)
  · exact hclosed hopen

/-- What the first task of a line closes is not among what it leaves
open. -/
theorem closed_not_mem_around {before : List (Sited T)} {task : Sited T}
    (hfirst : ¬ hasTask task.line before) :
    ∀ x ∈ (openTasks before).takeWhile (fun x => task.indent ≤ x.2),
      x.1 < before.length ∧ x.1 ∉ (around before task).map (·.1) := by
  intro x hx
  have hsplit := openTasks_pairwise before
  rw [← List.takeWhile_append_dropWhile
      (p := fun x => decide (task.indent ≤ x.2))
    (l := openTasks before), List.pairwise_append] at hsplit
  refine ⟨openTasks_lt x ((List.takeWhile_sublist _).subset hx), fun hmem => ?_⟩
  obtain ⟨y, hy, heq⟩ := List.mem_map.1 hmem
  rw [around, if_neg hfirst] at hy
  have hlt := hsplit.2.2 x hx y hy
  omega

-- ============================================================== children

/-- Entries have later numbers than what went before them. -/
theorem le_number_of_mem_entries {before tasks : List (Sited T)} :
    ∀ e ∈ entries before tasks, before.length ≤ e.number := by
  induction tasks generalizing before with
  | nil => exact fun e he => absurd he List.not_mem_nil
  | cons task tasks ih =>
      intro e he
      rw [entries] at he
      rcases List.mem_cons.1 he with rfl | he
      · exact Nat.le_refl _
      · exact Nat.le_of_succ_le (ih e he)

/-- Parents come first. -/
theorem parent?_lt {before : List (Sited T)} {task : Sited T} {number : Nat}
    (h : parent? before task = some number) : number < before.length := by
  rw [parent?_eq_head?_around, ← List.head?_map] at h
  obtain ⟨x, hx, rfl⟩ := List.mem_map.1 (List.mem_of_head? h)
  exact openTasks_lt x ((around_sublist before task).subset hx)

/-- As many are below a number as name it for their parent. -/
theorem below_length (number : Nat) (later : List (Entry T)) :
    (below number later).length = later.countP fun e =>
      e.parent = some number := by
  induction later with
  | nil => rfl
  | cons e later ih =>
      rw [below, List.countP_cons]
      by_cases hparent : e.parent = some number
      · rw [if_pos hparent, if_pos (decide_eq_true hparent), List.length_cons,
          ih]
      · rw [if_neg hparent, if_neg (by simpa using hparent), ih]
        rfl

end TaskTree.Outline
