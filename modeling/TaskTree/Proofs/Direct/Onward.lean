/-
Nothing in a tree is come back to.

A stock task runs its children in order, each at most once a step: a
composite that has run the child at its place goes on behind it and never
comes back, and the other tasks run their only child once
(`Hook.Advances`). No child is run when a task is entered.

And the links of a tree lead to every task by one way only. What is beneath
one child is beneath no other one (`not_behind`), and nothing beneath a
guard is beneath a child (`Guards.not_behind`).
-/
import TaskTree.Proofs.Arena.Ranked
import TaskTree.Proofs.Direct.SingleChain

namespace TaskTree

-- ============================================================== the hooks

namespace Hook

variable {E U V : Type}

/-- The hook runs children from the position `n` on, in their order and none
of them twice, and what it leaves is behind the last of them. -/
def Advances (next : U → Nat) : Hook E U → Nat → Prop
  | .done task, n => n ≤ next task
  | .report _ hook, n => hook.Advances next n
  | .runChild index hook, n => n ≤ index ∧ hook.Advances next (index + 1)
  | .look hook, n => ∀ view, (hook view).Advances next n
  | .write _ hook, n => hook.Advances next n
  | .draw hook, n => ∀ roll, (hook roll).Advances next n

/-- The hook runs no children and reports nothing. -/
def Plain : Hook E U → Prop
  | .done _ => True
  | .report _ _ | .runChild _ _ => False
  | .look hook => ∀ view, (hook view).Plain
  | .write _ hook => hook.Plain
  | .draw hook => ∀ roll, (hook roll).Plain

/-- Wrapping the task up does not change which children its hook runs. -/
theorem advances_map (f : U → V) {next : V → Nat} (hook : Hook E U) {n : Nat}
    (h : hook.Advances (fun task => next (f task)) n) :
    (hook.map f).Advances next n := by
  induction hook generalizing n with
  | done task => exact h
  | report outcome hook ih => exact ih h
  | runChild index hook ih => exact ⟨h.1, ih h.2⟩
  | look hook ih => exact fun view => ih view (h view)
  | write board hook ih => exact ih h
  | draw hook ih => exact fun roll => ih roll (h roll)

/-- Nor whether it runs any. -/
theorem plain_map (f : U → V) (hook : Hook E U) (h : hook.Plain) :
    (hook.map f).Plain := by
  induction hook with
  | done task => trivial
  | report | runChild => exact h
  | look hook ih => exact fun view => ih view (h view)
  | write board hook ih => exact ih h
  | draw hook ih => exact fun roll => ih roll (h roll)

end Hook

namespace Stock

variable {E A : Type}

/-- The position of the first child that a task may still run in a step in
which its hooks have begun. -/
def next : Stock E A → Nat
  | .sequence current | .selector current => current + 1
  | .invert | .alwaysSucceed | .alwaysFail | .untilSuccess | .untilFail
  | .repeating _ _ => 1
  | .success | .failure | .wait _ _ | .condition _ _ | .action _ _ => 0

/-- Starting a task runs nobody: a repetition may draw its count, and the others
do nothing. -/
theorem plain_start (task : Stock E A) : task.start.Plain := by
  cases task with
  | repeating count remaining =>
      rw [start]
      split
      · exact fun _ => trivial
      · trivial
  | _ => trivial

/-- A composite at a place runs the child there, if there is one, and is behind
it then. -/
theorem advances_runAt {current n : Nat} {atEnd : Outcome} {task : Stock E A}
    (hn : n ≤ current) (hnext : task.next = current + 1) :
    (runAt current atEnd task).Advances next n := by
  intro view
  dsimp only
  split
  · exact ⟨hn, Nat.le_of_eq hnext.symm⟩
  -- At the end of its children a composite reports, without running anyone.
  · exact Nat.le_trans hn (by rw [hnext]; exact Nat.le_succ _)

/-- An update runs children from the first on at the earliest. -/
theorem advances_update [Deed E A] (task : Stock E A) :
    task.update.Advances next 0 := by
  cases task with
  | sequence current
  | selector current => exact advances_runAt (Nat.zero_le _) rfl
  | repeating count remaining =>
      rw [update]
      split
      · exact Nat.zero_le _
      · exact ⟨Nat.le_refl _, Nat.le_refl _⟩
  | invert | alwaysSucceed | alwaysFail | untilSuccess | untilFail =>
      exact ⟨Nat.le_refl _, Nat.le_refl _⟩
  | success | failure => exact Nat.le_refl _
  | wait | condition => exact fun _ => Nat.le_refl _
  | action name deed =>
      intro view
      dsimp only
      split
      · exact Nat.le_refl _
      · exact Nat.le_refl _

/-- When a task makes an end of its own, it stays where it is. -/
theorem next_answerEnd? {succeeded : Bool} {task task' : Stock E A}
    {outcome : Outcome}
    (h : task.answerEnd? succeeded = some (outcome, task')) :
    task'.next = task.next := by
  cases task <;> cases h <;> rfl

/-- A response goes on behind the child that was answered. -/
theorem advances_respond (outcome : Outcome) (task : Stock E A) :
    (task.respond outcome).Advances next task.next := by
  unfold respond
  split
  · exact Nat.le_refl _
  · exact advances_runAt (Nat.le_refl _) rfl
  · exact Nat.le_refl _
  · exact Nat.le_refl _
  · exact advances_runAt (Nat.le_refl _) rfl
  · split
    · rename_i heq
      exact Nat.le_of_eq (next_answerEnd? heq).symm
    · exact Nat.le_refl _

end Stock

/-- The position behind the children that were run. -/
def Occupant.next {E A : Type} : Occupant (Stock E A) → Nat
  | .evaluator => 0
  | .task t => t.next

section

variable {E A : Type} [Deed E A] (occupant : Occupant (Stock E A))

/-- The guard evaluator, too, starts without running anyone. -/
theorem Occupant.plain_start : (Call.start.hook occupant).Plain := by
  cases occupant with
  | evaluator => trivial
  | task t => exact Hook.plain_map _ _ t.plain_start

/-- An update of an occupant is one of its task; the guard evaluator runs
nobody. -/
theorem Occupant.advances_update :
    (Call.update.hook occupant).Advances Occupant.next 0 := by
  cases occupant with
  | evaluator => exact Nat.le_refl _
  | task t => exact Hook.advances_map _ _ t.advances_update

/-- A response of an occupant goes on where its task goes on. -/
theorem Occupant.advances_respond (outcome : Outcome) (child : Nat) :
    ((Call.respond outcome child).hook occupant).Advances Occupant.next
      occupant.next := by
  cases occupant with
  | evaluator => exact Nat.le_refl _
  | task t => exact Hook.advances_map _ _ (t.advances_respond outcome)

end

namespace Arena

-- ============================================================== the links

variable {E A : Type} {a : Arena E (Stock E A)} {id x : TaskId}

/-- A task is a child or the guard of another. -/
def Leads (a : Arena E (Stock E A)) (x y : TaskId) : Prop :=
  y ∈ a.childrenOf x ∨ a.guardOf x = some y

/-- Links lead to later tasks. -/
theorem Leads.index_lt (hranked : Ranked a) {x y : TaskId} (h : Leads a x y) :
    x.index < y.index :=
  h.elim (hranked.child x y) (hranked.guard x y)

/-- Only one link leads to a task. -/
theorem Leads.unique (hwired : Wired a) (hranked : Ranked a) {x x' y : TaskId}
    (h : Leads a x y) (h' : Leads a x' y) : x = x' := by
  rcases h with hchild | hguard
  · rcases h' with hchild' | hguard'
    · exact Option.some.inj
        ((hwired.child x y hchild).2.symm.trans (hwired.child x' y hchild').2)
    · exact absurd hguard' (guardOf_ne_of_child hwired hchild)
  · rcases h' with hchild' | hguard'
    · exact absurd hguard (guardOf_ne_of_child hwired hchild')
    · exact hranked.owner x x' y hguard hguard'

/-- A link in front of a way down makes a longer way. -/
theorem Beneath.head {x y z : TaskId} (hlink : Leads a x y)
    (h : Beneath a y z) : Beneath a x z := by
  induction h with
  | self => exact hlink.elim (.child .self) (.guard .self)
  | child _ link ih => exact .child ih link
  | guard _ link ih => exact .guard ih link

/-- The way down leads to later tasks, or nowhere. -/
theorem Beneath.index_le (hranked : Ranked a) {x y : TaskId}
    (h : Beneath a x y) :
    x.index ≤ y.index := by
  induction h with
  | self => exact Nat.le_refl _
  | child _ link ih =>
      exact Nat.le_of_lt (Nat.lt_of_le_of_lt ih (hranked.child _ _ link))
  | guard _ link ih =>
      exact Nat.le_of_lt (Nat.lt_of_le_of_lt ih (hranked.guard _ _ link))

/-- What is beneath a task that a link leads to comes after the task that the
link goes out from. -/
theorem Leads.beneath_lt (hranked : Ranked a) {x y z : TaskId}
    (hlink : Leads a x y) (h : Beneath a y z) : x.index < z.index :=
  Nat.lt_of_lt_of_le (hlink.index_lt hranked) (h.index_le hranked)

/-- A task beneath another one is that one, or a link leads to it from a task
beneath. -/
theorem Beneath.last {x y : TaskId} (h : Beneath a x y) :
    y = x ∨ ∃ z, Beneath a x z ∧ Leads a z y := by
  cases h with
  | self => exact .inl rfl
  | child above link => exact .inr ⟨_, above, .inl link⟩
  | guard above link => exact .inr ⟨_, above, .inr link⟩

/-- Nothing is beneath two tasks to which links lead from the same one. -/
theorem Beneath.apart (hwired : Wired a) (hranked : Ranked a)
    {id c c' x : TaskId} (hc : Leads a id c) (hc' : Leads a id c')
    (h : Beneath a c x) (h' : Beneath a c' x) : c = c' := by
  -- A task does not stand beneath one to which it leads.
  have hnot : ∀ {d : TaskId}, Leads a id d → ¬ Beneath a d id :=
    fun hd hbeneath => Nat.lt_irrefl _ (hd.beneath_lt hranked hbeneath)
  have hstep : ∀ {x y : TaskId}, (Beneath a c' x → c = c') →
      Beneath a c x → Leads a x y →
      Beneath a c' y → c = c' := by
    intro x y ih above link hbeneath
    rcases hbeneath.last with rfl | ⟨z, hz, hlink⟩
    · exact absurd (link.unique hwired hranked hc' ▸ above) (hnot hc)
    · exact ih (hlink.unique hwired hranked link ▸ hz)
  -- On the way down from the first of the two. Its last link is the only one
  -- that leads to its end, so the other way must have come by the same link,
  -- unless it had not begun.
  induction h with
  | self =>
      rcases h'.last with heq | ⟨z, hz, hlink⟩
      · exact heq
      · exact absurd (hlink.unique hwired hranked hc ▸ hz) (hnot hc')
  | child above link ih => exact hstep ih above (.inl link) h'
  | guard above link ih => exact hstep ih above (.inr link) h'

-- ====================================================== what lies behind

/-- The task `x` is beneath a child of `id` from the position `n` on. -/
def Behind (a : Arena E (Stock E A)) (id : TaskId) (n : Nat)
    (x : TaskId) : Prop :=
  ∃ (i : Nat) (c : TaskId),
    n ≤ i ∧ (a.childrenOf id)[i]? = some c ∧ Beneath a c x

/-- The task `x` is beneath the guard of `id`. -/
def Guards (a : Arena E (Stock E A)) (id x : TaskId) : Prop :=
  ∃ guard, a.guardOf id = some guard ∧ Beneath a guard x

/-- Less is behind a later place. -/
theorem Behind.mono {n n' : Nat} (h : a.Behind id n x) (hle : n' ≤ n) :
    a.Behind id n' x := by
  obtain ⟨i, c, hi, hc, hbeneath⟩ := h
  exact ⟨i, c, Nat.le_trans hle hi, hc, hbeneath⟩

/-- What belongs to a guard comes later than its owner. -/
theorem Guards.index_lt (hranked : Ranked a) (h : a.Guards id x) :
    id.index < x.index := by
  obtain ⟨guard, hguard, hbeneath⟩ := h
  exact Leads.beneath_lt hranked (.inr hguard) hbeneath

/-- What is beneath a child is beneath no child behind it. -/
theorem not_behind (hwired : Wired a) (hranked : Ranked a) {i : Nat}
    {c : TaskId} (hc : (a.childrenOf id)[i]? = some c) (h : Beneath a c x) :
    ¬ a.Behind id (i + 1) x := by
  rintro ⟨j, c', hj, hc', h'⟩
  have heq := Beneath.apart hwired hranked (.inl (List.mem_of_getElem? hc))
    (.inl (List.mem_of_getElem? hc')) h h'
  obtain ⟨hlt, -⟩ := List.getElem?_eq_some_iff.1 hc
  have hsame := (List.getElem?_inj hlt (hwired.nodup id)).1
    (hc.trans ((congrArg some heq).trans hc'.symm))
  omega

/-- What is beneath a guard is beneath no child. -/
theorem Guards.not_behind (hwired : Wired a) (hranked : Ranked a)
    (h : a.Guards id x) :
    ¬ a.Behind id 0 x := by
  rintro ⟨i, c, -, hc, h'⟩
  obtain ⟨guard, hguard, hbeneath⟩ := h
  have hmem := List.mem_of_getElem? hc
  have heq := Beneath.apart hwired hranked (.inr hguard) (.inl hmem) hbeneath h'
  exact guardOf_ne_of_child hwired hmem (heq ▸ hguard)

/-- What is behind a place among the children is beneath the task. -/
theorem Behind.beneath {n : Nat} (h : a.Behind id n x) : Beneath a id x := by
  obtain ⟨i, c, -, hc, hbeneath⟩ := h
  exact hbeneath.head (.inl (List.mem_of_getElem? hc))

/-- So is what belongs to its guard. -/
theorem Guards.beneath (h : a.Guards id x) : Beneath a id x := by
  obtain ⟨guard, hguard, hbeneath⟩ := h
  exact hbeneath.head (.inr hguard)

end Arena

end TaskTree
