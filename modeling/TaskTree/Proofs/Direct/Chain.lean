/-
The running tasks of a tree are a chain.

A tree is `Calm` when nothing in it runs, and it is `Chained` when the
tasks that run in it are the beginning of one path from its root: below a
running composite the child at its place is running and all others are
calm, below a running decorator only its first child may be running, and
guards are calm wherever they stand.

A turn that ends with a report keeps a tree chained, and the asking of a
guard that ends with an answer leaves the guard calm (`orderly`). What makes
this work is that a task only ever runs a child from a place where all the
others are calm, and that it reports anything but `running` only when the
child's report was not `running` either. The second fails for a decorator
that has nothing left to run its child for, so a decorator that runs has
something left.
-/
import TaskTree.Proofs.Direct.Grafting

namespace TaskTree.Direct

open Live

variable {E A : Type}

-- ============================================================ calm trees

/-- Nothing in the tree runs, neither its tasks nor their guards. -/
def Calm (live : Live E A) : Prop := ∀ entry ∈ live.statuses, entry.2 ≠ .running

/-- Nothing in a guard runs. -/
def CalmGuard (guard : Option (Live E A)) : Prop := ∀ g, guard = some g → Calm g

/-- Nothing in a row of trees runs. -/
def AllCalm (children : List (Live E A)) : Prop := ∀ c ∈ children, Calm c

section

variable {id : TaskId} {task : Stock E A} {status : Status}
  {guard : Option (Live E A)} {children front back : List (Live E A)}
  {live : Live E A}

/-- The statuses of a guard are those of the tree in it, if there is one. -/
theorem mem_guardStatuses {entry : TaskId × Status} :
    entry ∈ guardStatuses guard ↔ ∃ g, guard = some g ∧ entry ∈ g.statuses := by
  cases guard with
  | none => exact ⟨(fun h => nomatch h), fun ⟨_, h, _⟩ => nomatch h⟩
  | some g =>
      exact ⟨fun h => ⟨g, rfl, h⟩, fun ⟨_, hg, h⟩ => Option.some.inj hg ▸ h⟩

/-- The statuses of a row are those of the trees in it. -/
theorem mem_allStatuses {entry : TaskId × Status} :
    entry ∈ allStatuses children ↔ ∃ c ∈ children, entry ∈ c.statuses := by
  induction children with
  | nil => exact ⟨(fun h => nomatch h), fun ⟨_, h, _⟩ => nomatch h⟩
  | cons child rest ih =>
      simp only [allStatuses, List.mem_append, ih, List.mem_cons,
        exists_eq_or_imp]

/-- A tree is calm if its task does not run and all below it is calm. -/
theorem calm_node : Calm (.node id task status guard children)
    ↔ status ≠ .running ∧ CalmGuard guard ∧ AllCalm children := by
  unfold Calm
  rw [statuses, List.forall_mem_cons, List.forall_mem_append]
  refine and_congr_right fun _ =>
    and_congr ⟨fun h g hg entry hentry => ?_, fun h entry hentry => ?_⟩
      ⟨fun h c hc entry hentry => ?_, fun h entry hentry => ?_⟩
  · exact h entry (mem_guardStatuses.2 ⟨g, hg, hentry⟩)
  · obtain ⟨g, hg, hmem⟩ := mem_guardStatuses.1 hentry
    exact h g hg entry hmem
  · exact h entry (mem_allStatuses.2 ⟨c, hc, hentry⟩)
  · obtain ⟨c, hc, hmem⟩ := mem_allStatuses.1 hentry
    exact h c hc entry hmem

/-- A calm tree does not run. -/
theorem Calm.status_ne (h : Calm live) : live.status ≠ .running := by
  cases live
  exact (calm_node.1 h).1

/-- A row is calm if both its parts are. -/
theorem allCalm_append :
    AllCalm (front ++ back) ↔ AllCalm front ∧ AllCalm back :=
  List.forall_mem_append

/-- A row is calm if its first tree and the rest are. -/
theorem allCalm_cons : AllCalm (live :: back) ↔ Calm live ∧ AllCalm back :=
  List.forall_mem_cons

/-- The empty row is calm. -/
theorem allCalm_nil : AllCalm ([] : List (Live E A)) := fun _ h => nomatch h

/-- The front of a calm row is calm. -/
theorem AllCalm.take (h : AllCalm children) (n : Nat) :
    AllCalm (children.take n) :=
  fun c hc => h c (List.mem_of_mem_take hc)

/-- The back of a calm row is calm. -/
theorem AllCalm.drop (h : AllCalm children) (n : Nat) :
    AllCalm (children.drop n) :=
  fun c hc => h c (List.mem_of_mem_drop hc)

end

-- ========================================================= chained trees

/-- The running tasks of the tree are the beginning of a path from its
root. -/
inductive Chained : Live E A → Prop where
  /-- Nothing runs in it. -/
  | calm {live : Live E A} (rest : Calm live) : Chained live
  /-- A running composite: the child at its place goes on, and the children
  before and after it are calm. -/
  | composite {mk : Nat → Stock E A} {goOn : Outcome} {id : TaskId}
      {guard : Option (Live E A)} {front back : List (Live E A)}
      {child : Live E A} (composite : Composite mk goOn)
      (guarded : CalmGuard guard) (before : AllCalm front)
      (going : child.status = .running) (chained : Chained child)
      (after : AllCalm back) :
      Chained
        (.node id (mk front.length) .running guard (front ++ child :: back))
  /-- A running decorator, whose first child goes on. -/
  | single {task : Stock E A} {id : TaskId} {guard : Option (Live E A)}
      {child : Live E A} {back : List (Live E A)}
      (single : task.arity = .single) (unspent : isSpent task = false)
      (guarded : CalmGuard guard) (chained : Chained child)
      (after : AllCalm back) :
      Chained (.node id task .running guard (child :: back))
  /-- A running leaf, with whatever was attached beneath it. -/
  | leaf {task : Stock E A} {id : TaskId} {guard : Option (Live E A)}
      {children : List (Live E A)} (leaf : task.arity = .leaf)
      (guarded : CalmGuard guard) (beneath : AllCalm children) :
      Chained (.node id task .running guard children)

/-- A row of trees of which only the first may be running. -/
inductive Led : List (Live E A) → Prop where
  | nil : Led []
  | cons {child : Live E A} {rest : List (Live E A)} (chained : Chained child)
      (after : AllCalm rest) : Led (child :: rest)

/-- A calm row is led by its first tree, which is calm. -/
theorem AllCalm.led {children : List (Live E A)} (h : AllCalm children) :
    Led children := by
  cases children with
  | nil => exact .nil
  | cons child rest =>
      exact .cons (.calm (allCalm_cons.1 h).1) (allCalm_cons.1 h).2

/-- The children of a task are in order for an update of the task. -/
inductive Poised : Stock E A → List (Live E A) → Prop where
  | composite {mk : Nat → Stock E A} {goOn : Outcome} {current : Nat}
      {children : List (Live E A)} (composite : Composite mk goOn)
      (before : AllCalm (children.take current))
      (onward : Led (children.drop current)) : Poised (mk current) children
  | single {task : Stock E A} {children : List (Live E A)}
      (single : task.arity = .single) (onward : Led children)
      (spent : isSpent task = true → AllCalm children) :
      Poised task children
  | leaf {task : Stock E A} {children : List (Live E A)}
      (leaf : task.arity = .leaf) (beneath : AllCalm children) :
      Poised task children

section

variable {id : TaskId} {task : Stock E A} {status : Status}
  {guard : Option (Live E A)} {children : List (Live E A)} {live : Live E A}

/-- A chain has nothing running in it if it does not begin with a running
task. -/
theorem Chained.calm_of_status (h : Chained live)
    (hstatus : live.status ≠ .running) : Calm live := by
  cases h with
  | calm rest => exact rest
  | composite | single | leaf => exact absurd rfl hstatus

/-- The guard of a chained task is calm. -/
theorem Chained.calmGuard (h : Chained (.node id task status guard children)) :
    CalmGuard guard := by
  cases h with
  | calm rest => exact (calm_node.1 rest).2.1
  | composite _ guarded | single _ _ guarded | leaf _ guarded => exact guarded

/-- Where nothing runs, every task may be updated. -/
theorem AllCalm.poised (h : AllCalm children) (task : Stock E A) :
    Poised task children := by
  rcases arity_cases task with ⟨mk, goOn, current, hmk, rfl⟩ | hsingle | hleaf
  · exact .composite hmk (h.take current) (h.drop current).led
  · exact .single hsingle h.led fun _ => h
  · exact .leaf hleaf h

/-- A task that runs in a chained tree may be updated. -/
theorem Chained.poised (h : Chained (.node id task .running guard children)) :
    Poised task children := by
  cases h with
  | calm rest => exact absurd rfl (calm_node.1 rest).1
  | composite hmk guarded before going chained after =>
      refine .composite hmk ?_ ?_
      · rw [List.take_left]
        exact before
      · rw [List.drop_left]
        exact .cons chained after
  | single hsingle unspent guarded chained after =>
      exact .single hsingle (.cons chained after) fun hspent => by
        rw [unspent] at hspent
        cases hspent
  | leaf hleaf guarded beneath => exact .leaf hleaf beneath

end

-- ================================================================ turns

variable [Deed E A]

omit [Deed E A] in
/-- A composite moves on after a child that has ended. -/
theorem Composite.goOn_ne {mk : Nat → Stock E A} {goOn : Outcome}
    (h : Composite mk goOn) :
    goOn ≠ .running := by
  cases h <;> exact fun h => nomatch h

omit [Deed E A] in
/-- An outcome that ends a task is not the status of a running one. -/
theorem outcome_status_ne {outcome : Outcome} (h : outcome ≠ .running) :
    outcome.status ≠ .running := by
  cases outcome with
  | running => exact absurd rfl h
  | succeeded | failed => exact fun h => nomatch h

/-- A turn with a report keeps a tree chained, and a guard that gives an
answer is calm afterwards. -/
structure Orderly (delta : Float32) (live : Live E A) : Prop where
  turn : ∀ w outcome, (turn delta live w).result = .ok outcome → Chained live →
    Chained (turn delta live w).live
  ask : ∀ w passed, (ask delta (some live) w).result = .ok passed → Calm live →
    CalmGuard (ask delta (some live) w).live

/-- What a row of children has become when it has an outcome. Either it is
all calm, or the outcome is that of the child at which the row stopped. -/
def RowEnds (outcome : Outcome) (n : Nat) (children : List (Live E A)) : Prop :=
  (outcome ≠ .running ∧ AllCalm children)
    ∨ (outcome = .running
      ∧ ∃ front child back, children = front ++ child :: back
      ∧ front.length = n ∧ AllCalm front ∧ child.status = .running
      ∧ Chained child ∧ AllCalm back)

variable {delta : Float32} {children : List (Live E A)} {w : World E}
  {outcome : Outcome}

/-- A row is worked through until a child stops it: it ends calm, or with one
child that runs and calm ones around it. By induction along the row, with the
world general. Only the first child may be on the chain; the ones behind it are
calm. -/
theorem row_ends {goOn : Outcome} (hgoOn : goOn ≠ .running)
    (h : ∀ c ∈ children, Orderly delta c) (hled : Led children)
    (hresult : (row delta goOn children w).result = .ok outcome) :
    RowEnds outcome (row delta goOn children w).live.1
      (row delta goOn children w).live.2 := by
  induction children generalizing w with
  | nil =>
      rw [row] at hresult ⊢
      cases hresult
      exact .inl ⟨hgoOn, allCalm_nil⟩
  | cons child rest ih =>
      obtain ⟨hchained, hrest⟩ : Chained child ∧ AllCalm rest := by
        cases hled with
        | cons chained after => exact ⟨chained, after⟩
      rw [row] at hresult ⊢
      dsimp only at hresult ⊢
      cases hchild : (turn delta child w).result with
      | error fault =>
          rw [hchild] at hresult
          cases hresult
      | ok passed =>
          rw [hchild] at hresult
          dsimp only at hresult ⊢
          have hchained' :=
            (h child List.mem_cons_self).turn w passed hchild hchained
          have hstatus := turn_status hchild
          -- The child has ended, and the next one is led by itself.
          by_cases heq : passed = goOn
          · rw [if_pos heq] at hresult ⊢
            have hcalm : Calm (turn delta child w).live := by
              refine hchained'.calm_of_status ?_
              rw [hstatus, heq]
              exact outcome_status_ne hgoOn
            rcases ih (fun c hc => h c (List.mem_cons_of_mem _ hc))
              hrest.led hresult with
                ⟨hne, hall⟩ | ⟨hrunning, front, c, back, hsplit, hlength,
                  hbefore, hafter⟩
            · exact .inl ⟨hne, allCalm_cons.2 ⟨hcalm, hall⟩⟩
            · refine .inr ⟨hrunning, (turn delta child w).live :: front, c,
                back, ?_, ?_, allCalm_cons.2 ⟨hcalm, hbefore⟩, hafter⟩
              · rw [hsplit, List.cons_append]
              · rw [List.length_cons, hlength]
          -- The child stops the row, as the running one or with its outcome.
          · rw [if_neg heq] at hresult ⊢
            cases hresult
            by_cases hrunning : outcome = .running
            · refine .inr ⟨hrunning, [], _, rest, rfl, rfl, allCalm_nil, ?_,
                hchained', hrest⟩
              rw [hstatus, hrunning]
              rfl
            · refine .inl ⟨hrunning,
                allCalm_cons.2 ⟨hchained'.calm_of_status ?_, hrest⟩⟩
              rw [hstatus]
              exact outcome_status_ne hrunning

omit [Deed E A] in
/-- A decorator that passes on `running` has something left to run its child
for. Only a repeater counts down, and it runs on only while turns are left. -/
theorem passOn_unspent {task : Stock E A} (hunspent : isSpent task = false)
    {passed : Outcome} (h : (passOn passed task).1 = .running) :
    isSpent (passOn passed task).2 = false := by
  cases task with
  | repeating count remaining =>
      cases passed with
      | running => exact hunspent
      | succeeded | failed =>
          obtain ⟨left, hleft⟩ : ∃ left,
              left = (if 0 < remaining then remaining - 1 else remaining) :=
            ⟨_, rfl⟩
          simp only [passOn, ← hleft] at h ⊢
          by_cases hzero : left = 0
          · rw [if_pos hzero] at h
            cases h
          · exact decide_eq_false hzero
  | _ => cases passed <;> rfl

omit [Deed E A] in
/-- What a decorator passes on for a child that runs is `running`. -/
theorem passOn_ne {task : Stock E A} {passed : Outcome}
    (h : (passOn passed task).1 ≠ .running) :
    passed ≠ .running := by
  rintro rfl
  exact h rfl

omit [Deed E A] in
/-- What a report makes of a tree whose parts are in order. -/
theorem conclude_chained {id : TaskId} {task : Stock E A} {status : Status}
    {guard : Option (Live E A)} (hguard : CalmGuard guard)
    (hrunning : outcome = .running →
      Chained (.node id task .running guard children))
    (hended : outcome ≠ .running → AllCalm children) :
    Chained (conclude id task status guard children outcome w).live := by
  by_cases h : outcome = .running
  · subst h
    exact hrunning rfl
  · exact .calm (calm_node.2 ⟨outcome_status_ne h, hguard, hended h⟩)

/-- An update that ends with a report leaves a chain. By kind of task, each of
which says what its children may look like when it takes its turn. -/
theorem work_chained (h : ∀ c ∈ children, Orderly delta c) {id : TaskId}
    {task : Stock E A} {status : Status} {guard : Option (Live E A)}
    (hguard : CalmGuard guard) (hpoised : Poised task children)
    (hresult : (work delta id task status guard children w).result
      = .ok outcome) :
    Chained (work delta id task status guard children w).live := by
  cases hpoised with
  | @composite mk goOn current _ hmk before onward =>
      rw [work_composite hmk] at hresult ⊢
      dsimp only at hresult ⊢
      cases hrow : (row delta goOn (children.drop current) w).result with
      | error fault =>
          rw [hrow] at hresult
          cases hresult
      | ok passed =>
          rcases row_ends hmk.goOn_ne
            (fun c hc => h c (List.mem_of_mem_drop hc)) onward hrow with
              ⟨hne, hall⟩ | ⟨heq, front, child, back, hsplit, hlength, hbefore,
                hgoing, hchained, hafter⟩
          · exact conclude_chained hguard (fun heq => absurd heq hne) fun _ =>
              allCalm_append.2 ⟨before, hall⟩
          · -- the row stopped at a child, so it was not an empty one
            have hin : current < children.length := by
              refine Nat.lt_of_not_le fun hout => ?_
              rw [List.drop_eq_nil_of_le hout, row] at hrow
              cases hrow
              exact hmk.goOn_ne heq
            have hplace : current
                + (row delta goOn (children.drop current) w).live.1
                = (children.take current ++ front).length := by
              rw [List.length_append, List.length_take,
                Nat.min_eq_left (Nat.le_of_lt hin), hlength]
            refine conclude_chained hguard (fun _ => ?_) fun hne =>
              absurd heq hne
            rw [hplace, hsplit, ← List.append_assoc]
            exact .composite hmk hguard (allCalm_append.2 ⟨before, hbefore⟩)
              hgoing hchained hafter
  | single hsingle onward spent =>
      rw [work_single _ _ _ _ _ _ hsingle] at hresult ⊢
      cases hspent : isSpent task with
      | true =>
          exact conclude_chained hguard (fun h => by cases h) fun _ =>
            spent hspent
      | false =>
          -- A turn is left, so the child gets one.
          rw [hspent] at hresult
          cases onward with
          | nil => cases hresult
          | @cons child rest chained after =>
              dsimp only [Bool.false_eq_true, if_false] at hresult ⊢
              cases hturn : (turn delta child w).result with
              | error fault =>
                  rw [hturn] at hresult
                  cases hresult
              | ok passed =>
                  have hchained :=
                    (h child List.mem_cons_self).turn w passed hturn chained
                  refine conclude_chained hguard (fun hrunning => ?_)
                    fun hended => ?_
                  · refine .single ?_ (passOn_unspent hspent hrunning) hguard
                      hchained after
                    rw [← Stock.kind_arity, passOn_kind, Stock.kind_arity]
                    exact hsingle
                  · refine allCalm_cons.2 ⟨hchained.calm_of_status ?_, after⟩
                    rw [turn_status hturn]
                    exact outcome_status_ne (passOn_ne hended)
  | leaf hleaf beneath =>
      obtain ⟨task', board, hkind, ⟨passed, hwork⟩ | ⟨name, deed, -, hwork⟩⟩ :=
        work_leaf delta id status guard children w hleaf
      · rw [hwork]
        refine conclude_chained hguard (fun _ => .leaf ?_ hguard beneath)
          fun _ => beneath
        rw [← Stock.kind_arity, hkind, Stock.kind_arity]
        exact hleaf
      -- The deed fails to act, and there is no result.
      · rw [hwork] at hresult
        cases hresult

/-- A guard that ends with an answer is calm afterwards. -/
theorem ask_calm {guard : Option (Live E A)}
    (h : ∀ g, guard = some g → Orderly delta g) (hguard : CalmGuard guard)
    {passed : Bool} (hresult : (ask delta guard w).result = .ok passed) :
    CalmGuard (ask delta guard w).live := by
  cases guard with
  | none =>
      rw [ask]
      intro g hg
      cases hg
  | some g => exact (h g rfl).ask w passed hresult (hguard g rfl)

omit [Deed E A] in
/-- A guard with an answer did not report `running`. -/
theorem admission_ok {id : TaskId} {name : String}
    {result : Except Fault Outcome} {passed : Bool}
    (h : admission id name result = .ok passed) :
    ∃ outcome, result = .ok outcome ∧ outcome ≠ .running := by
  cases result with
  | error fault => cases h
  | ok outcome =>
      refine ⟨outcome, rfl, ?_⟩
      rintro rfl
      cases h

/-- Turns and questions keep the running tasks of a tree in one chain. By
induction over the tree: a turn relies on the turns of the children and on the
guard being asked. -/
theorem orderly (delta : Float32) (live : Live E A) : Orderly delta live := by
  induction live using Live.induction with
  | step id task status guard children hguard hchildren =>
      refine ⟨fun w outcome hresult hchained => ?_,
        fun w passed hresult hcalm => ?_⟩
      · rw [turn] at hresult ⊢
        -- A running task is not asked for again: its work goes on.
        split at hresult
        · rename_i hrunning
          subst hrunning
          rw [if_pos rfl]
          exact work_chained hchildren hchained.calmGuard
            hchained.poised hresult
        -- A task that did not run is calm, and so is everything below it.
        · rename_i hidle
          rw [if_neg hidle]
          obtain ⟨-, hbelow, hbeneath⟩ :=
            calm_node.1 (hchained.calm_of_status hidle)
          dsimp only at hresult ⊢
          cases hasked : (ask delta guard w).result with
          | error fault =>
              rw [hasked] at hresult
              cases hresult
          | ok passed =>
              have hstill := ask_calm hguard hbelow hasked
              rw [hasked] at hresult
              cases passed with
              | false =>
                  exact conclude_chained hstill (fun h => by cases h) fun _ =>
                    hbeneath
              | true =>
                  exact work_chained hchildren hstill
                    (hbeneath.poised _) hresult
      -- Asking a guard is a turn of it that has to end.
      · obtain ⟨hidle, hbelow, hbeneath⟩ := calm_node.1 hcalm
        rw [ask] at hresult ⊢
        dsimp only at hresult ⊢
        cases hasked : (ask delta guard w).result with
        | error fault =>
            rw [hasked] at hresult
            cases hresult
        | ok admitted =>
            have hstill := ask_calm hguard hbelow hasked
            rw [hasked] at hresult
            cases admitted with
            | false =>
                exact fun g hg =>
                  Option.some.inj hg ▸ calm_node.2 ⟨hidle, hstill, hbeneath⟩
            | true =>
                obtain ⟨outcome, hwork, hne⟩ := admission_ok hresult
                have hchained :=
                  work_chained hchildren hstill (hbeneath.poised _) hwork
                refine fun g hg =>
                  Option.some.inj hg ▸ hchained.calm_of_status ?_
                rw [work_status hwork]
                exact outcome_status_ne hne

end TaskTree.Direct
