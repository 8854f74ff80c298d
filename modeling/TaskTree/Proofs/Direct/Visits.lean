/-
What becomes of a part of a tree in a turn of the tree.

A turn comes to each of its tasks once at most. Seen from a part of the tree
that is reached over children alone, it either passes the part by, which stays
as it was, or it has a turn of the part somewhere in between, and neither what
comes before that turn nor what comes after it sets any status in the part
(`Branch.fares`). A part that runs is not passed by: in a chained tree those
above it run as well, and each of them goes on with the child that runs
(`Branch.visited`).

`Spares` says what is left alone between two worlds. The notices of a turn
concern the tasks of its tree alone, so they spare every other part.
-/
import TaskTree.Proofs.Direct.SingleChain

namespace TaskTree

/-- The status that a notice gives a task. -/
def Notice.given? (id : TaskId) : Notice → Option Status
  | .status task _ _ current => if task = id then some current else none
  | .added _ _ => none

namespace Direct

open Live

variable {E A : Type}

-- ============================================================== the worlds

/-- The statuses that a task was given. -/
def World.given (id : TaskId) (w : World E) : List Status :=
  w.notices.filterMap (Notice.given? id)

/-- What a task is given grows by the notices of its own. -/
theorem given_tell (id : TaskId) (w : World E) (notice : Notice) :
    (w.tell notice).given id = w.given id ++ (notice.given? id).toList := by
  rw [World.given, World.tell, List.filterMap_append]
  cases h : notice.given? id <;> simp [h, World.given]

/-- From `w` on to `w'` random numbers may be taken, and no status of the tasks
in `p` is set. -/
structure Spares (p : TaskId → Prop) (w w' : World E) : Prop where
  dice : w'.dice = w.dice
  rolled : w.rolled ≤ w'.rolled
  given : ∀ x, p x → w'.given x = w.given x

section

variable {p q : TaskId → Prop} {w w₁ w' : World E}

/-- Nothing done spares everybody. -/
theorem Spares.refl (w : World E) : Spares p w w :=
  ⟨rfl, Nat.le_refl _, fun _ _ => rfl⟩

/-- Who is spared twice is spared. -/
theorem Spares.trans (h : Spares p w w₁) (h' : Spares p w₁ w') :
    Spares p w w' :=
  ⟨h'.dice.trans h.dice, Nat.le_trans h.rolled h'.rolled,
    fun x hx => (h'.given x hx).trans (h.given x hx)⟩

/-- Fewer are spared when more are. -/
theorem Spares.mono (h : Spares p w w') (hsub : ∀ x, q x → p x) :
    Spares q w w' :=
  ⟨h.dice, h.rolled, fun x hx => h.given x (hsub x hx)⟩

/-- Entering a task sets no status. -/
theorem spares_enter (w : World E) (task : Stock E A) :
    Spares p w (enter w task).2 := by
  cases task with
  | repeating count _ =>
      rw [enter]
      split
      · exact ⟨rfl, Nat.le_succ _, fun _ _ => rfl⟩
      · exact .refl w
  | _ => exact .refl w

/-- A report sets the status of its task alone. -/
theorem Spares.tell (h : Spares p w w') {id : TaskId} (hid : ¬ p id)
    (name : String) (previous current : Status) :
    Spares p w (w'.tell (.status id name previous current)) := by
  refine ⟨h.dice, h.rolled, fun x hx => ?_⟩
  have hne : id ≠ x := fun heq => hid (heq ▸ hx)
  rw [given_tell, Notice.given?, if_neg hne]
  exact (List.append_nil _).trans (h.given x hx)

end

-- =========================================================== the branches

/-- The parts of a tree that are reached over children alone. -/
inductive Branch (sub : Live E A) : Live E A → Prop where
  | self : Branch sub sub
  | child {id : TaskId} {task : Stock E A} {status : Status}
      {guard : Option (Live E A)} {children : List (Live E A)}
      {child : Live E A} (mem : child ∈ children) (within : Branch sub child) :
      Branch sub (.node id task status guard children)

section

variable {sub live : Live E A}

/-- A branch is a part, but not every part is a branch: guards are not. -/
theorem Branch.part (h : Branch sub live) : Part sub live := by
  induction h with
  | self => exact .self
  | child mem _ ih => exact .child mem ih

/-- A branch of a branch. -/
theorem Branch.trans {mid : Live E A} (h : Branch sub mid)
    (h' : Branch mid live) : Branch sub live := by
  induction h' with
  | self => exact h
  | child mem _ ih => exact .child mem ih

/-- The handles of a branch are handles of the tree. -/
theorem Branch.mem_ids (h : Branch sub live) {x : TaskId} (hx : x ∈ sub.ids) :
    x ∈ live.ids := by
  obtain ⟨inner, hinner, rfl⟩ := mem_ids_iff.1 hx
  exact mem_ids_iff.2 ⟨inner, hinner.trans h.part, rfl⟩

end

variable [Deed E A]

/-- A tree has its turn between `w` and `w'`, and what it has become
`stands`. -/
inductive Visited (delta : Float32) (n : Live E A) (w : World E)
    (stands : Live E A → Prop) (w' : World E) : Prop where
  | intro {w₁ : World E} {outcome : Outcome} (before : Spares (· ∈ n.ids) w w₁)
      (ran : (turn delta n w₁).result = .ok outcome)
      (there : stands (turn delta n w₁).live)
      (after : Spares (· ∈ n.ids) (turn delta n w₁).world w')

/-- A tree has its turn between `w` and `w'`, or it is passed by. -/
inductive Fares (delta : Float32) (n : Live E A) (w : World E)
    (stands : Live E A → Prop) (w' : World E) : Prop where
  | spared (there : stands n) (spares : Spares (· ∈ n.ids) w w')
  | visited (visited : Visited delta n w stands w')

section

variable {delta : Float32} {n c : Live E A} {w w₁ w₂ w' : World E}
  {stands stands' : Live E A → Prop}

/-- What is done before and after may be added to a visit, if it spares the
task. -/
theorem Visited.widen (h : Visited delta n w₁ stands w₂)
    (hbefore : Spares (· ∈ n.ids) w w₁)
    (hstands : ∀ live, stands live → stands' live)
    (hafter : Spares (· ∈ n.ids) w₂ w') :
    Visited delta n w stands' w' := by
  obtain ⟨before, ran, there, after⟩ := h
  exact ⟨hbefore.trans before, ran, hstands _ there, after.trans hafter⟩

/-- It may be added to how a task fares, too. -/
theorem Fares.widen (h : Fares delta n w₁ stands w₂)
    (hbefore : Spares (· ∈ n.ids) w w₁)
    (hstands : ∀ live, stands live → stands' live)
    (hafter : Spares (· ∈ n.ids) w₂ w') :
    Fares delta n w stands' w' := by
  cases h with
  | spared there spares =>
      exact .spared (hstands n there) ((hbefore.trans spares).trans hafter)
  | visited visited => exact .visited (visited.widen hbefore hstands hafter)

/-- A part has its turn in the turn of what it is a part of. -/
theorem Visited.inside (h : Visited delta c w stands w')
    (hsub : ∀ x ∈ n.ids, x ∈ c.ids)
    (hstands : ∀ live, stands live → ∀ sub, Branch sub live → stands' sub)
    (hinner : ∀ w outcome, (turn delta c w).result = .ok outcome →
      Visited delta n w (Branch · (turn delta c w).live)
        (turn delta c w).world) :
    Visited delta n w stands' w' := by
  obtain ⟨before, ran, there, after⟩ := h
  exact (hinner _ _ ran).widen (before.mono hsub) (hstands _ there)
    (after.mono hsub)

/-- How a branch fares inside a child that fares somehow. -/
theorem Fares.inside (h : Fares delta c w stands w') (hbranch : Branch n c)
    (hstands : ∀ live, stands live → ∀ sub, Branch sub live → stands' sub)
    (hinner : ∀ w outcome, (turn delta c w).result = .ok outcome →
      Fares delta n w (Branch · (turn delta c w).live) (turn delta c w).world) :
    Fares delta n w stands' w' := by
  cases h with
  | spared there spares =>
      exact .spared (hstands c there n hbranch)
        (spares.mono fun _ hx => hbranch.mem_ids hx)
  | visited visited =>
      obtain ⟨before, ran, there, after⟩ := visited
      exact (hinner _ _ ran).widen (before.mono fun _ hx => hbranch.mem_ids hx)
        (hstands _ there) (after.mono fun _ hx => hbranch.mem_ids hx)

end

-- ========================================================= whom it concerns

/-- A turn with a report sets the statuses of its own tasks alone, and so does a
guard that gives an answer. -/
structure Minds (delta : Float32) (live : Live E A) : Prop where
  turn : ∀ w outcome, (turn delta live w).result = .ok outcome →
    Spares (· ∉ live.ids) w (turn delta live w).world
  ask : ∀ w admitted, (ask delta (some live) w).result = .ok admitted →
    Spares (· ∉ live.ids) w (ask delta (some live) w).world

section

variable {delta : Float32} {id : TaskId} {task : Stock E A} {status : Status}
  {guard : Option (Live E A)} {children : List (Live E A)} {w : World E}
  {outcome : Outcome}

omit [Deed E A] in
/-- Who stands apart from all that are touched is spared. -/
theorem spares_of_not_mem {w w' : World E} {c : Live E A} {ids : List TaskId}
    (h : Spares (· ∉ ids) w w') (hapart : ∀ x ∈ c.ids, x ∉ ids) :
    Spares (· ∈ c.ids) w w' :=
  h.mono hapart

omit [Deed E A] in
/-- Of two trees in a row neither has tasks of the other. -/
theorem apart_of_row {child c : Live E A} {rest : List (Live E A)}
    (h : (allIds (child :: rest)).Nodup) (hc : c ∈ rest) :
    ∀ x ∈ c.ids, x ∉ child.ids := by
  intro x hx hmem
  rw [allIds, List.nodup_append] at h
  exact h.2.2 x hmem x (mem_allIds.2 ⟨c, hc, hx⟩) rfl

/-- What a row of children comes to that ends with an outcome. By induction on
the children; the row goes on behind a child only if its outcome says so. -/
theorem row_minds (h : ∀ c ∈ children, Minds delta c) {goOn : Outcome}
    (hok : (row delta goOn children w).result = .ok outcome) :
    Spares (· ∉ allIds children) w (row delta goOn children w).world := by
  induction children generalizing w with
  | nil =>
      rw [row]
      exact .refl w
  | cons child rest ih =>
      rw [row] at hok ⊢
      dsimp only at hok ⊢
      cases hchild : (turn delta child w).result with
      | error fault =>
          rw [hchild] at hok
          cases hok
      | ok passed =>
          rw [hchild] at hok
          dsimp only at hok ⊢
          have hfirst : Spares (· ∉ allIds (child :: rest)) w
              (turn delta child w).world :=
            ((h child List.mem_cons_self).turn w passed hchild).mono
              fun x hx hmem => hx (List.mem_append_left _ hmem)
          split
          · rename_i heq
            rw [if_pos heq] at hok
            have hrest := ih (fun c hc => h c (List.mem_cons_of_mem _ hc)) hok
            exact hfirst.trans
              (hrest.mono fun x hx hmem => hx (List.mem_append_right _ hmem))
          · exact hfirst

/-- What becomes of each child of a row that ends with an outcome. The first one
has its turn. By induction on the children. The first one is visited, and the
others are visited later or not at all; their handles are apart, so that each is
spared by the visits of the others. -/
theorem row_fares (h : ∀ c ∈ children, Minds delta c)
    (hnodup : (allIds children).Nodup) {goOn : Outcome}
    (hok : (row delta goOn children w).result = .ok outcome) :
    (∀ c ∈ children, Fares delta c w (· ∈ (row delta goOn children w).live.2)
        (row delta goOn children w).world)
      ∧ ∀ c, children.head? = some c →
        Visited delta c w (· ∈ (row delta goOn children w).live.2)
        (row delta goOn children w).world := by
  induction children generalizing w with
  | nil =>
      exact ⟨List.forall_mem_nil _,
        fun c hc => absurd hc.symm (Option.some_ne_none c)⟩
  | cons child rest ih =>
      have hminds : ∀ c ∈ rest, Minds delta c :=
        fun c hc => h c (List.mem_cons_of_mem _ hc)
      have hrest : (allIds rest).Nodup := (List.nodup_append.1 hnodup).2.1
      -- The first child is visited whatever comes after it. Of the others we
      -- need only know how they fare.
      suffices hboth : Visited delta child w
          (· ∈ (row delta goOn (child :: rest) w).live.2)
            (row delta goOn (child :: rest) w).world
          ∧ ∀ c ∈ rest, Fares delta c w
            (· ∈ (row delta goOn (child :: rest) w).live.2)
            (row delta goOn (child :: rest) w).world by
        refine ⟨fun c hc => ?_, fun c hc => Option.some.inj hc ▸ hboth.1⟩
        rcases List.mem_cons.1 hc with rfl | hc
        · exact .visited hboth.1
        · exact hboth.2 c hc
      rw [row] at hok ⊢
      dsimp only at hok ⊢
      cases hchild : (turn delta child w).result with
      | error fault =>
          rw [hchild] at hok
          cases hok
      | ok passed =>
          rw [hchild] at hok
          dsimp only at hok ⊢
          have hfirst : ∀ c ∈ rest,
              Spares (· ∈ c.ids) w (turn delta child w).world := fun c hc =>
            spares_of_not_mem
              ((h child List.mem_cons_self).turn w passed hchild)
              (apart_of_row hnodup hc)
          split
          · rename_i heq
            rw [if_pos heq] at hok
            refine ⟨.intro (.refl w) hchild List.mem_cons_self ?_,
              fun c hc => ?_⟩
            · refine (row_minds hminds hok).mono
                fun x (hx : x ∈ child.ids) hmem => ?_
              obtain ⟨c, hc, hxc⟩ := mem_allIds.1 hmem
              exact apart_of_row hnodup hc x hxc hx
            · exact ((ih hminds hrest hok).1 c hc).widen (hfirst c hc)
                (fun _ hlive => List.mem_cons_of_mem _ hlive) (.refl _)
          · exact ⟨.intro (.refl w) hchild List.mem_cons_self (.refl _),
              fun c hc => .spared (List.mem_cons_of_mem _ hc) (hfirst c hc)⟩

/-- The child that an update goes to first. -/
def firstRun? (task : Stock E A) (children : List (Live E A)) :
    Option (Live E A) :=
  match task with
  | .sequence current | .selector current => children[current]?
  | task =>
    if task.arity = .single ∧ isSpent task = false then children.head? else none

omit [Deed E A] in
/-- The first child that a composite runs is the one at its place. -/
theorem Composite.firstRun? {mk : Nat → Stock E A} {goOn : Outcome}
    (h : Composite mk goOn) (current : Nat) :
    firstRun? (mk current) children = (children.drop current).head? := by
  rw [List.head?_drop]
  cases h <;> rfl

omit [Deed E A] in
/-- A task with one child runs it first, unless it is spent. -/
theorem firstRun?_single (h : task.arity = .single)
    (children : List (Live E A)) :
    firstRun? task children
      = if isSpent task = false then children.head? else none := by
  unfold firstRun?
  cases task with
  | sequence _ | selector _ => cases h
  | _ => simp only [h, true_and]

omit [Deed E A] in
/-- A leaf runs nobody. -/
theorem firstRun?_leaf (h : task.arity = .leaf) (children : List (Live E A)) :
    firstRun? task children = none := by
  unfold firstRun?
  cases task with
  | sequence _ | selector _ => cases h
  | _ => simp only [h, reduceCtorEq, false_and, if_false]

/-- An update that ends with a report comes to the children of its task, and
then the task reports. -/
inductive Works (delta : Float32) (id : TaskId) (task : Stock E A)
    (status : Status) (guard : Option (Live E A)) (children : List (Live E A))
    (w : World E) (outcome : Outcome)
    (ran : Ran E (Live E A) Outcome) : Prop where
  | intro {task' : Stock E A} {children' : List (Live E A)} {w' : World E}
      (concludes : ran = conclude id task' status guard children' outcome w')
      (minds : Spares (· ∉ allIds children) w w')
      (fares : (allIds children).Nodup →
        ∀ c ∈ children, Fares delta c w (· ∈ children') w')
      (first : (allIds children).Nodup → ∀ c, firstRun? task children = some c →
        Visited delta c w (· ∈ children') w')

/-- A composite has a turn of the row of its children from its place on. -/
theorem work_works_composite {mk : Nat → Stock E A} {goOn : Outcome}
    (hmk : Composite mk goOn) {current : Nat}
    (h : ∀ c ∈ children, Minds delta c)
    (hok : (work delta id (mk current) status guard children w).result
      = .ok outcome) :
    Works delta id (mk current) status guard children w outcome
      (work delta id (mk current) status guard children w) := by
  -- The children from the place on are those that are run. The ones before it
  -- are spared.
  have hminds : ∀ c ∈ children.drop current, Minds delta c :=
    fun c hc => h c (List.mem_of_mem_drop hc)
  have hids : allIds children
      = allIds (children.take current) ++ allIds (children.drop current) := by
    rw [← allIds_append, List.take_append_drop]
  rw [work_composite hmk] at hok ⊢
  dsimp only at hok ⊢
  cases hrow : (row delta goOn (children.drop current) w).result with
  | error fault =>
      rw [hrow] at hok
      cases hok
  | ok passed =>
      rw [hrow] at hok
      cases hok
      have hspares := row_minds hminds hrow
      have hback : ∀ c, c ∈ (row delta goOn (children.drop current) w).live.2 →
          c ∈ children.take current
            ++ (row delta goOn (children.drop current) w).live.2 :=
        fun c hc => List.mem_append_right _ hc
      -- What the work comes to, who is spared by it, how each child
      -- fares, and that the first one is visited.
      refine .intro rfl ?_ (fun hnodup c hc => ?_) fun hnodup c hc => ?_
      · exact hspares.mono fun x hx hmem =>
          hx (hids ▸ List.mem_append_right _ hmem)
      · rw [hids, List.nodup_append] at hnodup
        rw [← List.take_append_drop current children, List.mem_append] at hc
        rcases hc with hc | hc
        · refine .spared (List.mem_append_left _ hc)
            (hspares.mono fun x hx hmem => ?_)
          exact hnodup.2.2 x (mem_allIds.2 ⟨c, hc, hx⟩) x hmem rfl
        · exact ((row_fares hminds hnodup.2.1 hrow).1 c hc).widen (.refl w)
            hback (.refl _)
      · rw [hids, List.nodup_append] at hnodup
        rw [hmk.firstRun?] at hc
        exact ((row_fares hminds hnodup.2.1 hrow).2 c hc).widen (.refl w)
          hback (.refl _)

/-- A decorator has a turn of its child, if it has something left to run it for.
A repetition that has no runs left does not run its child. -/
theorem work_works_single (hsingle : task.arity = .single)
    (h : ∀ c ∈ children, Minds delta c)
    (hok : (work delta id task status guard children w).result = .ok outcome) :
    Works delta id task status guard children w outcome
      (work delta id task status guard children w) := by
  rw [work_single _ _ _ _ _ _ hsingle] at hok ⊢
  have hfirst := firstRun?_single hsingle children
  cases hspent : isSpent task with
  | true =>
      rw [hspent] at hok hfirst
      cases hok
      refine .intro rfl (.refl w) (fun _ c hc => .spared hc (.refl w))
        fun _ c hc => ?_
      rw [hfirst] at hc
      cases hc
  | false =>
      rw [hspent] at hok hfirst
      rw [if_pos rfl] at hfirst
      cases children with
      | nil => cases hok
      | cons child rest =>
          dsimp only [Bool.false_eq_true, if_false] at hok ⊢
          cases hchild : (turn delta child w).result with
          | error fault =>
              rw [hchild] at hok
              cases hok
          | ok passed =>
              rw [hchild] at hok
              cases hok
              have hspares := (h child List.mem_cons_self).turn w passed hchild
              have hvisited : Visited delta child w
                  (· ∈ (turn delta child w).live :: rest)
                  (turn delta child w).world :=
                .intro (.refl w) hchild List.mem_cons_self (.refl _)
              refine .intro rfl ?_ (fun hnodup c hc => ?_) fun _ c hc => ?_
              · exact hspares.mono fun x hx hmem =>
                  hx (List.mem_append_left _ hmem)
              · rcases List.mem_cons.1 hc with rfl | hc
                · exact .visited hvisited
                · exact .spared (List.mem_cons_of_mem _ hc)
                    (hspares.mono (apart_of_row hnodup hc))
              · rw [hfirst] at hc
                exact Option.some.inj hc ▸ hvisited

/-- A leaf has no turn of anybody. -/
theorem work_works_leaf (hleaf : task.arity = .leaf)
    (hok : (work delta id task status guard children w).result = .ok outcome) :
    Works delta id task status guard children w outcome
      (work delta id task status guard children w) := by
  have hfirst := firstRun?_leaf hleaf children
  obtain ⟨task', board, -, ⟨passed, hwork⟩ | ⟨name, deed, -, hwork⟩⟩ :=
    work_leaf delta id status guard children w hleaf
  · rw [hwork] at hok ⊢
    cases hok
    have hspares : ∀ {p : TaskId → Prop}, Spares p w { w with board } :=
      ⟨rfl, Nat.le_refl _, fun _ _ => rfl⟩
    refine .intro rfl hspares (fun _ c hc => .spared hc hspares) fun _ c hc =>
      ?_
    rw [hfirst] at hc
    cases hc
  · rw [hwork] at hok
    cases hok

/-- What an update comes to that ends with a report. -/
theorem work_works (h : ∀ c ∈ children, Minds delta c)
    (hok : (work delta id task status guard children w).result = .ok outcome) :
    Works delta id task status guard children w outcome
      (work delta id task status guard children w) := by
  rcases arity_cases task with ⟨mk, goOn, current, hmk, rfl⟩ | hsingle | hleaf
  · exact work_works_composite hmk h hok
  · exact work_works_single hsingle h hok
  · exact work_works_leaf hleaf hok

/-- The work of a task touches nobody but the task and its children. -/
theorem work_minds (h : ∀ c ∈ children, Minds delta c)
    (hok : (work delta id task status guard children w).result = .ok outcome) :
    Spares (· ∉ id :: allIds children) w
      (work delta id task status guard children w).world := by
  obtain ⟨concludes, minds, -, -⟩ := work_works h hok
  rw [concludes]
  exact (minds.mono fun x hx hmem => hx (List.mem_cons_of_mem _ hmem)).tell
    (fun hid => hid List.mem_cons_self) ..

/-- A task that reports is given the status that it reports. -/
theorem work_given (h : ∀ c ∈ children, Minds delta c)
    (hid : id ∉ allIds children)
    (hok : (work delta id task status guard children w).result = .ok outcome) :
    (work delta id task status guard children w).world.given id
      = w.given id ++ [outcome.status] := by
  obtain ⟨concludes, minds, -, -⟩ := work_works h hok
  rw [concludes, conclude, given_tell, Notice.given?, if_pos rfl,
    minds.given id hid]
  rfl

/-- How a turn goes that ends with a report. -/
inductive Turns (delta : Float32) (id : TaskId) (task : Stock E A)
    (status : Status) (guard : Option (Live E A)) (children : List (Live E A))
    (w : World E) (outcome : Outcome)
    (ran : Ran E (Live E A) Outcome) : Prop where
  /-- A running task is updated. -/
  | resumed (running : status = .running)
      (works : ran = work delta id task .running guard children w)
      (ok : ran.result = .ok outcome)
  /-- The guard is against the task. -/
  | refused (idle : status ≠ .running)
      (asked : (ask delta guard w).result = .ok false)
      (failed : outcome = .failed)
        (concludes : ran
          = conclude id task status (ask delta guard w).live children .failed
            (ask delta guard w).world)
  /-- The task is entered and updated. -/
  | entered (idle : status ≠ .running)
      (asked : (ask delta guard w).result = .ok true)
        (works :
          ran = work delta id (enter (ask delta guard w).world task).1 status
            (ask delta guard w).live children
            (enter (ask delta guard w).world task).2)
      (ok : ran.result = .ok outcome)

/-- A turn that gives an outcome is one of the three. -/
theorem turn_turns
    (hok : (turn delta (.node id task status guard children) w).result
      = .ok outcome) :
    Turns delta id task status guard children w outcome
      (turn delta (.node id task status guard children) w) := by
  rw [turn] at hok ⊢
  by_cases hrunning : status = .running
  · rw [if_pos hrunning] at hok ⊢
    subst hrunning
    exact .resumed rfl rfl hok
  · rw [if_neg hrunning] at hok ⊢
    dsimp only at hok ⊢
    cases hasked : (ask delta guard w).result with
    | error fault =>
        rw [hasked] at hok
        cases hok
    | ok admitted =>
        rw [hasked] at hok
        cases admitted with
        | false =>
            cases hok
            exact .refused hrunning hasked rfl rfl
        | true => exact .entered hrunning hasked rfl hok

/-- Asking a guard touches nobody but those of the guard. -/
theorem ask_minds (h : ∀ g, guard = some g → Minds delta g) {admitted : Bool}
    (hok : (ask delta guard w).result = .ok admitted) :
    Spares (· ∉ guardIds guard) w (ask delta guard w).world := by
  cases guard with
  | none =>
      rw [ask]
      exact .refl w
  | some g => exact (h g rfl).ask w admitted hok

/-- Every tree minds its own business: its turn, and its being asked as a guard,
touch nobody outside. -/
theorem minds (delta : Float32) (live : Live E A) : Minds delta live := by
  induction live using Live.induction with
  | step id task status guard children hguard hchildren =>
      -- Who is outside the tree is outside its guard, and is neither the task
      -- itself nor among its children.
      have hself : ∀ x, x ∉ (Live.node id task status guard children).ids →
          x ∉ guardIds guard ∧ x ∉ id :: allIds children := by
        intro x hx
        rw [ids, List.mem_cons, List.mem_append, not_or, not_or] at hx
        exact ⟨hx.2.1, fun hmem => (List.mem_cons.1 hmem).elim hx.1 hx.2.2⟩
      refine ⟨fun w outcome hok => ?_, fun w admitted hok => ?_⟩
      · cases turn_turns hok with
        | resumed _ hworks hok =>
            rw [hworks] at hok ⊢
            exact (work_minds hchildren hok).mono fun x hx => (hself x hx).2
        | refused _ hasked _ hconcludes =>
            rw [hconcludes]
            exact ((ask_minds hguard hasked).mono fun x hx =>
                (hself x hx).1).tell
              (fun hid => hid (id_mem_ids _)) ..
        | entered _ hasked hworks hok =>
            rw [hworks] at hok ⊢
            exact ((ask_minds hguard hasked).mono fun x hx =>
                (hself x hx).1).trans
              ((spares_enter _ _).trans
                ((work_minds hchildren hok).mono fun x hx => (hself x hx).2))
      · rw [ask] at hok ⊢
        dsimp only at hok ⊢
        cases hasked : (ask delta guard w).result with
        | error fault =>
            rw [hasked] at hok
            cases hok
        | ok passed =>
            have hbefore :=
              (ask_minds hguard hasked).mono fun x hx => (hself x hx).1
            rw [hasked] at hok
            cases passed with
            | false => exact hbefore
            | true =>
                obtain ⟨outcome, hwork, -⟩ := admission_ok hok
                exact hbefore.trans ((spares_enter _ _).trans
                  ((work_minds hchildren hwork).mono fun x hx =>
                    (hself x hx).2))

end

-- ============================================================== the parts

section

variable {delta : Float32} {n live : Live E A} {w : World E} {outcome : Outcome}

/-- What a turn does to the children of its task. -/
theorem turn_fares {id : TaskId} {task : Stock E A} {status : Status}
    {guard : Option (Live E A)} {children : List (Live E A)}
    (hok : (turn delta (.node id task status guard children) w).result
      = .ok outcome)
    (hnodup : (id :: (guardIds guard ++ allIds children)).Nodup) {c : Live E A}
    (hc : c ∈ children) :
    Fares delta c w
      (Branch · (turn delta (.node id task status guard children) w).live)
      (turn delta (.node id task status guard children) w).world := by
  -- The child is apart from the task itself and from its guard, so that both
  -- spare it.
  obtain ⟨hid, hbelow⟩ := List.nodup_cons.1 hnodup
  obtain ⟨-, hrow, hguarded⟩ := List.nodup_append.1 hbelow
  have hown : ∀ x ∈ c.ids, x ≠ id := fun x hx heq =>
    hid (heq ▸ List.mem_append_right _ (mem_allIds.2 ⟨c, hc, hx⟩))
  have hguard : ∀ x ∈ c.ids, x ∉ guardIds guard := fun x hx hmem =>
    hguarded x hmem x (mem_allIds.2 ⟨c, hc, hx⟩) rfl
  have hasks : ∀ {admitted : Bool}, (ask delta guard w).result = .ok admitted →
      Spares (· ∈ c.ids) w (ask delta guard w).world := fun hasked =>
    (ask_minds (fun g _ => minds delta g) hasked).mono hguard
  have hbranch :
      ∀ {task' : Stock E A} {status' : Status} {guard' : Option (Live E A)}
      {children' : List (Live E A)} (live : Live E A), live ∈ children' →
        Branch live (.node id task' status' guard' children') :=
    fun _ hmem => .child hmem .self
  -- Resumed and entered tasks do their work, where the children fare as above.
  -- A refused task leaves its children alone.
  cases turn_turns hok with
  | resumed _ hworks hok =>
      rw [hworks] at hok ⊢
      obtain ⟨hconcludes, -, hfares, -⟩ :=
        work_works (fun c _ => minds delta c) hok
      rw [hconcludes]
      exact (hfares hrow c hc).widen (.refl w) hbranch
        ((Spares.refl _).tell (fun hmem => hown _ hmem rfl) ..)
  | refused _ hasked _ hconcludes =>
      rw [hconcludes]
      exact .spared (.child hc .self)
        ((hasks hasked).tell (fun hmem => hown _ hmem rfl) ..)
  | entered _ hasked hworks hok =>
      rw [hworks] at hok ⊢
      obtain ⟨hconcludes, -, hfares, -⟩ :=
        work_works (fun c _ => minds delta c) hok
      rw [hconcludes]
      exact (hfares hrow c hc).widen
        ((hasks hasked).trans (spares_enter _ _)) hbranch
        ((Spares.refl _).tell (fun hmem => hown _ hmem rfl) ..)

omit [Deed E A] in
/-- The handles of a child are apart from each other, if those of the tree
are. -/
theorem nodup_child {id : TaskId} {task : Stock E A} {status : Status}
    {guard : Option (Live E A)} {children : List (Live E A)}
    (h : (Live.node id task status guard children).ids.Nodup) {c : Live E A}
    (hc : c ∈ children) : c.ids.Nodup := by
  rw [ids] at h
  have hrow := (List.nodup_append.1 (List.nodup_cons.1 h).2).2.1
  obtain ⟨front, back, rfl⟩ := List.append_of_mem hc
  rw [allIds_append, allIds, List.nodup_append, List.nodup_append] at hrow
  exact hrow.2.1.1

omit [Deed E A] in
/-- So are those of a branch. -/
theorem Branch.nodup (h : Branch n live) (hnodup : live.ids.Nodup) :
    n.ids.Nodup := by
  induction h with
  | self => exact hnodup
  | child mem _ ih => exact ih (nodup_child hnodup mem)

/-- A turn that ends with a report has a turn of each part of its tree that is
reached over children alone, or passes it by. -/
theorem Branch.fares (h : Branch n live) (hnodup : live.ids.Nodup)
    (hok : (turn delta live w).result = .ok outcome) :
    Fares delta n w (Branch · (turn delta live w).live)
      (turn delta live w).world := by
  induction h generalizing w outcome with
  | self => exact .visited (.intro (.refl w) hok .self (.refl _))
  | child mem within ih =>
      have hinner := nodup_child hnodup mem
      rw [ids] at hnodup
      exact (turn_fares hok hnodup mem).inside within
        (fun _ hbranch sub hsub => hsub.trans hbranch) fun w outcome hok =>
          ih hinner hok

omit [Deed E A] in
/-- A task that runs in a chained tree goes on with the child that runs. -/
theorem Chained.firstRun? {id : TaskId} {task : Stock E A}
    {guard : Option (Live E A)} {children : List (Live E A)}
    (h : Chained (.node id task .running guard children)) {c : Live E A}
    (hc : c ∈ children) (hrunning : c.status = .running) :
    firstRun? task children = some c := by
  obtain ⟨i, hi⟩ := List.mem_iff_getElem?.1 hc
  cases h with
  | calm rest => exact absurd rfl (calm_node.1 rest).1
  | composite hmk _ before _ _ after =>
      obtain rfl := place_of_running rfl before after hi hrunning
      rw [hmk.firstRun?, List.head?_drop]
      exact hi
  | @single _ _ _ child back hsingle unspent _ _ after =>
      have hsplit : child :: back = [] ++ child :: back := rfl
      obtain rfl := place_of_running hsplit allCalm_nil after hi hrunning
      rw [firstRun?_single hsingle, if_pos unspent, List.head?_eq_getElem?]
      exact hi
  | leaf _ _ beneath => exact absurd hrunning (beneath c hc).status_ne

/-- The child that an update goes to first has its turn. -/
theorem turn_visits {id : TaskId} {task : Stock E A} {guard : Option (Live E A)}
    {children : List (Live E A)}
    (hok : (turn delta (.node id task .running guard children) w).result
      = .ok outcome)
    (hnodup : (id :: (guardIds guard ++ allIds children)).Nodup) {c : Live E A}
    (hc : firstRun? task children = some c) (hmem : c ∈ children) :
    Visited delta c w
      (Branch · (turn delta (.node id task .running guard children) w).live)
      (turn delta (.node id task .running guard children) w).world := by
  obtain ⟨hid, hbelow⟩ := List.nodup_cons.1 hnodup
  obtain ⟨-, hrow, -⟩ := List.nodup_append.1 hbelow
  have hown : ¬ id ∈ c.ids :=
    fun hx => hid (List.mem_append_right _ (mem_allIds.2 ⟨c, hmem, hx⟩))
  cases turn_turns hok with
  | resumed _ hworks hok =>
      rw [hworks] at hok ⊢
      obtain ⟨hconcludes, -, -, hfirst⟩ :=
        work_works (fun c _ => minds delta c) hok
      rw [hconcludes]
      exact (hfirst hrow c hc).widen (.refl w)
        (fun _ hlive => .child hlive .self) ((Spares.refl _).tell hown ..)
  | refused hidle | entered hidle => exact absurd rfl hidle

/-- A turn that ends with a report has a turn of each part of its tree that
runs. By induction on how the branch stands in the tree. All tasks above one
that runs are running, and each of them runs first the child that leads to it.
-/
theorem Branch.visited (h : Branch n live) (hchained : Chained live)
    (hrunning : n.status = .running) (hnodup : live.ids.Nodup)
    (hok : (turn delta live w).result = .ok outcome) :
    Visited delta n w (Branch · (turn delta live w).live)
      (turn delta live w).world := by
  induction h generalizing w outcome with
  | self => exact .intro (.refl w) hok .self (.refl _)
  | @child id task status guard children child mem within ih =>
      have hinner := nodup_child hnodup mem
      have hbelow := hchained.child child mem
      have hchild : child.status = .running :=
        Classical.byContradiction fun hidle =>
          ((hbelow.calm_of_status hidle).part within.part).status_ne hrunning
      have hstatus : status = .running := Classical.byContradiction fun hidle =>
        ((hchained.calm_of_status hidle).part (.child mem .self)).status_ne
          hchild
      subst hstatus
      rw [ids] at hnodup
      exact (turn_visits hok hnodup (hchained.firstRun? mem hchild) mem).inside
        (fun x hx => within.mem_ids hx)
        (fun _ hbranch sub hsub => hsub.trans hbranch) fun w outcome hok =>
          ih hbelow hinner hok

end

end Direct

end TaskTree
