/-
A tree steps in its arena as it steps in the direct evaluation.

Between two steps an arena `Bears` a tree with its world: the tree's slots
are the arena's slots apart from the guard evaluator's, and all tasks are
at rest in them. Every step preserves this, also a step that a fault has
aborted (`step_bears`). A tree that was planted at once has its tasks in
preorder in the slots, and then the arena `Mirrors` the tree
(`mirrors_ofBlueprint`). So whatever one can see of such a tree, step after
step, is what one sees of the direct evaluation (`observe_ofBlueprint`).
-/
import TaskTree.Proofs.Direct.Planting
import TaskTree.Proofs.Direct.Simulation

namespace TaskTree

-- ====================================================== what can be seen

/-- What can be seen of a tree after a step: what the step gave, the board,
where every task stands, and what listeners were told until then. -/
structure Sight (E : Type) where
  result : Except Fault Status
  board : E
  statuses : List (TaskId × Status)
  told : List (Listener × Notice)

/-- The sights of an arena in a run of steps, one for each time step. -/
def Arena.observe {E T : Type} [Behavior E T] (budget : Nat) :
    List Float32 → Arena E T → Option (List (Sight E))
  | [], _ => some []
  | delta :: rest, a => do
    let (result, a) ← step budget delta a
    let later ← observe budget rest a
    let statuses := a.tasks.map fun id => (id, a.statusOf id)
    return { result, board := a.board, statuses, told := a.told } :: later

namespace Direct

variable {E A : Type}

/-- The notices of a world, each of them to all listeners. -/
def World.told (w : World E) (listeners : List Listener) :
    List (Listener × Notice) :=
  w.notices.flatMap fun notice => listeners.map fun who => (who, notice)

variable [Deed E A]

/-- The sights of the direct evaluation in a run of steps. -/
def observe (listeners : List Listener) :
    List Float32 → Live E A → World E → List (Sight E)
  | [], _, _ => []
  | delta :: rest, live, w =>
    let ran := step delta live w
    { result := ran.result
      board := ran.world.board
      statuses := ran.live.statuses
      told := ran.world.told listeners }
      :: observe listeners rest ran.live ran.world

-- ============================================================= mirroring

open Arena Live

/-- The arena is the tree, between two steps, in whatever order the tasks
came to their slots. -/
structure Bears (base : List (Listener × Notice)) (a : Arena E (Stock E A))
    (live : Live E A) (w : World E) : Prop where
  root : a.root = some live.id
  tasks : a.tasks.Perm live.ids
  holds : Holds a .root live
  idle : Idle a
  shares : Shares base a w

/-- The arena is the tree, between two steps, and its tasks stand in the order
of the tree, as those of a tree do that was planted all at once. -/
structure Mirrors (base : List (Listener × Notice)) (a : Arena E (Stock E A))
    (live : Live E A) (w : World E) : Prop extends Bears base a live w where
  order : a.tasks = live.ids

section

variable {base : List (Listener × Notice)} {a : Arena E (Stock E A)}
  {live : Live E A} {w : World E}

omit [Deed E A] in
/-- The handles of the tasks of an arena are different, and none of them is
the guard evaluator's. -/
theorem Bears.quiet (h : Bears base a live w) :
    .evaluator ∉ live.ids ∧ live.ids.Nodup := by
  rw [← h.tasks.mem_iff, ← h.tasks.nodup_iff, Arena.tasks]
  constructor
  · rw [List.mem_map]
    rintro ⟨i, -, hi⟩
    exact Nat.succ_ne_zero i (congrArg TaskId.index hi)
  · refine List.Pairwise.map _ (fun i j hij heq => hij ?_) List.nodup_range
    exact Nat.succ.inj (congrArg TaskId.index heq)

omit [Deed E A] in
/-- What a step writes into the journal at its beginning and at its end
changes nothing about the tree. -/
theorem Bears.mark (h : Bears base a live w) (fault : Option Fault)
    (entry : Entry) (hentry : entry.notice? = none) :
    Bears base ({ a with fault }.log entry) live w where
  root := h.root
  tasks := h.tasks
  holds := h.holds.frame fun _ _ => rfl
  idle := h.idle.congr rfl
  shares := by
    refine ⟨h.shares.board, h.shares.dice, h.shares.rolled, ?_⟩
    rw [told_log, hentry, Option.toList_none, List.append_nil]
    exact h.shares.told

end

omit [Deed E A] in
theorem tasks_congr {a a' : Arena E (Stock E A)}
    (h : a'.slots.size = a.slots.size) :
    a'.tasks = a.tasks := by
  rw [tasks, tasks, h]

/-- The end of a step, when its root has had its turn. -/
def ended (a : Arena E (Stock E A)) :
    Except Fault Status × Arena E (Stock E A) :=
  match a.fault with
  | some fault =>
    (.error fault, { a with fault := none }.log (.stepAborted fault))
  | none => (.ok a.status, a)

/-- After a step an arena bears what has become of its tree, and the result
is the same. The guard evaluator is as it was. -/
theorem step_bears {base : List (Listener × Notice)} {a : Arena E (Stock E A)}
    {live : Live E A} {w : World E} (h : Bears base a live w)
    (delta : Float32) :
    ∃ a', Settles (fun b => Arena.step b delta a)
      ((step delta live w).result, a')
      ∧ Bears base a' (step delta live w).live (step delta live w).world
      ∧ a'.listeners = a.listeners ∧ a'.tasks = a.tasks
      ∧ a'.slot? .evaluator = a.slot? .evaluator := by
  obtain ⟨begun, hbegun⟩ : ∃ begun,
      begun = { a with fault := none }.log (.stepBegan live.id delta) :=
    ⟨_, rfl⟩
  have hbefore : Bears base begun live w := by
    rw [hbegun]
    exact h.mark none _ rfl
  obtain ⟨hhidden, hnodup⟩ := hbefore.quiet
  have hquiet : Quiet begun live.ids :=
    ⟨by rw [hbegun]; rfl, hbefore.idle, hhidden, hnodup⟩
  obtain ⟨a₁, hdrive, hholds, heffect⟩ :=
    simulates delta live base .root begun w hquiet trivial
      hbefore.shares hbefore.holds
  have htasks : a₁.tasks = begun.tasks :=
    tasks_congr (by rw [heffect.size, Role.receive_size])
  have hevaluator : a₁.slot? .evaluator = begun.slot? .evaluator := by
    rw [heffect.slots _ hhidden]
    cases (turn delta live w).result <;> rfl
  have hafter : Bears base a₁ (turn delta live w).live
      (turn delta live w).world := by
    refine ⟨?_, ?_, hholds, hquiet.idle.congr hevaluator, heffect.shares⟩
    · rw [turn_id, heffect.root, Role.receive_root, hbefore.root]
    · rw [turn_ids, htasks]
      exact hbefore.tasks
  have hlisteners : a₁.listeners = a.listeners := by
    rw [heffect.listeners, Role.receive_listeners, hbegun]
    rfl
  rw [hbegun] at htasks hevaluator
  have hstep : ∀ b, Arena.step b delta a
      = (drive b delta live.id .tree begun).bind fun a => some (ended a) := by
    intro b
    rw [Arena.step, h.root, hbegun]
    refine Option.bind_congr fun a _ => ?_
    unfold ended
    cases a.fault <;> rfl
  simp only [hstep]
  rw [step]
  cases hresult : (turn delta live w).result with
  | error fault =>
      rw [hresult] at heffect
      refine ⟨{ a₁ with fault := none }.log (.stepAborted fault),
        hdrive.bind ?_, hafter.mark none _ rfl, hlisteners, htasks, hevaluator⟩
      simp only [ended, heffect.fault, faultOf]
      exact Settles.const _
  | ok outcome =>
      rw [hresult] at heffect
      have hstatus : a₁.status = outcome.status := heffect.status
      refine ⟨a₁, hdrive.bind ?_, hafter, hlisteners, htasks, hevaluator⟩
      simp only [ended, heffect.fault, faultOf, hstatus]
      exact Settles.const _

/-- A step keeps an arena the mirror of its tree, and gives the same
result. -/
theorem step_mirrors {base : List (Listener × Notice)} {a : Arena E (Stock E A)}
    {live : Live E A} {w : World E} (h : Mirrors base a live w)
    (delta : Float32) :
    ∃ a', Settles (fun b => Arena.step b delta a)
      ((step delta live w).result, a')
      ∧ Mirrors base a' (step delta live w).live (step delta live w).world
      ∧ a'.listeners = a.listeners := by
  obtain ⟨a', hsettles, hbears, hlisteners, htasks, -⟩ :=
    step_bears h.toBears delta
  refine ⟨a', hsettles, ⟨hbears, ?_⟩, hlisteners⟩
  rw [htasks, h.order, step, turn_ids]

-- ============================================================= beginnings

omit [Deed E A] in
/-- Listeners that are registered before anything was told have nothing to
catch up on. -/
theorem Mirrors.listen {a : Arena E (Stock E A)} {live : Live E A} {w : World E}
    (h : Mirrors [] a live w) (hsilent : w.notices = [])
    (listeners : List Listener) :
    Mirrors [] (listeners.foldl Arena.addListener a) live w
      ∧ (listeners.foldl Arena.addListener a).listeners
        = a.listeners ++ listeners := by
  induction listeners generalizing a with
  | nil => exact ⟨h, (List.append_nil _).symm⟩
  | cons who rest ih =>
      have hadded : Mirrors [] (a.addListener who) live w := by
        refine ⟨⟨h.root, h.tasks, h.holds.frame fun _ _ => rfl,
          h.idle.congr rfl, h.shares.board, h.shares.dice, h.shares.rolled, ?_⟩,
          h.order⟩
        have htold := h.shares.told
        rw [hsilent] at htold ⊢
        exact htold
      obtain ⟨hmirrors, hlisteners⟩ := ih hadded
      refine ⟨hmirrors, ?_⟩
      rw [List.foldl_cons, hlisteners, addListener, List.append_assoc]
      rfl

/-- A root that is planted where there is nothing but the guard evaluator. -/
theorem mirrors_plant {a : Arena E (Stock E A)} (hsize : a.slots.size = 1)
    (hidle : Idle a) (root : Blueprint (Stock E A))
    {base : List (Listener × Notice)} {w : World E}
    (hshares : Shares base (plant .root root a) w) :
    Mirrors base (plant .root root a) (number 1 root) w := by
  have hgrown := plant_root_grown root a
  have hholds := plant_holds .root root a (fun x hx => nomatch hx)
  have hevaluator : (plant .root root a).slot? .evaluator
      = a.slot? .evaluator :=
    plant_slot?_other .root root a (by rw [hsize]; exact Nat.one_pos)
      (fun h => nomatch h)
  rw [hsize] at hholds
  have horder : (plant .root root a).tasks = (number 1 root).ids := by
    rw [tasks, plant_size, hsize, Nat.add_sub_cancel_left, ids_number,
      List.range'_eq_map_range, List.map_map]
    exact List.map_congr_left fun i _ => congrArg TaskId.mk (Nat.add_comm i 1)
  refine ⟨⟨?_, .of_eq horder, hholds, hidle.congr hevaluator, hshares⟩, horder⟩
  rw [hgrown.root, number_id, ← hsize]
  rfl

/-- A tree that was just planted mirrors its blueprint, and nobody was told
of it. -/
theorem mirrors_ofBlueprint (root : Blueprint (Stock E A)) (board : E)
    (dice : Nat → Nat) :
    Mirrors [] (ofBlueprint root board dice) (number 1 root)
        { board, dice, rolled := 0, notices := [] }
      ∧ (ofBlueprint root board dice).listeners = [] := by
  obtain ⟨start, hstart⟩ : ∃ start : Arena E (Stock E A),
      start = Arena.empty board dice := ⟨_, rfl⟩
  have hgrown := plant_root_grown root start
  have hsize : start.slots.size = 1 := by
    rw [hstart]
    rfl
  have hidle : Idle start := by
    rw [hstart]
    exact ⟨Slot.of .evaluator none, rfl, rfl, rfl⟩
  unfold ofBlueprint
  rw [← hstart]
  refine ⟨mirrors_plant hsize hidle root ⟨?_, ?_, ?_, ?_⟩, ?_⟩
  · rw [hgrown.board, hstart]
    rfl
  · rw [hgrown.dice, hstart]
    rfl
  · rw [hgrown.rolled, hstart]
    rfl
  · rw [hgrown.told (by rw [hstart]; rfl), hstart]
    rfl
  · rw [hgrown.listeners, hstart]
    rfl

-- ============================================================ whole runs

/-- A run of steps shows of an arena what it shows of the tree that the
arena mirrors. -/
theorem observe_mirrors {a : Arena E (Stock E A)} {live : Live E A}
    {w : World E} (h : Mirrors [] a live w) (deltas : List Float32) :
    Settles (fun b => a.observe b deltas)
      (observe a.listeners deltas live w) := by
  induction deltas generalizing a live w with
  | nil => exact Settles.const _
  | cons delta rest ih =>
      obtain ⟨a', hstep, hmirrors, hlisteners⟩ := step_mirrors h delta
      have hlater := ih hmirrors
      have hstatuses : (a'.tasks.map fun id => (id, a'.statusOf id))
          = (step delta live w).live.statuses := by
        rw [hmirrors.order]
        exact holds_statuses _ hmirrors.holds
      have htold : a'.told = (step delta live w).world.told a.listeners := by
        rw [hmirrors.shares.told, List.nil_append, hlisteners]
        rfl
      rw [hlisteners] at hlater
      simp only [Arena.observe]
      refine hstep.bind (hlater.bind ?_)
      rw [observe, ← hstatuses, ← htold, ← hmirrors.shares.board]
      exact Settles.const _

/-- For every blueprint of stock tasks, every board, every source of random
numbers and every listeners, a run of steps of the planted tree shows what
the direct evaluation shows: after each step the same result, the same
board, the same status of every task, and the same notices in the same
order. -/
theorem observe_ofBlueprint (root : Blueprint (Stock E A)) (board : E)
    (dice : Nat → Nat) (listeners : List Listener) (deltas : List Float32) :
    ∃ enough, ∀ budget, enough ≤ budget →
      (listeners.foldl Arena.addListener (ofBlueprint root board dice)).observe
        budget deltas
        = some (observe listeners deltas (number 1 root)
          { board, dice, rolled := 0, notices := [] }) := by
  obtain ⟨hplanted, hnone⟩ := mirrors_ofBlueprint root board dice
  obtain ⟨hmirrors, hlisteners⟩ := hplanted.listen rfl listeners
  have hrun := observe_mirrors hmirrors deltas
  rw [hlisteners, hnone, List.nil_append] at hrun
  exact hrun

end Direct

end TaskTree
