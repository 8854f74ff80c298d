/-
A tree of stock tasks can begin anew at any time.

Whatever steps a tree was put through, aborted ones included, a reset and
an independent copy both lead back to the tree as it was built, slot by
slot (`built_again`). Two things make this true. Between steps nothing is
left anywhere but in the tasks themselves and in their slots, where a reset
of the slot strikes it out (`Descends`): every task is in its slot, and its
hooks change no more of it than a rewinding undoes (`leaves_rewind`). And a
reset comes to all tasks, since it follows more links than any way in the
tree has.

From trees that are the same, steps go on alike as long as board and random
numbers are the same.
-/
import TaskTree.Proofs.Arena.Pristine
import TaskTree.Proofs.Direct.Leftovers
import TaskTree.Proofs.Steady

namespace TaskTree

variable {E A : Type}

open Stock

variable [Deed E A]

/-- An aged task is the same when rewound. -/
theorem Aged.rewind_eq (hdeeds : Stateless E A)
    {occupant occupant' : Occupant (Stock E A)} (h : Aged occupant occupant') :
    Behavior.rewind occupant'
      = (Behavior.rewind occupant : Occupant (Stock E A)) := by
  induction h with
  | refl => rfl
  | @tail middle last _ hlast ih =>
      rw [← ih]
      obtain ⟨call, hleaves⟩ := hlast
      cases leaves_occupant hleaves with
      | evaluator => rfl
      | task hleft =>
          exact congrArg Occupant.task (leaves_rewind hdeeds call hleft)

namespace Direct

open Arena Live

variable {a a' a₀ c : Arena E (Stock E A)} {live : Live E A} {role : Role}
  {base : List (Listener × Notice)} {w : World E}

-- ============================================================== the ways

omit [Deed E A] in
/-- To every task of a tree a way leads from its root, and it has fewer links
than the tree has tasks. By induction over the tree. Each level is one link
longer, and there are fewer levels than tasks. -/
theorem way_of_mem (h : Holds a role live) {x : TaskId} (hx : x ∈ live.ids) :
    ∃ n, n < live.ids.length ∧ Way a live.id n x := by
  induction live using Live.induction generalizing role with
  | step id task status guard children hguard hchildren =>
      have hguardOf := h.guardOf
      have hchildrenOf := h.childrenOf
      rw [ids, List.mem_cons, List.mem_append] at hx
      rw [ids, Live.id, List.length_cons, List.length_append]
      cases h with
      | node slot carries below beneath =>
          rcases hx with rfl | hx | hx
          · exact ⟨0, Nat.succ_pos _, .here x⟩
          · cases guard with
            | none => cases hx
            | some g =>
                obtain ⟨n, hn, hway⟩ := hguard g rfl (below g rfl) hx
                refine ⟨n + 1, ?_, .guard hguardOf hway⟩
                rw [guardIds]
                omega
          · obtain ⟨child, hchild, hmem⟩ := mem_allIds.1 hx
            obtain ⟨n, hn, hway⟩ :=
              hchildren child hchild (beneath child hchild) hmem
            have hlength : child.ids.length ≤ (allIds children).length := by
              rw [allIds_eq_flatMap, List.flatMap_def]
              exact (List.sublist_flatten_of_mem
                  (List.mem_map_of_mem hchild)).length_le
            refine ⟨n + 1, by omega, .child ?_ hway⟩
            rw [hchildrenOf]
            exact List.mem_map_of_mem hchild

-- ======================================================= the afterlives

/-- The trees that a tree may become by steps, whatever they give, and by
resets and copies. -/
inductive Later (a₀ : Arena E (Stock E A)) : Arena E (Stock E A) → Prop where
  | built : Later a₀ a₀
  | step {a a' : Arena E (Stock E A)} {budget : Nat} {delta : Float32}
      {result : Except Fault Status} (before : Later a₀ a)
      (stepped : Arena.step budget delta a = some (result, a')) : Later a₀ a'
  | reset {a : Arena E (Stock E A)} (before : Later a₀ a) : Later a₀ a.reset
  | instantiate {a : Arena E (Stock E A)} (before : Later a₀ a) (board : E) :
      Later a₀ (a.instantiate board)
  | outside {a : Arena E (Stock E A)} (before : Later a₀ a) (board : E)
      (listeners : List Listener) (journal : Array Entry) :
      Later a₀ { a with board, listeners, journal }

/-- A later arena has a history too. -/
theorem Later.history (h : Later a₀ a) (hbefore : History true a₀) :
    ∃ fine, History fine a := by
  induction h with
  | built => exact ⟨true, hbefore⟩
  | step _ stepped ih => exact ih.elim fun _ ih => ⟨_, ih.step stepped⟩
  | reset _ ih => exact ih.elim fun _ ih => ⟨_, ih.reset⟩
  | instantiate _ board ih =>
      exact ih.elim fun _ ih => ⟨_, ih.instantiate board⟩
  | outside _ board listeners journal ih =>
      exact ih.elim fun _ ih => ⟨_, ih.outside board listeners journal⟩

/-- Up to a reset of its slots, a tree is still the tree `a₀`. -/
structure Descends (a₀ a : Arena E (Stock E A)) : Prop where
  root : a.root = a₀.root
  slots : Keeps Slot.reset a₀ a
  evaluator : a.slot? .evaluator = a₀.slot? .evaluator

/-- An arena descends from itself. -/
theorem Descends.refl (a : Arena E (Stock E A)) : Descends a a :=
  ⟨rfl, .refl a, rfl⟩

/-- Descent is transitive. -/
theorem Descends.trans {a₁ : Arena E (Stock E A)} (h : Descends a₀ a₁)
    (h' : Descends a₁ a) :
    Descends a₀ a :=
  ⟨h'.root.trans h.root, h.slots.trans h'.slots, h'.evaluator.trans h.evaluator⟩

/-- A step changes nothing that a reset does not undo. The slots agree up to the
reset: the links are the same, and a task ages only in what a reset takes back.
-/
theorem Descends.step {fine : Bool} (hdeeds : Stateless E A)
    (hhistory : History fine a) {budget : Nat} {delta : Float32}
    {result : Except Fault Status}
    (hstep : Arena.step budget delta a = some (result, a')) :
    Descends a a' := by
  have hrest := hhistory.ready.rest
  obtain ⟨hrest', hlinks, haged⟩ := step_seated hrest hstep
  refine ⟨hlinks.root, fun id => ?_, ?_⟩
  · have hid := hlinks.links id
    cases hslot : a.slot? id with
    | none =>
        rw [hslot, Option.map_none, Option.map_eq_none_iff] at hid
        rw [hid]
    | some s =>
        rw [hslot, Option.map_some, Option.map_eq_some_iff] at hid
        obtain ⟨s', hslot', hsame⟩ := hid
        obtain ⟨occupant, hoccupant⟩ :=
          Option.isSome_iff_exists.1 (hrest.slots id s hslot).1
        obtain ⟨occupant', hnow, hage⟩ :=
          haged id occupant ((occupant_eq hslot).trans hoccupant)
        rw [occupant_eq hslot'] at hnow
        rw [hslot', Option.map_some, Option.map_some]
        refine congrArg some (Slot.reset_congr hsame ?_)
        rw [hnow, hoccupant, Option.map_some, Option.map_some,
          hage.rewind_eq hdeeds]
  -- The evaluator is back at its seat with an empty inbox after the step.
  · rcases hhistory.grows with hbare | ⟨live, hbears, -⟩
    · rw [Arena.step, hbare.root] at hstep
      obtain ⟨-, rfl⟩ := Prod.mk.inj (Option.some.inj hstep)
      rfl
    · obtain ⟨a₁, hsettles, -, -, -, hevaluator⟩ := step_bears hbears delta
      obtain ⟨-, rfl⟩ := Prod.mk.inj ((step_settles hstep).unique hsettles)
      exact hevaluator

/-- Anchoring is undone by a reset. -/
theorem keeps_anchorRoot (a : Arena E (Stock E A)) :
    Keeps Slot.reset a a.anchorRoot := by
  rw [anchorRoot]
  split
  · exact .refl a
  · exact .modify a _ fun _ => rfl

/-- A reset comes to all tasks but the guard evaluator, and then anchors
the root. -/
theorem reset_bears_slots (h : Bears base a live w) :
    Cleared a (resetFrom a.slots.size live.id a)
      ∧ (∀ id, id ≠ .evaluator → Fresh a (resetFrom a.slots.size live.id a) id)
      ∧ (resetFrom a.slots.size live.id a).slot? .evaluator
        = a.slot? .evaluator := by
  obtain ⟨hhidden, hnodup⟩ := h.quiet
  have hdepth : live.ids.length ≤ a.slots.size := by
    rw [← h.tasks.length_eq, tasks, List.length_map, List.length_range]
    exact Nat.sub_le _ _
  -- The reset starts at the root with depth enough for the whole tree.
  obtain ⟨-, heffect⟩ :=
    resets live base .root a w a.slots.size h.shares h.holds hnodup hdepth
  have hcleared := resetFrom_cleared a.slots.size live.id a
  refine ⟨hcleared, fun id hid => ?_, heffect.slots _ hhidden⟩
  by_cases hmem : id ∈ live.ids
  · obtain ⟨n, hn, hway⟩ := way_of_mem h.holds hmem
    exact resetFrom_reaches hway (Nat.lt_of_lt_of_le hn hdepth)
  · -- beyond the tasks of the tree there is no slot
    have hnone : a.slot? id = none := by
      refine Array.getElem?_eq_none (Nat.le_of_not_lt fun hlt => hmem ?_)
      rw [← h.tasks.mem_iff, tasks, List.mem_map]
      have hpos : id.index ≠ 0 := fun h => hid (congrArg TaskId.mk h)
      refine ⟨id.index - 1, List.mem_range.2 (by omega), ?_⟩
      exact congrArg TaskId.mk (by omega)
    obtain ⟨n, hn⟩ := hcleared.slots id
    exact ⟨0, by rw [hn, hnone, Option.map_none, Option.map_none]⟩

/-- What a reset does to a tree, whatever happened to it. -/
theorem reset_slots {fine : Bool} (h : History fine a) :
    ∃ b, Cleared a b ∧ (∀ id, id ≠ .evaluator → Fresh a b id)
      ∧ b.slot? .evaluator = a.slot? .evaluator
      ∧ a.reset = { b.anchorRoot with status := .fresh, fault := none } := by
  rcases h.grows with hbare | ⟨live, hbears, -⟩
  · refine ⟨a, .refl a, fun id hid => ?_, rfl, ?_⟩
    · have hnone : a.slot? id = none := by
        refine Array.getElem?_eq_none ?_
        rw [hbare.size]
        exact Nat.one_le_iff_ne_zero.2 fun h => hid (congrArg TaskId.mk h)
      exact ⟨0, by rw [hnone, Option.map_none]⟩
    · simp only [Arena.reset, anchorRoot, hbare.root]
  · obtain ⟨hcleared, hfresh, hevaluator⟩ := reset_bears_slots hbears
    exact ⟨_, hcleared, hfresh, hevaluator,
      by simp only [Arena.reset, hbears.root]⟩

/-- A reset descends from what it resets. -/
theorem Descends.reset {fine : Bool} (h : History fine a) :
    Descends a a.reset := by
  obtain ⟨b, hcleared, -, hevaluator, heq⟩ := reset_slots h
  rw [heq]
  have hroot : b.root ≠ some .evaluator := fun hroot =>
    (h.ready.wired.root _ (hcleared.root.symm.trans hroot)).1 rfl
  exact ⟨(anchorRoot_root b).trans hcleared.root,
    (hcleared.keeps rewind_rewind).trans (keeps_anchorRoot b),
    (anchorRoot_slot?_of_ne hroot).trans hevaluator⟩

/-- A copy descends from what it is made of. -/
theorem Descends.instantiate {fine : Bool} (h : History fine a) (board : E)
    (hevaluator : (a.slot? .evaluator).map Slot.reset = a.slot? .evaluator) :
    Descends a (a.instantiate board) := by
  obtain ⟨b, hslots, hsame, -, -, heq⟩ := instantiate_slots a board
  have hroot : b.root ≠ some .evaluator := fun hroot =>
    (h.ready.wired.root _ (hsame.symm.trans hroot)).1 rfl
  rw [heq]
  refine ⟨(anchorRoot_root b).trans hsame,
    .trans (fun id => ?_) (keeps_anchorRoot b), ?_⟩
  · rw [hslots, map_reset_reset rewind_rewind]
  · rw [anchorRoot_slot?_of_ne hroot, hslots, hevaluator]

-- =========================================================== built again

/-- Whatever a built tree has become, up to a reset it is still the same. By
induction over the calls that may have come after the construction: each of them
descends. -/
theorem Later.descends (hdeeds : Stateless E A) (hbuilt : Built a₀)
    (h : Later a₀ a) :
    Descends a₀ a := by
  induction h with
  | built => exact .refl a₀
  | step before stepped ih =>
      obtain ⟨fine, hhistory⟩ := before.history hbuilt.history
      exact ih.trans (.step hdeeds hhistory stepped)
  | reset before ih =>
      obtain ⟨fine, hhistory⟩ := before.history hbuilt.history
      exact ih.trans (.reset hhistory)
  | instantiate before board ih =>
      obtain ⟨fine, hhistory⟩ := before.history hbuilt.history
      refine ih.trans (.instantiate hhistory board ?_)
      rw [ih.evaluator]
      exact hbuilt.untouched.evaluator hbuilt.history.ready.wired
  | outside _ board listeners journal ih =>
      exact ⟨ih.root, ih.slots, ih.evaluator⟩

/-- The reset of a tree that is still the same up to a reset. -/
theorem Descends.same_reset {fine : Bool} (h : Descends a₀ a)
    (hhistory : History fine a) (huntouched : Untouched a₀)
    (hwired : Wired a₀) : SameTree a₀ a.reset := by
  obtain ⟨b, hcleared, hfresh, hevaluator, heq⟩ := reset_slots hhistory
  have hslots : ∀ id, b.slot? id = (a₀.slot? id).map Slot.reset := by
    intro id
    by_cases hid : id = .evaluator
    · rw [hid, hevaluator, h.evaluator, huntouched.evaluator hwired]
    · rw [(hfresh id hid).slot?_eq rewind_rewind, h.slots id]
  rw [heq]
  exact ⟨slots_ext (huntouched.anchored (hcleared.root.trans h.root) hslots),
    (anchorRoot_root b).trans (hcleared.root.trans h.root),
    huntouched.status.symm, huntouched.fault.symm⟩

/-- A copy of a descendant is the same tree as before. -/
theorem Descends.same_instantiate (h : Descends a₀ a)
    (huntouched : Untouched a₀) (board : E) :
    SameTree a₀ (a.instantiate board) := by
  obtain ⟨b, hslots, hroot, hstatus, hfault, heq⟩ := instantiate_slots a board
  obtain ⟨hstatus', hfault'⟩ := anchorRoot_status b
  rw [heq]
  refine ⟨slots_ext (huntouched.anchored (hroot.trans h.root) fun id => ?_),
    (anchorRoot_root b).trans (hroot.trans h.root), ?_, ?_⟩
  · rw [hslots, h.slots id]
  · rw [hstatus', hstatus, huntouched.status]
  · rw [hfault', hfault, huntouched.fault]

-- ========================================================= alike forever

/-- The steps of a tree without a root. -/
theorem outcomes_rootless (hroot : a.root = none) (deltas : List Float32) :
    Settles (fun b => a.outcomes b deltas)
      (deltas.map fun _ => (.error .noRoot, a.board)) := by
  induction deltas with
  | nil => exact Settles.const _
  | cons delta rest ih =>
      have hstep : Settles (fun b => Arena.step b delta a)
          (Except.error .noRoot, a) := by
        simp only [Arena.step, hroot]
        exact Settles.const _
      simp only [Arena.outcomes]
      exact hstep.bind (ih.bind (Settles.const _))

/-- Trees that are the same go on alike, if board and random numbers are. -/
theorem outcomes_sameTree {fine : Bool} (h : History fine a)
    (hsame : SameTree a c) (hworld : (worldOf a).Like (worldOf c))
    (deltas : List Float32) :
    ∃ seen, Settles (fun b => a.outcomes b deltas) seen
      ∧ Settles (fun b => c.outcomes b deltas) seen := by
  rcases h.grows with hbare | ⟨live, hbears, -⟩
  · have hboard : a.board = c.board := hworld.board
    refine ⟨_, outcomes_rootless hbare.root deltas, ?_⟩
    rw [hboard]
    exact outcomes_rootless (hsame.root.trans hbare.root) deltas
  · have hcopy : Bears c.told c live (worldOf c) :=
      ⟨hsame.root.trans hbears.root,
        (tasks_congr (congrArg Array.size hsame.slots)).symm ▸ hbears.tasks,
        hbears.holds.frame fun id _ => hsame.slot? id,
        hbears.idle.congr (hsame.slot? _), shares_worldOf c⟩
    refine ⟨_, outcomes_bears hbears deltas, ?_⟩
    rw [outcomes_alike rfl hworld]
    exact outcomes_bears hcopy deltas

end Direct

namespace Arena

open Direct

variable {a₀ a : Arena E (Stock E A)}

/-- A tree that was built from fresh blueprints of tasks whose deeds do not
change themselves is built again by every reset and copied as it was built,
whatever steps it was put through. So every run of the reset tree and of
the copy gives what it gives of a tree just built, on the same board and
with the same random numbers. -/
theorem built_again (hdeeds : Stock.Stateless E A) (hbuilt : Built a₀)
    (hlater : Later a₀ a) :
    Untouched a₀ ∧ SameTree a₀ a.reset
      ∧ (∀ board, SameTree a₀ (a.instantiate board))
      ∧ ∀ again, (again = a.reset ∨ ∃ board, again = a.instantiate board) →
        ∀ new, SameTree a₀ new → (worldOf again).Like (worldOf new) →
          ∀ deltas, ∃ seen, Settles (fun b => again.outcomes b deltas) seen
            ∧ Settles (fun b => new.outcomes b deltas) seen := by
  have huntouched := hbuilt.untouched
  have hdescends := hlater.descends hdeeds hbuilt
  obtain ⟨fine, hhistory⟩ := hlater.history hbuilt.history
  have hreset :=
    hdescends.same_reset hhistory huntouched hbuilt.history.ready.wired
  have hcopy := hdescends.same_instantiate huntouched
  refine ⟨huntouched, hreset, hcopy,
    fun again hagain new hnew hworld deltas => ?_⟩
  rcases hagain with rfl | ⟨board, rfl⟩
  · exact outcomes_sameTree hhistory.reset
      (hreset.symm.trans hnew) hworld deltas
  · exact outcomes_sameTree (hhistory.instantiate board)
      ((hcopy board).symm.trans hnew) hworld deltas

/-- A task that runs its child twice, behind a guard that takes its time. -/
def barred : Blueprint (Stock Nat Patience) :=
  .node (.repeating (.fixed 2) 0) (some (.single (.action "wait" .patience)))
    [.single .success]

/-- The first step is aborted in the guard, and the second one leaves the
tree in the middle of a run. -/
theorem built_again_barred :
    ∃ a a' : Arena Nat (Stock Nat Patience),
      step 20 0 (ofBlueprint barred 1 id)
        = some (.error (.unsettledGuard ⟨2⟩ "wait" .running), a)
      ∧ step 20 0 a = some (.ok .running, a')
      ∧ Stock.Stateless Nat Patience ∧ Built (ofBlueprint barred 1 id)
      ∧ Later (ofBlueprint barred 1 id) a'
      ∧ SameTree (ofBlueprint barred 1 id) a'.reset
      ∧ ∀ board, SameTree (ofBlueprint barred 1 id) (a'.instantiate board) := by
  have hrun :
      ((step 20 0 (ofBlueprint barred 1 id)).bind fun r =>
        (step 20 0 r.2).map fun r' => (faultOf r.1, r'.1.toOption))
        = some (some (.unsettledGuard ⟨2⟩ "wait" .running), some .running) := by
    decide +kernel
  obtain ⟨⟨first, a⟩, hfirst, hrun⟩ := Option.bind_eq_some_iff.1 hrun
  obtain ⟨⟨second, a'⟩, hsecond, hshown⟩ := Option.map_eq_some_iff.1 hrun
  obtain ⟨hfault, hrunning⟩ := Prod.mk.inj hshown
  -- The first step aborts at a guard that still runs, and the second one finds
  -- the tree running.
  cases first with
  | ok status => cases hfault
  | error fault =>
      cases hfault
      cases second with
      | error fault => cases hrunning
      | ok status =>
          cases hrunning
          have hdeeds : Stock.Stateless Nat Patience := fun _ _ _ => rfl
          have hbuilt : Built (ofBlueprint barred 1 id) :=
            .setRoot (.empty 1 id) rfl rfl
          have hlater : Later (ofBlueprint barred 1 id) a' :=
            (Later.built.step hfirst).step hsecond
          obtain ⟨-, hreset, hcopy, -⟩ := built_again hdeeds hbuilt hlater
          exact ⟨a, a', hfirst, hsecond, hdeeds, hbuilt, hlater, hreset, hcopy⟩

end Arena

end TaskTree
