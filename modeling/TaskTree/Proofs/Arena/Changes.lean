/-
What becomes of the statuses of a tree, call by call.

In a step every status that is set is one of the tree's own tasks, and the
journal says so (`step_changes`). For this a run is followed once more. It
comes from the root to its tasks along the links, and a link leads from a
task to a task.

A reset comes to every task. It may follow as many links as the arena has
slots, and a path of links to a task has fewer, since each leads to a later
slot (`statusOf_reset`). A call of construction brings fresh tasks and
leaves the statuses of the others alone (`statusOf_plant`).
-/
import TaskTree.Proofs.Arena.Construction
import TaskTree.Proofs.Arena.Pristine
import TaskTree.Proofs.Arena.Tally

namespace TaskTree.Arena

variable {E T : Type} {a₀ a a' : Arena E T} {news : List Entry}

-- ======================================================= whose status it is

/-- If an entry sets a status, it is that of a task of the tree. -/
def SetsWithin (a : Arena E T) : Entry → Prop
  | .statusSet task _ _ _ => task ∈ a.tasks
  | _ => True

/-- A report sets the status of the task that made it. -/
theorem Tells.setsWithin {id : TaskId} {outcome : Outcome}
    (h : Tells a₀ a id outcome news a') (hid : id ∈ a₀.tasks) :
    ∀ entry ∈ news, SetsWithin a₀ entry := by
  intro entry hentry
  cases h.ofReport entry hentry with
  | set => exact hid
  | aside haside => cases haside <;> trivial
  | reported | second | told => trivial

/-- The task that a job is about. -/
def Job.task : Job E T → TaskId
  | .drive id _ | .turn id _ | .update id | .consult id _ | .attend id _
  | .answer id _
  | .perform id _ _ => id

variable [Behavior E T]

/-- In a run that is about a task of the tree, only tasks of the tree have their
statuses set, since links lead to tasks. By induction on the run. What belongs
to the task of the job is one of the tasks by assumption; a guard and a child
are reached by a hop, and so they are tasks too. -/
theorem Run.setsWithin {job : Job E T} (h : Run a₀ job a news a')
    (hhop : ∀ id hop target, a₀.hop id hop = some target → target ∈ a₀.tasks)
    (hjob : job.task ∈ a₀.tasks) : ∀ entry ∈ news, SetsWithin a₀ entry := by
  have hsingle : ∀ {entry : Entry}, SetsWithin a₀ entry →
      ∀ e ∈ [entry], SetsWithin a₀ e :=
    fun h e he => List.mem_singleton.1 he ▸ h
  induction h with
  | idle | skipped | unguarded | rested | done => exact List.forall_mem_nil _
  | turned _ _ _ _ ih =>
      exact List.forall_mem_cons.2
        ⟨trivial, List.forall_mem_append.2 ⟨ih hjob, hsingle trivial⟩⟩
  | resumed _ _ ih | updated _ _ ih | looked _ _ ih | wrote _ ih
  | drew _ ih => exact ih hjob
  | admitted _ _ _ _ _ hasked hstart hupdate =>
      exact List.forall_mem_append.2
        ⟨hasked hjob, List.forall_mem_append.2 ⟨hstart hjob, hupdate hjob⟩⟩
  | refused _ _ htells hasked =>
      exact List.forall_mem_append.2 ⟨hasked hjob, htells.setsWithin hjob⟩
  | tried _ _ _ hstart hupdate =>
      exact List.forall_mem_append.2 ⟨hstart hjob, hupdate hjob⟩
  | silent _ _ ih => exact List.forall_mem_append.2 ⟨ih hjob, hsingle trivial⟩
  | overruled hguard _ ih => exact ih (hhop _ .guard _ hguard)
  | asked hguard _ _ _ hasked hturn =>
      have hmem := hhop _ .guard _ hguard
      exact List.forall_mem_append.2 ⟨hasked hmem, hturn hmem⟩
  | unsettled hguard _ _ hasked hturn =>
      have hmem := hhop _ .guard _ hguard
      exact List.forall_mem_append.2
        ⟨hasked hmem, List.forall_mem_append.2 ⟨hturn hmem, hsingle trivial⟩⟩
  | called _ _ _ _ hhook hanswer | answered _ _ _ _ hhook hanswer =>
      exact List.forall_mem_cons.2 ⟨trivial,
        List.forall_mem_append.2
          ⟨hhook hjob, List.forall_mem_cons.2 ⟨trivial, hanswer hjob⟩⟩⟩
  | told htells _ ih =>
      exact List.forall_mem_append.2 ⟨htells.setsWithin hjob, ih hjob⟩
  | @drove _ _ index _ _ _ _ _ _ _ hchild _ _ hdrive hnext =>
      have hmem := hhop _ (.child index) _ hchild
      exact List.forall_mem_append.2 ⟨hdrive hmem, hnext hjob⟩
  | missed _ ih => exact List.forall_mem_cons.2 ⟨trivial, ih hjob⟩

-- =============================================================== the steps

/-- The journal of a step with a root tells where all tasks stand after it. -/
theorem step_candid {budget : Nat} {delta : Float32} {root : TaskId}
    {result : Except Fault Status} (hroot : a.root = some root)
    (hstep : Arena.step budget delta a = some (result, a')) :
    ∃ during, a'.entries = a.entries ++ during ∧ Candid a during
      ∧ ∀ id, (a.slot? id).isSome = true →
        a'.statusOf id = during.foldl (Entry.stands id) (a.statusOf id) := by
  obtain ⟨a₁, hcourse, hend⟩ := step_course hroot hstep
  obtain ⟨news, hnews⟩ := hcourse.accounted
  have hlinks : SameLinks a a₁ :=
    ⟨hcourse.sameLinks.root, hcourse.sameLinks.links⟩
  have hbegan : Candid a [.stepBegan root delta] :=
    candid_of_unset a fun _ _ _ _ hmem => nomatch List.mem_singleton.1 hmem
  -- The beginning of the step sets no status; what the run adds is candid
  -- already.
  have hcandid : Candid a ([.stepBegan root delta] ++ news) :=
    hbegan.append hnews.changes ⟨rfl, .refl a⟩ fun _ _ => rfl
  have hentries : a₁.entries
      = a.entries ++ ([.stepBegan root delta] ++ news) := by
    rw [hnews.entries, entries_begun, List.append_assoc]
  rcases hend with ⟨-, -, rfl⟩ | ⟨fault, -, -, rfl⟩
  · exact ⟨_, hentries, hcandid, hnews.stands⟩
  · have haborted : Candid a₁ [.stepAborted fault] :=
      candid_of_unset a₁ fun _ _ _ _ hmem => nomatch List.mem_singleton.1 hmem
    refine ⟨_, ?_, hcandid.append haborted hlinks hnews.stands,
      fun id hid => ?_⟩
    · rw [← List.append_assoc, ← hentries]
      exact entries_log ..
    · rw [List.foldl_append]
      exact hnews.stands id hid

/-- What a step says of the statuses. -/
structure Changes (a a' : Arena E T) (during : List Entry) : Prop where
  entries : a'.entries = a.entries ++ during
  within : ∀ entry ∈ during, SetsWithin a entry
  candid : Candid a during
  stands : ∀ id, id ≠ .evaluator →
    a'.statusOf id = during.foldl (Entry.stands id) (a.statusOf id)
  told : during.filterMap Entry.notice?
    = (during.filterMap Entry.change?).flatMap
    fun notice => a.listeners.map fun who => (who, notice)

/-- Every step tells truly of its changes, and all listeners. -/
theorem step_changes {fine : Bool} (h : History fine a) {budget : Nat}
    {delta : Float32} {result : Except Fault Status}
    (hstep : Arena.step budget delta a = some (result, a')) :
    ∃ during, Changes a a' during := by
  cases hroot : a.root with
  | none =>
      obtain ⟨-, rfl⟩ := step_rootless hroot hstep
      exact ⟨[], (List.append_nil _).symm, List.forall_mem_nil _, candid_nil a',
        fun _ _ => rfl, rfl⟩
  | some root =>
      obtain ⟨during, hduring, hcandid, hstands⟩ := step_candid hroot hstep
      obtain ⟨news, a₁, tail, hrun, hentries, htail, -⟩ :=
        step_tale h.ready h.ranked hroot hstep
      -- Both descriptions of the step tell of the same entries.
      obtain rfl := List.append_cancel_left (hduring.symm.trans hentries)
      have htree := h.oneTree
      have hnews : ∀ entry ∈ news, SetsWithin a entry :=
        hrun.setsWithin (fun id hop target hhop =>
            (htree.hop id hop target hhop).2.1)
          (htree.root root hroot)
      have hwithin : ∀ entry ∈ Entry.stepBegan root delta :: (news ++ tail),
          SetsWithin a entry := by
        refine List.forall_mem_cons.2
          ⟨trivial, List.forall_mem_append.2 ⟨hnews, fun entry hentry => ?_⟩⟩
        obtain ⟨fault, rfl⟩ := htail entry hentry
        trivial
      refine ⟨_, hentries, hwithin, hcandid, fun id hid => ?_,
        hrun.tale.told_during root delta htail⟩
      by_cases hslot : (a.slot? id).isSome = true
      · exact hstands id hslot
      · -- who is no task stands nowhere, and nothing is said of it
        have hslot' : ¬ (a'.slot? id).isSome = true := by
          rwa [(step_seated h.ready.rest hstep).links.isSome]
        rw [statusOf, statusOf, Option.not_isSome_iff_eq_none.1 hslot,
          Option.not_isSome_iff_eq_none.1 hslot']
        refine (foldl_eq_self (fun entry hentry status => ?_) _).symm
        have hset := hwithin entry hentry
        cases entry with
        | statusSet task name previous current =>
            refine if_neg fun heq => hslot ?_
            rw [← heq]
            exact (mem_tasks.1 hset).2
        | _ => rfl

-- ============================================================== the resets

omit [Behavior E T] in
/-- A path is a way, and it is not longer than the slots it passes. -/
theorem OneTree.way (htree : OneTree a) {x y : TaskId} {path : List Hop}
    (h : a.follow x path = some y) :
    Way a x path.length y ∧ x.index + path.length ≤ y.index := by
  induction path generalizing x with
  | nil =>
      obtain rfl := Option.some.inj h
      exact ⟨.here x, Nat.le_refl _⟩
  | cons hop rest ih =>
      obtain ⟨next, hnext, hrest⟩ := Option.bind_eq_some_iff.1 h
      obtain ⟨hway, hle⟩ := ih hrest
      have hlt := (htree.hop x hop next hnext).2.2
      rw [List.length_cons]
      refine ⟨?_, by omega⟩
      cases hop with
      | guard => exact .guard hnext hway
      | child index => exact .child (List.mem_of_getElem? hnext) hway

omit [Behavior E T] in
/-- The control of the root is no part of its status. -/
theorem statusOf_anchorRoot (a : Arena E T) (id : TaskId) :
    a.anchorRoot.statusOf id = a.statusOf id := by
  rw [anchorRoot]
  split
  · rfl
  · exact (keeps_setControl a _ .tree fun _ _ =>
        rfl : Keeps Slot.status _ _).statusOf id

/-- After a reset every task is fresh. -/
theorem statusOf_reset {fine : Bool} (h : History fine a) {id : TaskId}
    (hid : id ≠ .evaluator) :
    a.reset.statusOf id = .fresh := by
  cases hslot : a.slot? id with
  | none =>
      have hnone := (sameLinks_reset a).isSome id
      rw [hslot] at hnone
      rw [statusOf, Option.not_isSome_iff_eq_none.1 (Bool.eq_false_iff.1 hnone)]
      rfl
  | some s =>
      have hmem : id ∈ a.tasks := mem_tasks.2 ⟨hid, by rw [hslot]; rfl⟩
      -- Everybody else lies on a way from the root, and the reset goes along it
      -- to the end.
      obtain ⟨root, hroot, path, hpath, -⟩ := h.oneTree.path id hmem
      obtain ⟨hway, hle⟩ := h.oneTree.way hpath
      have hlt : id.index < a.slots.size :=
        (Array.getElem?_eq_some_iff.1 hslot).1
      have hfresh : Fresh a (resetFrom a.slots.size root a) id :=
        resetFrom_reaches hway (by omega)
      have hreset : a.reset
          = { (resetFrom a.slots.size root a).anchorRoot with
              status := .fresh, fault := none } := by
        rw [Arena.reset, hroot]
      rw [hreset]
      exact (statusOf_anchorRoot _ id).trans hfresh.statusOf

/-- A copy has nobody in it who was entered before. -/
theorem statusOf_instantiate (a : Arena E T) (board : E) (id : TaskId) :
    (a.instantiate board).statusOf id = .fresh := by
  obtain ⟨b, hslots, -, -, -, heq⟩ := instantiate_slots a board
  rw [heq, statusOf_anchorRoot, statusOf, hslots]
  cases a.slot? id <;> rfl

-- ======================================================== the constructions

/-- Planting brings fresh tasks, and leaves the statuses of the others. -/
theorem statusOf_plant {link : Link} (b : Blueprint T) (hready : Ready a)
    (hopen : link.Open a) (id : TaskId) :
    (plant link b a).statusOf id = a.statusOf id := by
  have hplaced : KeptByPlacing (E := E) (fun _ : T => True)
      fun a' => ∀ id, a'.statusOf id = a.statusOf id := by
    -- By what the placing does to the slot that is looked up: a new task is
    -- fresh, the new parent has one link more, and all others are untouched.
    intro link' task a' _ h _ hopen' id
    rw [← h id]
    rcases placed_cases task hopen' id with ⟨rfl, control, hslot⟩ |
        ⟨-, -, s, hs, hslot⟩ | ⟨-, -, hslot⟩
    · rw [statusOf, statusOf, hslot, slot?_nextId]
      rfl
    · obtain ⟨guard, children, hmark⟩ := link'.mark_eq a'.nextId s
      rw [statusOf, statusOf, hslot, hs, hmark]
      rfl
    · rw [statusOf, statusOf, hslot]
  exact plant_keeps hplaced b (b.all_of fun _ => trivial) hready
    (fun _ => rfl) hopen id

/-- A call of construction changes no status. -/
theorem statusOf_perform {fine : Bool} (h : History fine a)
    (call : Construction T) (id : TaskId) :
    (call.perform a).2.statusOf id = a.statusOf id := by
  rcases attempt_cases a call with ⟨hvacant, hattempt⟩ | ⟨-, fault, hattempt⟩
  · rw [Construction.perform, hattempt]
    exact statusOf_plant call.blueprint h.ready hvacant.free.isOpen id
  · rw [Construction.perform, hattempt]

end TaskTree.Arena
