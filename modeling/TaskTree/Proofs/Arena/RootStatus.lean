/-
A tree stands where its root stands.

The status of a tree is kept apart from the status of its root, and another
function writes it: a report sets the status of the task that makes it, and
sets that of the tree as well if the tree is its receiver. So the two agree
only because the tree receives the reports of its root and no others. While
a turn is going on this is what the slot of its task notes
(`Regular.controlOf_eq_tree`), also where a running root is gone on with and
nothing is noted anew. From that every move of a step keeps the two level
(`Level.move`), a step that comes to be aborted in the middle of its moves
included, and calls between steps do so without a report (`History.level`).

A step that gives a status gives the one that its root has reported in it,
which is never `fresh`.
-/
import TaskTree.Proofs.Arena.Changes
import TaskTree.Proofs.Arena.Turns
import TaskTree.Proofs.Arena.Abort

namespace TaskTree.Arena

variable {E T : Type} {a₀ a a' : Arena E T} {going : List (Activity T)}
  {id : TaskId}

/-- Where the root of a tree stands. A tree without a root was never
entered. -/
def rootStatus (a : Arena E T) : Status :=
  match a.root with
  | none => .fresh
  | some root => a.statusOf root

/-- The status of the tree is that of its root. -/
def Level (a : Arena E T) : Prop := a.status = a.rootStatus

/-- The status of a fresh root, or of none, is fresh. -/
theorem rootStatus_eq_fresh
    (h : ∀ root, a.root = some root → a.statusOf root = .fresh) :
    a.rootStatus = .fresh := by
  rw [rootStatus]
  split
  · rfl
  · rename_i root hroot
    exact h root hroot

/-- What leaves the statuses alone. -/
theorem Level.keep (h : Level a) (hroot : a'.root = a.root)
    (hstatus : a'.status = a.status) (hkeeps : Keeps Slot.status a a') :
    Level a' := by
  rw [Level, hstatus, h, rootStatus, rootStatus, hroot]
  split
  · rfl
  · exact (hkeeps.statusOf _).symm

/-- A report of another task than the root. -/
theorem Level.spoken (h : Level a) (hid : a.root ≠ some id)
    (outcome : Outcome) :
    Level (a.spoken id outcome) := by
  have hroot : (a.spoken id outcome).rootStatus = a.rootStatus := by
    rw [rootStatus, rootStatus, (sameLinks_spoken a id outcome).root]
    split
    · rfl
    · rename_i root hsome
      have hne : root ≠ id := fun heq => hid (heq ▸ hsome)
      rw [statusOf, slot?_spoken, if_neg hne, ← statusOf]
  exact (h : a.status = _).trans hroot.symm

/-- A report of the root, which the tree receives. -/
theorem level_settle (hid : a.root = some id)
    (hslot : (a.slot? id).isSome = true) (outcome : Outcome) :
    Level ((a.spoken id outcome).settle outcome) := by
  have hroot : ((a.spoken id outcome).settle outcome).rootStatus
      = (a.spoken id outcome).statusOf id := by
    have hlinks : ((a.spoken id outcome).settle outcome).root = some id := hid
    rw [rootStatus, hlinks]
    rfl
  obtain ⟨s, hs⟩ := Option.isSome_iff_exists.1 hslot
  rw [Level, hroot, statusOf, slot?_spoken, if_pos rfl, hs]
  rfl

-- ================================================================ the steps

variable [Behavior E T]

/-- Every move keeps the tree level with its root. -/
theorem Level.move (hwired : Wired a₀) {s s' : Scene E T}
    (hregular : Regular a₀ s) (h : Level s.arena) (hmove : Move s s') :
    Level s'.arena := by
  -- whose report somebody else or nobody receives, is not the root
  have hother :
      ∀ {going : List (Activity T)} {a : Arena E T}
        {id : TaskId} {outcome : Outcome},
      Regular a₀ ⟨going, a⟩ → Speaks going id →
      (a.spoken id outcome).controlOf id ≠ some .tree → a.root ≠ some id := by
    intro going a id outcome hregular hspeaks hcontrol hroot
    rw [controlOf_spoken] at hcontrol
    exact hcontrol ((hregular.controlOf_eq_tree hwired hspeaks).2 hroot)
  -- By the kind of move. Most of them set nobody's status and leave the tree's
  -- alone.
  cases hmove with
  | enter =>
      exact h.keep rfl rfl
        ((keeps_beginTurn _ _ fun _ _ => rfl).trans
          (keeps_setControl _ _ _ fun _ _ => rfl))
  | resume => exact h.keep rfl rfl (keeps_beginTurn _ _ fun _ _ => rfl)
  | leave | «return» | breach | write | roll => exact h.keep rfl rfl (.refl _)
  | call => exact h.keep rfl rfl (keeps_vacate _ _ fun _ _ => rfl)
  | respond => exact h.keep rfl rfl (keeps_taken _ _ fun _ _ => rfl)
  | rest => exact h.keep rfl rfl (keeps_rest _ _ _ fun _ _ _ => rfl)
  | again => exact h.keep rfl rfl (keeps_countReport _ _ _ fun _ _ => rfl)
  | @unheard going a id outcome _ hspeaks _ hcontrol =>
      have hne : (a.spoken id outcome).controlOf id ≠ some .tree := by
        rw [hcontrol]
        intro hsame
        cases hsame
      exact Level.spoken h (hother hregular hspeaks hne) outcome
  | @settle going a id outcome _ hspeaks _ hcontrol =>
      rw [controlOf_spoken] at hcontrol
      have hroot : a.root = some id :=
        (hregular.controlOf_eq_tree hwired hspeaks).1 hcontrol
      have hslot : (a.slot? id).isSome = true := by
        cases hslot : a.slot? id with
        | some s => rfl
        | none =>
            rw [controlOf, hslot] at hcontrol
            cases hcontrol
      exact level_settle hroot hslot outcome
  | @post going a id controller outcome _ hspeaks _ hcontrol =>
      have hne : (a.spoken id outcome).controlOf id ≠ some .tree := by
        rw [hcontrol]
        intro hsame
        cases hsame
      exact (Level.spoken h (hother hregular hspeaks hne) outcome).keep rfl rfl
        (keeps_post _ _ _ _ fun _ _ => rfl)
  | @hand going a id controller outcome occupant _ hspeaks _ hcontrol =>
      have hne : (a.spoken id outcome).controlOf id ≠ some .tree := by
        rw [hcontrol]
        intro hsame
        cases hsame
      exact (Level.spoken h (hother hregular hspeaks hne) outcome).keep rfl rfl
        ((keeps_post _ _ _ _ fun _ _ => rfl).trans
          (keeps_vacate _ _ fun _ _ => rfl))

/-- A step leaves the tree level with its root, whatever its result. -/
theorem Level.step (hready : Ready a) (h : Level a) {budget : Nat}
    {delta : Float32} {result : Except Fault Status}
    (hstep : Arena.step budget delta a = some (result, a')) :
    Level a' := by
  cases hroot : a.root with
  | none =>
      obtain ⟨-, rfl⟩ := step_rootless hroot hstep
      exact h
  | some root =>
      obtain ⟨a₁, hcourse, hend⟩ := step_course hroot hstep
      have hbegun : Ready (a.begun root delta) := hready.congr rfl rfl rfl
      -- The beginning writes the journal only. Then both the rules of a turn
      -- and the equality are kept by every move.
      have hlevel : Level (a.begun root delta) := h.keep rfl rfl (.refl _)
      have hinv : Regular (a.begun root delta) ⟨[], a₁⟩ ∧ Level a₁ :=
        Course.invariant
          (P := fun s : Scene E T =>
            Regular (a.begun root delta) s ∧ Level s.arena)
          (fun _ _ hs hmove =>
            ⟨hs.1.move hbegun.wired hmove, hs.2.move hbegun.wired hs.1 hmove⟩)
          hcourse ⟨hbegun.regular, hlevel⟩
      rcases hend with ⟨-, -, rfl⟩ | ⟨fault, -, -, rfl⟩
      · exact hinv.2
      · exact hinv.2.keep rfl rfl (.refl _)

-- ============================================================ the histories

/-- Planting leaves the tree level with its root, which is fresh if it is what
was planted. With the root comes its first status, which is fresh. Anything else
is planted beneath it. -/
theorem Level.plant {link : Link} (hready : Ready a) (hjoined : Joined a)
    (h : Level a) (hfree : link.Free a) (b : Blueprint T) :
    Level (plant link b a) := by
  have hplanted := planted hready hjoined hfree b
  have hstatus : (Arena.plant link b a).status = a.status := hplanted.rest.2.1
  by_cases hlink : link = .root
  · subst hlink
    have hnone : a.root = none := hfree.isOpen
    have hfresh : a.status = .fresh := by
      rw [h, rootStatus, hnone]
    rw [Level, hstatus, hfresh, rootStatus_eq_fresh]
    intro root hroot
    obtain rfl : a.nextId = root :=
      Option.some.inj ((hplanted.root.trans (if_pos rfl)).symm.trans hroot)
    rw [statusOf_plant b hready hfree.isOpen, statusOf, slot?_nextId]
    rfl
  · have hroot : (Arena.plant link b a).root = a.root :=
      hplanted.root.trans (if_neg hlink)
    rw [Level, hstatus, h, rootStatus, rootStatus, hroot]
    split
    · rfl
    · exact (statusOf_plant b hready hfree.isOpen _).symm

/-- The status of a tree is never anything but that of its root. By induction on
the history. Planting and stepping keep the equality; reset and copying restore
it. -/
theorem History.level {fine : Bool} (h : History fine a) : Level a := by
  induction h with
  | empty => rfl
  | setRoot before grown ih =>
      obtain ⟨hopen, rfl⟩ := setRoot_eq_ok grown
      exact ih.plant before.ready before.joined hopen.free_root _
  | attach before grown ih =>
      obtain ⟨hopen, rfl, -⟩ := attach_eq_ok grown
      exact ih.plant before.ready before.joined hopen.free_child _
  | setGuard before grown ih =>
      obtain ⟨-, rfl, -⟩ := setGuard_eq_ok grown
      exact ih.plant before.ready before.joined (setGuard_free grown) _
  | step before stepped ih => exact ih.step before.ready stepped
  | @reset fine a before ih =>
      have hstatus : a.reset.status = .fresh := rfl
      rw [Level, hstatus, rootStatus_eq_fresh]
      intro root hroot
      rw [(sameLinks_reset a).root] at hroot
      exact statusOf_reset before (before.ready.wired.root root hroot).1
  | @instantiate fine a before board ih =>
      obtain ⟨b, -, -, hfresh, -, hcopy⟩ := instantiate_slots a board
      have hstatus : (a.instantiate board).status = .fresh := by
        rw [hcopy, (anchorRoot_status b).1, hfresh]
      rw [Level, hstatus,
        rootStatus_eq_fresh fun root _ => statusOf_instantiate a board root]
  | outside before board listeners journal ih => exact ih.keep rfl rfl (.refl _)

-- ============================================================== the results

omit [Behavior E T] in
/-- Who has had a status set in a row of entries does not stand fresh after it.
The last entry that sets the status of the task decides, and no entry says that
a task became fresh. -/
theorem Candid.foldl_stands {news : List Entry} (h : Candid a news)
    (hid : (a.slot? id).isSome = true) (hset : 0 < news.countP (Entry.sets id))
    (status : Status) :
    news.foldl (Entry.stands id) status ≠ .fresh := by
  have hcurrent : ∀ name previous current,
      .statusSet id name previous current ∈ news →
      current ≠ .fresh := by
    intro name previous current hmem
    obtain ⟨before, after, heq⟩ := List.append_of_mem hmem
    exact (h before id name previous current after heq hid).2.2
  clear h
  induction news using List.reverseRecOn with
  | nil => cases hset
  | append_singleton news entry ih =>
      have hearlier := fun hpos => ih hpos fun name previous current hmem =>
        hcurrent name previous current (List.mem_append_left _ hmem)
      rw [List.foldl_append, List.foldl_cons, List.foldl_nil]
      rw [List.countP_append, List.countP_singleton] at hset
      cases entry with
      | statusSet task name previous current =>
          by_cases htask : task = id
          · subst htask
            have hlast :=
              hcurrent name previous current
                (List.mem_append_right _ List.mem_cons_self)
            rwa [Entry.stands, if_pos rfl]
          · rw [Entry.stands, if_neg htask]
            refine hearlier ?_
            rwa [Entry.sets, decide_eq_false htask] at hset
      | _ => exact hearlier hset

/-- In a step that gives a status the root has set one. -/
theorem step_sets_root {fine : Bool} (h : History fine a) {budget : Nat}
    {delta : Float32} {status : Status} {root : TaskId}
    (hroot : a.root = some root)
    (hstep : Arena.step budget delta a = some (.ok status, a')) :
    status = a'.status ∧ a'.statusOf root ≠ .fresh := by
  obtain ⟨news, a₁, hrun, hend⟩ := step_run h.ready h.ranked hroot hstep
  obtain ⟨hfault, hresult, rfl⟩ : a₁.fault = none
      ∧ Except.ok status = .ok a₁.status ∧ a' = a₁ := by
    rcases hend with hok | ⟨fault, -, hresult, -⟩
    · exact hok
    · cases hresult
  refine ⟨Except.ok.inj hresult, ?_⟩
  obtain ⟨during, hduring, hcandid, hstands⟩ := step_candid hroot hstep
  have hnews : during = .stepBegan root delta :: news := by
    refine List.append_cancel_left (hduring.symm.trans ?_)
    rw [hrun.tale.entries, entries_begun, List.append_assoc]
    rfl
  obtain ⟨hne, s, hs, -⟩ := h.ready.wired.root root hroot
  have hslot : (a.slot? root).isSome = true := by rw [hs]; rfl
  rw [hstands root hslot]
  refine hcandid.foldl_stands hslot ?_ _
  -- It is set once, when the turn of the root ends.
  have hnone := findSome?_raises_eq_none.1 (hrun.tale.fault.symm.trans hfault)
  cases hrun with
  | idle hpending => exact absurd rfl hpending
  | turned _ hid hbegun hturn =>
      have hreports := hbegun.reportsOf root
      rw [if_pos rfl] at hreports
      have hheeds :=
        hturn.heeds (h.ranked.begun root delta) hid hbegun.fault hreports
      have honce := (hheeds.once fun fault hmem =>
        hnone fault (List.mem_cons_of_mem _ (List.mem_append_left _ hmem))).2
      rw [hnews, List.countP_cons, List.countP_cons, List.countP_append, honce]
      omega

/-- Whatever happened to a tree, and whatever its tasks do, its status is the
one that its root is shown with, and `fresh` if it has no root. A step that
gives a status gives the one the tree has then, and never `fresh`. -/
theorem History.status_eq_root {fine : Bool} (h : History fine a) :
    (a.root = none → a.status = .fresh)
      ∧ (∀ root, a.root = some root →
        (a.shown? root).map (·.status) = some a.status)
      ∧ ∀ budget delta status a',
        Arena.step budget delta a = some (.ok status, a') →
        status = a'.status ∧ status ≠ .fresh := by
  have hlevel : a.status = a.rootStatus := h.level
  refine ⟨fun hnone => ?_, fun root hroot => ?_,
    fun budget delta status a' hstep => ?_⟩
  · rw [hlevel, rootStatus, hnone]
  · obtain ⟨hne, s, hs, -⟩ := h.ready.wired.root root hroot
    have hstatus : a.status = a.statusOf root := by
      rw [hlevel, rootStatus, hroot]
    rw [hstatus, statusOf, shown?, if_neg hne, hs]
    rfl
  · cases hroot : a.root with
    | none => cases (step_rootless hroot hstep).1
    | some root =>
        obtain ⟨hstatus, hne⟩ := step_sets_root h hroot hstep
        have hafter : a'.status = a'.rootStatus := (h.step hstep).level
        have hroot' : a'.root = some root :=
          (step_seated h.ready.rest hstep).links.root.trans hroot
        rw [rootStatus, hroot'] at hafter
        refine ⟨hstatus, ?_⟩
        rw [hstatus, hafter]
        exact hne

/-- A tree that has been stepped once, and one whose step a child has
aborted. -/
theorem status_eq_root_eager :
    (∃ a', Arena.step 30 0 eager = some (.ok .running, a')
      ∧ Status.running = a'.status
      ∧ (a'.shown? ⟨1⟩).map (·.status) = some a'.status)
    ∧ ∃ a', Arena.step 30 0 careless
      = some (.error (.secondReport ⟨2⟩ "careless"), a')
      ∧ (a'.shown? ⟨1⟩).map (·.status) = some a'.status := by
  have heager : History true eager :=
    (History.empty () fun roll => roll).setRoot rfl
  have hcareless : History true careless :=
    (History.empty () fun roll => roll).setRoot rfl
  obtain ⟨a', hstep⟩ : ∃ a', Arena.step 30 0 eager = some (.ok .running, a') :=
    ⟨_, rfl⟩
  obtain ⟨b', habort⟩ : ∃ b', Arena.step 30 0 careless
      = some (.error (.secondReport ⟨2⟩ "careless"), b') := ⟨_, rfl⟩
  have hroot : a'.root = some ⟨1⟩ :=
    (step_seated heager.ready.rest hstep).links.root
  have hroot' : b'.root = some ⟨1⟩ :=
    (step_seated hcareless.ready.rest habort).links.root
  refine ⟨⟨a', hstep, ?_, ?_⟩, b', habort, ?_⟩
  · exact (heager.status_eq_root.2.2 30 0 .running a' hstep).1
  · exact (heager.step hstep).status_eq_root.2.1 ⟨1⟩ hroot
  · exact (hcareless.step habort).status_eq_root.2.1 ⟨1⟩ hroot'

end TaskTree.Arena
