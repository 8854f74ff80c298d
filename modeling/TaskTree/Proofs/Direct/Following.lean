/-
Following a task through the steps of its tree.

A step is told twice. The journal says how each task is called, and the direct
evaluation says what each task comes to. Here the two accounts are brought
together. What the journal says of the statuses in a step are the notices of
the turn in the direct evaluation (`step_turned`); listeners have no part in
this, so one may think of a listener who is told of everything. And a task
that stands in no guard has no turn in a step, or it has one turn, in which it
is gone on with, or entered, or turned away by its guard (`Seen`).
-/
import TaskTree.Proofs.Arena.Gates
import TaskTree.Proofs.Arena.Hushed
import TaskTree.Proofs.Direct.Frugal
import TaskTree.Proofs.Direct.Visits

namespace TaskTree

-- ================================================================ doings

/-- The call with which a task is started or updated. -/
def Doing.call? : Doing → Option Call
  | .start => some .start
  | .update => some .update
  | .turn | .set => none

namespace Arena

section

variable {id : TaskId} {news later : List Entry}

/-- The hooks of a task are the doings that are calls. -/
theorem hooked_eq_doings (id : TaskId) (news : List Entry) :
    hooked id news = (doings id news).filterMap Doing.call? := by
  rw [hooked, doings, List.filterMap_filterMap]
  congr 1
  funext entry
  cases entry with
  | turnBegan task | statusSet task =>
      by_cases htask : task
        = id <;> simp [Entry.hooked?, Entry.does?, htask, Doing.call?]
  | called task call =>
      cases call <;> by_cases htask : task = id <;>
        simp [Entry.hooked?, Entry.does?, htask, Doing.call?]
  | _ => rfl

/-- What is given in two stretches is given in the first and then in the
second. -/
theorem given_append (id : TaskId) (news later : List Entry) :
    given id (news ++ later) = given id news ++ given id later :=
  List.filterMap_append ..

/-- A task that does nothing is given no status. -/
theorem given_eq_nil_of_doings (h : doings id news = []) :
    given id news = [] := by
  rw [← List.length_eq_zero_iff, length_given, ← count_doings_set, h]
  rfl

/-- A task that has no part is given no status. -/
theorem Absent.given (h : Absent id news) : given id news = [] := by
  refine List.filterMap_eq_nil_iff.2 fun entry hentry => ?_
  have hpart := h entry hentry
  cases entry with
  | statusSet task => exact if_neg fun htask => hpart (congrArg some htask)
  | _ => rfl

/-- And none of its hooks is called. -/
theorem Absent.hooked (h : Absent id news) : hooked id news = [] := by
  refine List.filterMap_eq_nil_iff.2 fun entry hentry => ?_
  have hpart := h entry hentry
  cases entry with
  | called task call =>
      have htask : task ≠ id := fun htask => hpart (congrArg some htask)
      cases call with
      | respond => rfl
      | start | update => exact if_neg htask
  | _ => rfl

/-- Nothing happens to a task before its turn, where what happens to it fits
into one step. -/
theorem doings_before
    (h : (doings id (news ++ .turnBegan id :: later)).Sublist Doing.all) :
    doings id news = [] := by
  rw [doings_append, doings_cons_own rfl] at h
  cases hbefore : doings id news with
  | nil => rfl
  | cons first rest =>
      rw [hbefore, List.cons_append] at h
      have hturn : Doing.turn ∈ rest ++ .turn :: doings id later :=
        List.mem_append_right _ List.mem_cons_self
      cases h with
      | cons _ h =>
          exact absurd (h.mem (List.mem_cons_of_mem _ hturn)) (by decide)
      | cons_cons _ h => exact absurd (h.mem hturn) (by decide)

/-- Nothing happens to a task after the stretch in which its status is set. -/
theorem doings_after {middle : List Entry}
    (h : (doings id (news ++ (middle ++ later))).Sublist Doing.all)
    (hset : given id middle ≠ []) :
    doings id later = [] := by
  -- The middle has a status of the task in it, and behind that one nothing is
  -- done any more.
  obtain ⟨entry, hentry, hgiven⟩ : ∃ entry ∈ middle,
      entry.given? id ≠ none := by
    simpa only [given, ne_eq, List.filterMap_eq_nil_iff, not_forall,
      exists_prop] using hset
  obtain ⟨name, previous, status, rfl⟩ :
      ∃ name previous status, entry = .statusSet id name previous status := by
    cases entry with
    | statusSet task name previous status =>
        by_cases htask : task = id
        · exact ⟨name, previous, status, by rw [htask]⟩
        · exact absurd (if_neg htask) hgiven
    | _ => exact absurd rfl hgiven
  obtain ⟨front, back, rfl⟩ := List.append_of_mem hentry
  have hsplit : news
      ++ (front ++ .statusSet id name previous status :: back ++ later)
      = (news ++ front) ++ .statusSet id name previous status
        :: (back ++ later) := by
    simp only [List.append_assoc, List.cons_append]
  have hnone := doings_over h hsplit
  rw [doings_append] at hnone
  exact (List.append_eq_nil_iff.1 hnone).2

end

-- ================================================================ turns

variable {E A : Type} [Deed E A] {a a' : Arena E (Stock E A)} {x : TaskId}
  {news during : List Entry}

/-- How a task that is no guard has a part in a step. -/
inductive Seen (a : Arena E (Stock E A)) (x : TaskId)
    (during : List Entry) : Prop where
  | absent (habsent : Absent x during)
  | resumed (hrunning : a.statusOf x = .running)
      (hhooked : hooked x during = [.update]) (hgiven : given x during ≠ [])
  /-- Its guard has succeeded, if it has one. -/
  | admitted (hidle : a.statusOf x ≠ .running)
      (hhooked : hooked x during = [.start, .update])
      (hgiven : given x during ≠ [])
      (hguard : ∀ guard, a.guardOf x = some guard →
        .succeeded ∈ given guard during)
  | refused (hidle : a.statusOf x ≠ .running) (hhooked : hooked x during = [])
      (hgiven : given x during ≠ [])

omit [Deed E A] in
/-- A guard that lets a task in has succeeded. -/
theorem Asked.succeeded {guardOf : TaskId → Option TaskId} {news : List Entry}
    (h : Asked guardOf x true news) {guard : TaskId}
    (hguard : guardOf x = some guard) :
    .succeeded ∈ given guard news := by
  cases h with
  | unguarded hnone =>
      rw [hguard] at hnone
      cases hnone
  | @tried _ guard' _ before inner hguard' _ _ _ hgiven =>
      obtain rfl := Option.some.inj (hguard'.symm.trans hguard)
      have hinner : .succeeded ∈ given guard' inner := by
        rw [hgiven]
        exact List.mem_cons_self
      rw [given_append]
      refine List.mem_append_right _ ?_
      exact (given_append guard' inner [.turnEnded guard']).symm
        ▸ List.mem_append_left _ hinner

omit [Deed E A] in
/-- A task that has one turn in a step passes its guards, or does not. By the
way in which the task was entered: the hooks are those of the turn, and only an
admitted task can show what its guards said. -/
theorem Enters.seen {status : Status} {before inner after : List Entry}
    (h : Enters a.guardOf x status inner) (hx : x ≠ .evaluator)
    (hstatus : status = a.statusOf x)
    (hduring : during
      = before ++ .turnBegan x :: (inner ++ .turnEnded x :: after))
    (hinner : hooked x during = hooked x inner) (hgiven : given x during ≠ []) :
    Seen a x during := by
  subst hstatus
  cases h with
  | resumed hrunning _ hhooked =>
      exact .resumed hrunning (hinner.trans hhooked) hgiven
  | @admitted asked inner hidle hasked habsent _ hhooked =>
      refine .admitted hidle ?_ hgiven fun guard hguard => ?_
      · rw [hinner, hooked_append, habsent.hooked, hhooked]
        rfl
      · have hsub : asked.Sublist during := by
          rw [hduring]
          refine (List.Sublist.cons _ ?_).trans
            (List.sublist_append_right before _)
          rw [List.append_assoc]
          exact List.sublist_append_left ..
        exact (hsub.filterMap _).mem (hasked.succeeded hguard)
  | @refused asked aside hidle _ habsent name previous haside =>
      refine .refused hidle ?_ hgiven
      have haway : Absent x aside :=
        fun entry hentry hpart => hx (haside entry hentry x hpart)
      rw [hinner, hooked_append, habsent.hooked]
      exact haway.hooked

/-- A task that has a turn is given a status in it. -/
theorem Run.given_ne {a₀ : Arena E (Stock E A)} (hranked : Ranked a₀)
    {job : Job E (Stock E A)} (h : Run a₀ job a news a')
    (hfault : a'.fault = none) {before inner after : List Entry}
    (hnews : news = before ++ .turnBegan x
      :: (inner ++ .turnEnded x :: after)) :
    given x inner ≠ [] := by
  -- The turn is fair, so in it the task is given one status; it remains to see
  -- that this is the same stretch.
  obtain ⟨inner', after', heq, hheeds⟩ := h.fair hranked before x _ hnews
  have hclear : ∀ fault, .raised fault ∉ inner' := by
    intro fault hmem
    refine (h.clear hfault).2 fault ?_
    rw [hnews, heq]
    exact List.mem_append_right _
      (List.mem_cons_of_mem _ (List.mem_append_left _ hmem))
  have hone : given x inner' ≠ [] := by
    rw [← List.length_pos_iff_ne_nil, length_given, (hheeds.once hclear).2]
    exact Nat.one_pos
  -- Both stretches end with the end of the turn, which the task has only once.
  rcases split_append heq with ⟨rest, hinner, -⟩ | ⟨rest, hinner', hrest⟩
  · rw [hinner, given_append]
    exact fun hnone => hone (List.append_eq_nil_iff.1 hnone).1
  · cases rest with
    | nil =>
        rw [List.append_nil] at hinner'
        exact hinner' ▸ hone
    | cons entry rest =>
        obtain ⟨rfl, -⟩ := List.cons.inj hrest
        refine absurd rfl (hheeds.alone (.turnEnded x) ?_)
        exact hinner' ▸ List.mem_append_right _ List.mem_cons_self

section

variable {fine : Bool} {budget : Nat} {delta : Float32} {status : Status}

/-- What the journal says of a step with a status is a run in which nobody is at
fault, in a tree whose links are in order. -/
theorem step_ran (h : History fine a)
    (hstep : Arena.step budget delta a = some (.ok status, a'))
    (hduring : a'.entries = a.entries ++ during) :
    ∃ root news, during = .stepBegan root delta :: news
      ∧ Wired (a.begun root delta)
      ∧ Ranked (a.begun root delta) ∧ a'.fault = none
      ∧ Run (a.begun root delta) (.drive root true)
        (a.begun root delta) news a' := by
  obtain ⟨root, news, -, hentries, hrun, hfault⟩ := step_clear h hstep
  exact ⟨root, news, List.append_cancel_left (hduring.symm.trans hentries),
    h.ready.wired.congr ⟨rfl, .refl a⟩, h.ranked.begun root delta, hfault, hrun⟩

/-- What happens to a task in a step with a status happens once and in order. -/
theorem step_fits (h : History fine a)
    (hstep : Arena.step budget delta a = some (.ok status, a'))
    (hduring : a'.entries = a.entries ++ during) (x : TaskId) :
    (doings x during).Sublist Doing.all := by
  obtain ⟨root, news, rfl, hwired, hranked, -, hrun⟩ := step_ran h hstep hduring
  rw [doings_cons_none rfl]
  exact (hrun.thrifty hwired hranked x).1

/-- A task has a turn in a step with a status, and is given a status, or it has
no part in the step. -/
theorem step_begun (h : History fine a)
    (hstep : Arena.step budget delta a = some (.ok status, a'))
    (hduring : a'.entries = a.entries ++ during) (hx : x ≠ .evaluator) :
    .turnBegan x ∈ during ∧ given x during ≠ [] ∨ Absent x during := by
  obtain ⟨root, news, rfl, -, hranked, hfault, hrun⟩ := step_ran h hstep hduring
  by_cases hturn : .turnBegan x ∈ news
  · obtain ⟨before, rest, rfl⟩ := List.append_of_mem hturn
    obtain ⟨inner, after, rfl, -⟩ := hrun.fair hranked before x _ rfl
    have hset : given x inner ≠ [] := hrun.given_ne hranked hfault rfl
    refine .inl ⟨List.mem_cons_of_mem _ hturn, fun hnone => ?_⟩
    rw [List.append_cons, ← List.cons_append, given_append,
      given_append] at hnone
    exact hset (List.append_eq_nil_iff.1 (List.append_eq_nil_iff.1 hnone).2).1
  · refine .inr (absent_cons.2 ⟨nofun, hrun.absent hx ?_ hturn⟩)
    exact (Option.some_ne_none x).symm

/-- Where a task stands after a step with a status is what the journal says. -/
theorem step_account (h : History fine a)
    (hstep : Arena.step budget delta a = some (.ok status, a'))
    (hduring : a'.entries = a.entries ++ during)
    (hslot : (a.slot? x).isSome = true) :
    .fresh ∉ given x during
      ∧ a'.statusOf x = during.foldl (Entry.stands x) (a.statusOf x) := by
  obtain ⟨root, -, hroot, -⟩ := step_clear h hstep
  obtain ⟨news, hnews, hcandid, hstands⟩ := step_candid hroot hstep
  obtain rfl := List.append_cancel_left (hduring.symm.trans hnews)
  refine ⟨fun hfresh => ?_, hstands x hslot⟩
  -- A status that is set is that of an outcome, and no outcome is fresh.
  obtain ⟨entry, hentry, hgiven⟩ := List.mem_filterMap.1 hfresh
  cases entry with
  | statusSet task name previous current =>
      by_cases htask : task = x
      · subst htask
        obtain ⟨before, after, heq⟩ := List.append_of_mem hentry
        refine (hcandid before task name previous current after heq hslot).2.2
          ?_
        exact Option.some.inj ((if_pos rfl).symm.trans hgiven)
      · exact absurd ((if_neg htask).symm.trans hgiven)
          (Option.some_ne_none _).symm
  | _ => cases hgiven

/-- What the journal of a step with a status says of a task that is no guard.
The task has a turn in this step, or no part in it at all. -/
theorem seen (h : History fine a)
    (hstep : Arena.step budget delta a = some (.ok status, a'))
    (hduring : a'.entries = a.entries ++ during) (hx : x ≠ .evaluator)
    (hfree : ∀ owner, a.guardOf owner ≠ some x) : Seen a x during := by
  have hfit := step_fits h hstep hduring x
  rcases step_begun h hstep hduring hx with ⟨hturn, hgiven⟩ | habsent
  · obtain ⟨root, news, rfl, hwired, hranked, hfault, hrun⟩ :=
      step_ran h hstep hduring
    have hnews : .turnBegan x ∈ news :=
      (List.mem_cons.1 hturn).resolve_left nofun
    obtain ⟨before, rest, rfl⟩ := List.append_of_mem hnews
    obtain ⟨inner, after, rfl, henters⟩ :=
      hrun.gated hwired hranked (.inl rfl) hfault before x _ rfl hfree
    have hset : given x inner ≠ [] := hrun.given_ne hranked hfault rfl
    rw [doings_cons_none rfl] at hfit
    -- It has one turn only, so its doings are those of this turn.
    have hbefore : doings x before = [] := doings_before hfit
    have hafter : doings x (.turnEnded x :: after) = [] := by
      rw [List.append_cons] at hfit
      exact doings_after hfit hset
    have hdoings : doings x (.stepBegan root delta
        :: (before ++ .turnBegan x :: (inner ++ .turnEnded x :: after)))
      = .turn :: doings x inner := by
      rw [doings_cons_none rfl, doings_append, hbefore, doings_cons_own rfl,
        doings_append, hafter, List.append_nil]
      rfl
    have hhooked : hooked x (.stepBegan root delta
        :: (before ++ .turnBegan x :: (inner ++ .turnEnded x :: after)))
      = hooked x inner := by
      rw [hooked_eq_doings, hdoings, hooked_eq_doings]
      rfl
    have hpasses : Enters a.guardOf x
        (before.foldl (Entry.stands x) (a.statusOf x)) inner := henters
    -- The status that it is entered with is that of before the step, for
    -- nothing was given to it earlier.
    refine hpasses.seen hx ?_ (List.cons_append ..).symm hhooked hgiven
    rw [foldl_stands, given_eq_nil_of_doings hbefore]
    rfl
  · exact .absent habsent

end

-- ====================================================== the two accounts

open Direct Live

/-- A tree with a listener who is told of everything. -/
def overheard (a : Arena E (Stock E A)) : Arena E (Stock E A) :=
  { a with listeners := [.observer 0] }

/-- A step with a status is a turn of a tree in the direct evaluation, and the
journal tells of the statuses that are set in the turn. -/
structure Turned (a a' : Arena E (Stock E A)) (delta : Float32)
    (during : List Entry) (live : Live E A) (outcome : Outcome) : Prop where
  bears : Bears a.told a live (worldOf a)
  chained : Chained live
  ok : (turn delta live (worldOf a)).result = .ok outcome
  after : Bears a.told a' (turn delta live (worldOf a)).live
    (turn delta live (worldOf a)).world
  tells : ∀ x, (turn delta live (worldOf a)).world.given x = given x during

omit [Deed E A] in
/-- The statuses given to a task are among the changes that are noticed. -/
theorem given_eq_changes (x : TaskId) (news : List Entry) :
    given x news = (news.filterMap Entry.change?).filterMap
      (Notice.given? x) := by
  rw [given, List.filterMap_filterMap]
  congr 1
  funext entry
  cases entry <;> rfl

omit [Deed E A] in
/-- A single listener is told of the changes one by one. -/
theorem flatMap_singleton_inj {who : Listener} {notices notices' : List Notice}
    (h : (notices.flatMap fun notice => [who].map fun who => (who, notice))
      = notices'.flatMap fun notice => [who].map fun who => (who, notice)) :
    notices = notices' := by
  have hmap : ∀ notices : List Notice,
      (notices.flatMap fun notice => [who].map fun who => (who, notice)).map
        Prod.snd = notices := by
    intro notices
    induction notices with
    | nil => rfl
    | cons notice rest ih => rw [List.flatMap_cons, List.map_append, ih]; rfl
  rw [← hmap notices, h, hmap]

/-- The changes in a step are the notices of the turn. -/
theorem step_notices {fine : Bool} (h : History fine a) {budget : Nat}
    {delta : Float32} {result : Except Fault Status}
    (hstep : Arena.step budget delta a = some (result, a'))
    (hduring : a'.entries = a.entries ++ during) {live : Live E A}
    (hbears : Bears a.told a live (worldOf a)) :
    (turn delta live (worldOf a)).world.notices
      = during.filterMap Entry.change? := by
  -- One listener more, that hears everything: what it is told is the notices of
  -- the turn, and the changes are the same as without it.
  obtain ⟨c, hheard, halike⟩ :=
    step_alike hstep (rfl : (overheard a).hushed = a.hushed)
  have hhistory : History fine (overheard a) :=
    h.outside a.board [.observer 0] a.journal
  have hover : Bears a.told (overheard a) live (worldOf a) :=
    ⟨hbears.root, hbears.tasks, hbears.holds.frame fun _ _ => rfl,
      hbears.idle.congr rfl, shares_worldOf (overheard a)⟩
  obtain ⟨c', hsettles, hafter, hlisteners, -⟩ := step_bears hover delta
  obtain ⟨-, rfl⟩ := Prod.mk.inj ((step_settles hheard).unique hsettles)
  obtain ⟨heard, hchanges⟩ := step_changes hhistory hheard
  have htold : a.told ++ heard.filterMap Entry.notice?
      = a.told ++ (turn delta live (worldOf a)).world.notices.flatMap
        fun notice => [Listener.observer 0].map fun who => (who, notice) := by
    have hshares := hafter.shares.told
    rw [hlisteners] at hshares
    refine Eq.trans ?_ hshares
    have hentries : c.journal.toList = a.journal.toList ++ heard :=
      hchanges.entries
    rw [told, told, hentries, List.filterMap_append]
  have hnotices := List.append_cancel_left htold
  rw [hchanges.told] at hnotices
  rw [← flatMap_singleton_inj hnotices]
  have hsame : a.entries.filterMap Entry.change?
      ++ heard.filterMap Entry.change?
      = a.entries.filterMap Entry.change?
        ++ during.filterMap Entry.change? := by
    -- The journals agree when the tidings to listeners are left out.
    rw [← List.filterMap_append, ← List.filterMap_append, ← hduring,
      ← changes_hushed a', ← halike, changes_hushed, hchanges.entries]
    rfl
  exact List.append_cancel_left hsame

/-- A step takes one turn of the tree that the arena bears. -/
theorem step_turned (h : History true a) {budget : Nat} {delta : Float32}
    {status : Status}
    (hstep : Arena.step budget delta a = some (.ok status, a'))
    (hduring : a'.entries = a.entries ++ during) :
    ∃ live outcome, Turned a a' delta during live outcome := by
  -- Without a root there would be no status to return.
  rcases h.grows with hbare | ⟨live, hbears, hchained⟩
  · cases (step_rootless hbare.root hstep).1
  · obtain ⟨a₁, hsettles, hafter, -⟩ := step_bears hbears delta
    obtain ⟨hresult, rfl⟩ := Prod.mk.inj ((step_settles hstep).unique hsettles)
    obtain ⟨outcome, hok⟩ : ∃ outcome,
        (turn delta live (worldOf a)).result = .ok outcome := by
      rw [Direct.step] at hresult
      cases hturn : (turn delta live (worldOf a)).result with
      | ok outcome => exact ⟨outcome, rfl⟩
      | error fault =>
          rw [hturn] at hresult
          cases hresult
    refine ⟨live, outcome, hbears, hchained rfl, hok, hafter, fun x => ?_⟩
    rw [World.given, step_notices h hstep hduring hbears, given_eq_changes]

/-- A task that stands in no guard. -/
def Outside (a : Arena E (Stock E A)) (x : TaskId) : Prop :=
  ∀ owner guard, a.guardOf owner = some guard → ¬ Beneath a guard x

end Arena

-- ============================================================ the branches

namespace Direct

open Arena Live

variable {E A : Type} {a : Arena E (Stock E A)} {live n : Live E A}
  {role : Role} {base : List (Listener × Notice)} {w : World E} {x : TaskId}

/-- Every part of a held tree is beneath its root. Up the tree from the part,
one link at a time. -/
theorem Part.beneath (hholds : Holds a role live) (h : Part n live) :
    Beneath a live.id n.id := by
  induction h generalizing role with
  | self => exact .self
  | guard within ih =>
      have hguard := hholds.guardOf
      cases hholds with
      | node slot carries below beneath =>
          exact (ih (below _ rfl)).head (.inr hguard)
  | child mem within ih =>
      have hchildren := hholds.childrenOf
      cases hholds with
      | node slot carries below beneath =>
          refine (ih (beneath _ mem)).head (.inl ?_)
          rw [Live.id, hchildren]
          exact List.mem_map_of_mem mem

/-- A part of a held tree is reached over children alone, or it stands in a
guard. -/
theorem Part.branch (hholds : Holds a role live) (h : Part n live)
    (houtside : Outside a n.id) :
    Branch n live := by
  induction h generalizing role with
  | self => exact .self
  | guard within _ =>
      have hguard := hholds.guardOf
      cases hholds with
      | node slot carries below beneath =>
          exact absurd (Part.beneath (below _ rfl) within) (houtside _ _ hguard)
  | child mem within ih =>
      cases hholds with
      | node slot carries below beneath => exact .child mem (ih (beneath _ mem))

/-- The evaluator is no task, and no task sits in its place. -/
theorem Idle.ne (h : Idle a) {task : Stock E A}
    (hx : a.occupantOf x = some (.task task)) :
    x ≠ .evaluator := by
  rintro rfl
  obtain ⟨s, hslot, hoccupant, -⟩ := h
  rw [occupantOf, hslot] at hx
  cases hoccupant.symm.trans hx

/-- An occupied slot belongs to a task. -/
theorem Bears.mem_of_occupant (h : Bears base a live w) {task : Stock E A}
    (hx : a.occupantOf x = some (.task task)) : x ∈ a.tasks := by
  refine Arena.mem_tasks.2 ⟨h.idle.ne hx, ?_⟩
  · obtain ⟨s, hslot, -⟩ := Option.bind_eq_some_iff.1 hx
    rw [hslot]
    rfl

/-- A task that stands in no guard is that of a branch of the tree. -/
theorem Bears.branch (h : Bears base a live w) {task : Stock E A}
    (hx : a.occupantOf x = some (.task task)) (houtside : Outside a x) :
    ∃ guard children, Branch (.node x task (a.statusOf x) guard children) live
      ∧ a.guardOf x = guard.map Live.id
      ∧ a.childrenOf x = children.map Live.id := by
  obtain ⟨task', status, guard, children, role, hpart, hholds, hstatus⟩ :=
    h.part (h.mem_of_occupant hx)
  have hoccupant := hholds.occupantOf.symm.trans hx
  obtain rfl : task' = task := by
    simpa only [Option.some.injEq, Occupant.task.injEq] using hoccupant
  subst hstatus
  exact ⟨guard, children, hpart.branch h.holds houtside, hholds.guardOf,
    hholds.childrenOf⟩

-- ============================================================= the guards

variable [Deed E A] {delta : Float32} {outcome : Outcome}

/-- A task that has its turn is given the status that it reports. Whatever the
turn does first, it tells of nothing that the task is given; the outcome is told
last. -/
theorem turn_given (hnodup : n.ids.Nodup)
    (hok : (turn delta n w).result = .ok outcome) :
    (turn delta n w).world.given n.id = w.given n.id ++ [outcome.status] := by
  obtain ⟨id, task, status, guard, children⟩ := n
  rw [ids] at hnodup
  obtain ⟨hid, hbelow⟩ := List.nodup_cons.1 hnodup
  have hchildren : id ∉ allIds children :=
    fun hmem => hid (List.mem_append_right _ hmem)
  have hasks : ∀ {admitted : Bool}, (ask delta guard w).result = .ok admitted →
      (ask delta guard w).world.given id = w.given id := fun hasked =>
    (ask_minds (fun g _ => minds delta g) hasked).given id fun hmem =>
      hid (List.mem_append_left _ hmem)
  cases turn_turns hok with
  | resumed _ hworks hok =>
      rw [hworks] at hok ⊢
      exact work_given (fun c _ => minds delta c) hchildren hok
  | refused _ hasked hfailed hconcludes =>
      rw [hconcludes, hfailed, conclude, given_tell, Notice.given?, Live.id,
        if_pos rfl, hasks hasked]
      rfl
  | entered _ hasked hworks hok =>
      rw [hworks] at hok ⊢
      rw [Live.id, work_given (fun c _ => minds delta c) hchildren hok,
        (spares_enter (p := fun _ => True) _ task).given id trivial,
        hasks hasked]

/-- A guard that turns somebody away has not succeeded. By what the guards of
the guard say: it is not entered, or it is entered and ends with a failure. -/
theorem ask_given {g : Live E A} (hnodup : g.ids.Nodup)
    (hsilent : w.given g.id = [])
    (hok : (ask delta (some g) w).result = .ok false) :
    .succeeded ∉ (ask delta (some g) w).world.given g.id := by
  obtain ⟨id, task, status, guard, children⟩ := g
  rw [ids] at hnodup
  obtain ⟨hid, hbelow⟩ := List.nodup_cons.1 hnodup
  have hchildren : id ∉ allIds children :=
    fun hmem => hid (List.mem_append_right _ hmem)
  rw [ask] at hok ⊢
  dsimp only [Live.id] at hok hsilent ⊢
  cases hasked : (ask delta guard w).result with
  | error fault =>
      rw [hasked] at hok
      cases hok
  | ok admitted =>
      have hbefore : (ask delta guard w).world.given id = [] :=
        ((ask_minds (fun g _ => minds delta g) hasked).given id fun hmem =>
          hid (List.mem_append_left _ hmem)).trans hsilent
      rw [hasked] at hok
      cases admitted with
      | false =>
          dsimp only
          rw [hbefore]
          exact List.not_mem_nil
      | true =>
          dsimp only at hok ⊢
          obtain ⟨outcome, hwork, -⟩ := admission_ok hok
          rw [hwork] at hok
          have hfailed : outcome = .failed := by
            cases outcome with
            | failed => rfl
            | succeeded | running => cases hok
          rw [work_given (fun c _ => minds delta c) hchildren hwork,
            (spares_enter (p := fun _ => True) _ task).given id trivial,
            hbefore, hfailed]
          decide

end Direct

-- ============================================================ the updates

namespace Arena

open Direct Live

variable {E A : Type} [Deed E A] {a a' : Arena E (Stock E A)} {x : TaskId}
  {during : List Entry} {delta : Float32} {task : Stock E A}

omit [Deed E A] in
/-- A task outside of all guards is no guard. -/
theorem Outside.free (h : Outside a x) (owner : TaskId) :
    a.guardOf owner ≠ some x :=
  fun howner => h owner x howner .self

/-- Between steps the evaluator is idle. -/
theorem History.idle {fine : Bool} (h : History fine a) : Idle a := by
  rcases h.grows with hbare | ⟨live, hbears, -⟩
  · exact hbare.idle
  · exact hbears.idle

/-- A step in which a task is updated. `task` is what it is when the update
begins, `w` is the world then, and it reports `outcome`. -/
structure Updated (a a' : Arena E (Stock E A)) (delta : Float32)
    (during : List Entry) (x : TaskId) (task : Stock E A)
    (guard : Option (Live E A)) (children : List (Live E A)) (w : World E)
    (outcome : Outcome) : Prop where
  /-- The task and what is beneath it are different tasks. -/
  apart : x ∉ allIds children ∧ (allIds children).Nodup
  /-- The slot names the children. -/
  links : a.childrenOf x = children.map Live.id
  /-- The children are where they were. -/
  beneath : HoldsAll a x children
  /-- A task that is not running has no running children. -/
  calm : a.statusOf x ≠ .running → ∀ c ∈ children, c.status ≠ .running
  /-- Before the update nobody in this part of the tree was given a status. -/
  silent : ∀ y ∈ x :: allIds children, w.given y = []
  /-- The update has an outcome. -/
  ok : (work delta x task (a.statusOf x) guard children w).result = .ok outcome
  /-- And what it leaves is in the arena afterwards. -/
  after :
    ∃ role, Holds a' role
      (work delta x task (a.statusOf x) guard children w).live
  /-- The dice only roll on. -/
  spent : (work delta x task (a.statusOf x) guard children w).world.rolled
    ≤ a'.rolled
  /-- The statuses given here are those the whole step gave. -/
  tells : ∀ y ∈ x :: allIds children,
    (work delta x task (a.statusOf x) guard children w).world.given y
      = given y during

/-- A task in a step in which it has its turn. -/
structure Came (a a' : Arena E (Stock E A)) (delta : Float32)
    (during : List Entry) (x : TaskId) (task : Stock E A)
    (guard : Option (Live E A)) (children : List (Live E A)) (w : World E)
    (outcome : Outcome) : Prop where
  nodup : (Live.node x task (a.statusOf x) guard children).ids.Nodup
  /-- The part of the tree is in the arena before the step, -/
  before : ∃ role, Holds a role (.node x task (a.statusOf x) guard children)
  /-- and is chained. -/
  chained : Chained (.node x task (a.statusOf x) guard children)
  /-- The dice are those of the arena, -/
  dice : w.dice = a.dice
  /-- and have rolled on. -/
  rolled : a.rolled ≤ w.rolled
  /-- Nobody in this part was given a status before. -/
  silent : ∀ y ∈ (Live.node x task (a.statusOf x) guard children).ids,
    w.given y = []
  /-- The turn has an outcome. -/
  ok : (turn delta (.node x task (a.statusOf x) guard children) w).result
    = .ok outcome
  /-- And what it leaves is in the arena afterwards. -/
  after :
    ∃ role, Holds a' role
      (turn delta (.node x task (a.statusOf x) guard children) w).live
  /-- The dice only roll on. -/
  spent :
    (turn delta (.node x task (a.statusOf x) guard children) w).world.rolled
      ≤ a'.rolled
  /-- The statuses given here are those the whole step gave. -/
  tells : ∀ y ∈ (Live.node x task (a.statusOf x) guard children).ids,
    (turn delta (.node x task (a.statusOf x) guard children) w).world.given y
      = given y during

/-- A task that stands in no guard has its turn in a step with a status, or it
has none, and then it does not run and is given no status. -/
theorem step_came (h : History true a) {budget : Nat} {status : Status}
    (hstep : Arena.step budget delta a = some (.ok status, a'))
    (hduring : a'.entries = a.entries ++ during)
    (hx : a.occupantOf x = some (.task task)) (houtside : Outside a x) :
    (a.statusOf x ≠ .running ∧ given x during = [])
      ∨ ∃ guard children w outcome,
        Came a a' delta during x task guard children w outcome := by
  obtain ⟨live, passed, hturned⟩ := step_turned h hstep hduring
  obtain ⟨hhidden, hnodup⟩ := hturned.bears.quiet
  obtain ⟨guard, children, hbranch, -, -⟩ := hturned.bears.branch hx houtside
  have hvisits : ∀ w',
      Visited delta (.node x task (a.statusOf x) guard children) (worldOf a)
      (Branch · (turn delta live (worldOf a)).live) w' →
        w' = (turn delta live (worldOf a)).world →
      ∃ guard children w outcome,
        Came a a' delta during x task guard children w outcome := by
    -- The visit has the part to itself: before and after it the others only
    -- spare it.
    rintro w' ⟨hbefore, hran, hthere, hafter⟩ rfl
    refine ⟨guard, children, _, _, hbranch.nodup hnodup,
      hturned.bears.holds.part hbranch.part, hturned.chained.part hbranch.part,
      hbefore.dice, hbefore.rolled, hbefore.given, hran,
      hturned.after.holds.part hthere.part, ?_, fun y hy => ?_⟩
    · rw [hturned.after.shares.rolled]
      exact hafter.rolled
    · rw [← hturned.tells]
      exact (hafter.given y hy).symm
  -- A running task is on the chain, which every turn follows to its end.
  by_cases hrunning : a.statusOf x = .running
  · exact .inr (hvisits _
        (hbranch.visited hturned.chained hrunning hnodup hturned.ok) rfl)
  · cases hbranch.fares hnodup hturned.ok with
    | spared _ hspares =>
        refine .inl ⟨hrunning, ?_⟩
        rw [← hturned.tells]
        exact hspares.given x (id_mem_ids _)
    | visited hvisited => exact .inr (hvisits _ hvisited rfl)

section

variable {guard : Option (Live E A)} {children : List (Live E A)}
  {w w' : World E} {outcome : Outcome} {task' : Stock E A}

/-- A turn in which the task is updated. -/
theorem Came.updated
    (h : Came a a' delta during x task guard children w outcome)
    {guard' : Option (Live E A)} (hspares : Spares (· ∉ guardIds guard) w w')
    (hworks : turn delta (.node x task (a.statusOf x) guard children) w
      = work delta x task' (a.statusOf x) guard' children w') :
    Updated a a' delta during x task' guard' children w' outcome := by
  have hnodup := h.nodup
  have hsilent := h.silent
  have htells := h.tells
  rw [ids] at hnodup hsilent htells
  obtain ⟨hid, hbelow⟩ := List.nodup_cons.1 hnodup
  -- The tasks beneath are none of the guard's, so the guard leaves them silent.
  obtain ⟨-, hrow, hguarded⟩ := List.nodup_append.1 hbelow
  have hmem : ∀ y ∈ x :: allIds children,
      y ∈ x :: (guardIds guard ++ allIds children) :=
    List.cons_subset_cons x (List.subset_append_right ..)
  have hfree : ∀ y ∈ x :: allIds children, y ∉ guardIds guard := by
    intro y hy hguard
    rcases List.mem_cons.1 hy with rfl | hy
    · exact hid (List.mem_append_left _ hguard)
    · exact hguarded y hguard y hy rfl
  obtain ⟨role, hbefore⟩ := h.before
  have hlinks := hbefore.childrenOf
  have hok := h.ok
  have hafter := h.after
  have hspent := h.spent
  rw [hworks] at hok hafter hspent htells
  cases hbefore with
  | node _ _ _ beneath =>
      refine ⟨⟨fun hx => hid (List.mem_append_right _ hx), hrow⟩, hlinks,
        beneath, fun hidle c hc => ?_, fun y hy => ?_, hok, hafter, hspent,
        fun y hy => htells y (hmem y hy)⟩
      · exact ((calm_node.1 (h.chained.calm_of_status hidle)).2.2
            c hc).status_ne
      · rw [hspares.given y (hfree y hy)]
        exact hsilent y (hmem y hy)

/-- In the turn the task is given its outcome. -/
theorem Came.given_eq
    (h : Came a a' delta during x task guard children w outcome) :
    given x during = [outcome.status] := by
  have hown : x ∈ (Live.node x task (a.statusOf x) guard children).ids :=
    id_mem_ids _
  refine (h.tells x hown).symm.trans ((turn_given h.nodup h.ok).trans ?_)
  rw [Live.id, h.silent x hown]
  rfl

/-- A task that is updated is given the status that it reports. -/
theorem Updated.given_eq
    (h : Updated a a' delta during x task guard children w outcome) :
    given x during = [outcome.status] := by
  have hgiven := work_given (fun c _ => minds delta c) h.apart.1 h.ok
  rw [h.tells x List.mem_cons_self, h.silent x List.mem_cons_self] at hgiven
  exact hgiven

/-- And it stands with it after the step. -/
theorem Updated.statusOf
    (h : Updated a a' delta during x task guard children w outcome) :
    a'.statusOf x = outcome.status := by
  obtain ⟨role, hafter⟩ := h.after
  obtain ⟨concludes, -, -, -⟩ := work_works (fun c _ => minds delta c) h.ok
  rw [concludes] at hafter
  exact hafter.statusOf

/-- A guard that has succeeded does not turn its task away. -/
theorem Came.admits (h : Came a a' delta during x task guard children w outcome)
    (hidle : a.statusOf x ≠ .running)
    (hguard : ∀ guard, a.guardOf x = some guard →
      .succeeded ∈ given guard during) :
    ∃ guard w, w.dice = a.dice ∧ a.rolled ≤ w.rolled
      ∧ Updated a a' delta during x (enter w task).1 guard children
        (enter w task).2 outcome := by
  cases turn_turns h.ok with
  | resumed hrunning => exact absurd hrunning hidle
  | entered _ hasked hworks =>
      have hasks := ask_minds (fun g _ => minds delta g) hasked
      exact ⟨_, _, hasks.dice.trans h.dice, Nat.le_trans h.rolled hasks.rolled,
        h.updated (hasks.trans (spares_enter _ _)) hworks⟩
  -- A task whose guard has succeeded was not refused: it would have to be the
  -- guard of a guard that failed.
  | refused _ hasked _ hconcludes =>
      cases guard with
      | none =>
          rw [ask] at hasked
          cases hasked
      | some g =>
          have hnodup := h.nodup
          rw [ids, guardIds] at hnodup
          obtain ⟨hid, hbelow⟩ := List.nodup_cons.1 hnodup
          have hne : x ≠ g.id :=
            fun heq => hid (heq ▸ List.mem_append_left _ (id_mem_ids g))
          have hmem : g.id
              ∈ (Live.node x task (a.statusOf x) (some g) children).ids := by
            rw [ids]
            exact List.mem_cons_of_mem _ (List.mem_append_left _ (id_mem_ids g))
          have hlost :=
            ask_given (List.nodup_append.1 hbelow).1 (h.silent g.id hmem) hasked
          obtain ⟨role, hbefore⟩ := h.before
          have hwon := hguard g.id hbefore.guardOf
          rw [← h.tells g.id hmem, hconcludes, conclude, given_tell,
            Notice.given?, if_neg hne, Option.toList_none,
            List.append_nil] at hwon
          exact absurd hwon hlost

end

section

variable {budget : Nat} {status : Status}

/-- A task that runs and stands in no guard is updated in a step, and not
started. -/
theorem step_goesOn (h : History true a)
    (hstep : Arena.step budget delta a = some (.ok status, a'))
    (hduring : a'.entries = a.entries ++ during)
    (hx : a.occupantOf x = some (.task task)) (houtside : Outside a x)
    (hrunning : a.statusOf x = .running) :
    hooked x during = [.update]
      ∧ ∃ guard children w outcome,
        Chained (.node x task .running guard children)
        ∧ Updated a a' delta during x task guard children w outcome := by
  -- The task is running, so the chain comes to it.
  rcases step_came h hstep hduring hx houtside with ⟨hidle, -⟩ |
      ⟨guard, children, w, outcome, hcame⟩
  · exact absurd hrunning hidle
  have hgiven : given x during ≠ [] := by
    rw [hcame.given_eq]
    exact List.cons_ne_nil _ _
  refine ⟨?_, guard, children, w, outcome, hrunning ▸ hcame.chained,
    hcame.updated (.refl w) ?_⟩
  · cases seen h hstep hduring (h.idle.ne hx) houtside.free with
    | absent habsent => exact absurd habsent.given hgiven
    | resumed _ hhooked => exact hhooked
    | admitted hidle | refused hidle => exact absurd hrunning hidle
  · cases turn_turns hcame.ok with
    | resumed _ hworks => exact hrunning ▸ hworks
    | refused hidle | entered hidle => exact absurd hrunning hidle

/-- A task that is started in a step, and stands in no guard, is entered and
updated. -/
theorem step_enters (h : History true a)
    (hstep : Arena.step budget delta a = some (.ok status, a'))
    (hduring : a'.entries = a.entries ++ during)
    (hx : a.occupantOf x = some (.task task)) (houtside : Outside a x)
    (hstart : .start ∈ hooked x during) :
    a.statusOf x ≠ .running ∧ hooked x during = [.start, .update]
      ∧ ∃ guard children w outcome, w.dice = a.dice ∧ a.rolled ≤ w.rolled
        ∧ Updated a a' delta during x (enter w task).1 guard children
          (enter w task).2 outcome := by
  have hnot : ∀ {calls : List Call}, hooked x during = calls →
      .start ∉ calls → False := by
    rintro calls rfl hmem
    exact hmem hstart
  -- Only one way of being seen has a start in it.
  cases seen h hstep hduring (h.idle.ne hx) houtside.free with
  | absent habsent => exact (hnot habsent.hooked (by decide)).elim
  | resumed _ hhooked => exact (hnot hhooked (by decide)).elim
  | refused _ hhooked => exact (hnot hhooked (by decide)).elim
  | admitted hidle hhooked hgiven hguard =>
      refine ⟨hidle, hhooked, ?_⟩
      rcases step_came h hstep hduring hx houtside with
        ⟨-, hnone⟩ | ⟨guard, children, w, outcome, hcame⟩
      · exact absurd hnone hgiven
      · obtain ⟨guard', w', hdice, hrolled, hupdated⟩ :=
          hcame.admits hidle hguard
        exact ⟨guard', children, w', outcome, hdice, hrolled, hupdated⟩

end

-- ================================================================== ticks

/-- A step that gave a status: how long it was, what the journal says of it, and
the tree after it. -/
structure Tick (E T : Type) where
  delta : Float32
  during : List Entry
  after : Arena E T

/-- Steps of a tree, one after another, that all give a status. In between the
board may be written, listeners may come and go, and the journal may be
taken. -/
inductive Ticks : Arena E (Stock E A) → List (Tick E (Stock E A)) → Prop where
  | stop (a : Arena E (Stock E A)) : Ticks a []
  | step {a : Arena E (Stock E A)} {tick : Tick E (Stock E A)}
      {ticks : List (Tick E (Stock E A))} {budget : Nat} {status : Status}
      (stepped : Arena.step budget tick.delta a = some (.ok status, tick.after))
      (entries : tick.after.entries = a.entries ++ tick.during)
      (later : Ticks tick.after ticks) :
      Ticks a (tick :: ticks)
  | outside {a : Arena E (Stock E A)} {ticks : List (Tick E (Stock E A))}
      (board : E) (listeners : List Listener) (journal : Array Entry)
      (later : Ticks { a with board, listeners, journal } ticks) : Ticks a ticks

omit [Deed E A] in
/-- Whether a task is in a guard is a matter of the links. -/
theorem Outside.congr (h : Outside a x)
    (hguard : ∀ y, a'.guardOf y = a.guardOf y)
    (hchildren : ∀ y, a'.childrenOf y = a.childrenOf y) : Outside a' x := by
  have hbeneath : ∀ {top y}, Beneath a' top y → Beneath a top y := by
    intro top y hbeneath
    induction hbeneath with
    | self => exact .self
    | child _ link ih => exact .child ih (hchildren _ ▸ link)
    | guard _ link ih => exact .guard ih (hguard _ ▸ link)
  exact fun owner guard howner hmem =>
    h owner guard (hguard owner ▸ howner) (hbeneath hmem)

omit [Deed E A] in
/-- In a tree without guards nobody stands in one. -/
theorem outside_of_unguarded (h : (a.slots.all fun s => s.guard.isNone) = true)
    (x : TaskId) :
    Outside a x := by
  intro owner guard howner
  obtain ⟨s, hslot, hguard⟩ := Option.bind_eq_some_iff.1 howner
  have hnone :=
    Array.all_eq_true_iff_forall_mem.1 h s (Array.mem_of_getElem? hslot)
  rw [hguard] at hnone
  cases hnone

/-- A step changes no links, so a task stays where it is. -/
theorem Outside.step {fine : Bool} (h : Outside a x) (hhistory : History fine a)
    {budget : Nat} {result : Except Fault Status}
    (hstep : Arena.step budget delta a = some (result, a')) :
    Outside a' x :=
  have hlinks := (step_seated hhistory.ready.rest hstep).links
  h.congr (fun y => hlinks.guardOf y) fun y => hlinks.childrenOf y

/-- A result with a status is an accepted one. -/
theorem ok_of_toOption {result : Except Fault Status} {status : Status}
    (h : result.toOption = some status) : result = .ok status := by
  cases result with
  | error fault => cases h
  | ok status => exact congrArg Except.ok (Option.some.inj h)

/-- A step before others. What the journal says of it is what it has added. -/
theorem Ticks.of_step {ticks : List (Tick E (Stock E A))} {budget : Nat}
    {status : Status} (hhistory : History true a)
    (hstep : Arena.step budget delta a = some (.ok status, a'))
    (h : Ticks a' ticks) :
    Ticks a (⟨delta, a'.entries.drop a.entries.length, a'⟩ :: ticks) := by
  obtain ⟨root, news, -, hentries, -⟩ := step_clear hhistory hstep
  refine .step hstep ?_ h
  rw [hentries, List.drop_left]

/-- The first of some steps, and the steps after it. By induction along what
happens between two steps, which does not touch the tree. -/
theorem Ticks.first {tick : Tick E (Stock E A)}
    {ticks : List (Tick E (Stock E A))} (h : Ticks a (tick :: ticks))
    (hhistory : History true a) :
    ∃ board listeners journal b budget status,
      b = { a with board, listeners, journal }
      ∧ History true b
      ∧ Arena.step budget tick.delta b = some (.ok status, tick.after)
      ∧ tick.after.entries = b.entries ++ tick.during ∧ Ticks tick.after ticks
      ∧ History true tick.after
      ∧ ∀ x, Outside a x → Outside b x ∧ Outside tick.after x := by
  obtain ⟨all, hall⟩ : ∃ all, all = tick :: ticks := ⟨_, rfl⟩
  rw [← hall] at h
  induction h with
  | stop => cases hall
  | @step a _ _ _ _ stepped entries later =>
      cases hall
      exact ⟨a.board, a.listeners, a.journal, a, _, _, rfl, hhistory, stepped,
        entries, later, hhistory.step stepped,
        fun _ houtside => ⟨houtside, houtside.step hhistory stepped⟩⟩
  | outside board listeners journal later ih =>
      obtain ⟨board', listeners', journal', b, budget, status, hb, hbefore,
        hstep, hentries, hlater, hafter, hkeeps⟩ := ih
        (hhistory.outside board listeners journal) hall
      exact ⟨board', listeners', journal', b, budget, status, hb, hbefore,
        hstep, hentries, hlater, hafter,
        fun x houtside => hkeeps x (houtside.congr (fun _ => rfl) fun _ => rfl)⟩

end Arena

end TaskTree
