/-
One step does a bounded amount of work.

No child is run twice by its parent, and no two ways lead to one task
(`Onward`). So no task can have two turns in a step, and in its turn it is
started once, updated once, and sets its status once: all that a task goes
through in a step is a sublist of `Doing.all`. Which tasks may go through
something in a job is said job by job (`Job.Thrifty`), and since the parts
of a job concern different tasks, the runs of a step keep it
(`Run.thrifty`).

`History.frugal` says so of every step, that the step comes to its end, and
how much its listeners are told.
-/
import Mathlib.Data.List.Nodup
import Mathlib.Data.List.Perm.Subperm
import TaskTree.Proofs.Arena.Turns
import TaskTree.Proofs.Direct.Onward

namespace TaskTree

-- ============================================================ the doings

/-- What a task goes through in a step. -/
inductive Doing where
  | turn
  | start
  | update
  | set
  deriving DecidableEq

/-- All that a task may go through in one step, in this order. -/
def Doing.all : List Doing := [.turn, .start, .update, .set]

/-- What an entry means for a task. -/
def Entry.does? : Entry → Option (TaskId × Doing)
  | .turnBegan task => some (task, .turn)
  | .called task .start => some (task, .start)
  | .called task .update => some (task, .update)
  | .statusSet task _ _ _ => some (task, .set)
  | _ => none

/-- Whose status an entry sets. -/
def Entry.setter? : Entry → Option TaskId
  | .statusSet task _ _ _ => some task
  | _ => none

/-- What a task goes through in a row of entries. -/
def doings (id : TaskId) (news : List Entry) : List Doing :=
  news.filterMap fun entry => entry.does?.bind fun did =>
    if did.1 = id then some did.2 else none

section

variable {id : TaskId} {news later : List Entry} {entry : Entry}

/-- The doings of two stretches follow each other. -/
theorem doings_append (id : TaskId) (news later : List Entry) :
    doings id (news ++ later) = doings id news ++ doings id later :=
  List.filterMap_append ..

/-- An entry of the task comes first. -/
theorem doings_cons_own {doing : Doing} (h : entry.does? = some (id, doing)) :
    doings id (entry :: news) = doing :: doings id news :=
  List.filterMap_cons_some (by rw [h, Option.bind_some, if_pos rfl])

/-- An entry that is no doing of the task is passed over. -/
theorem doings_cons_of_ne (h : ∀ doing, entry.does? ≠ some (id, doing)) :
    doings id (entry :: news) = doings id news := by
  refine List.filterMap_cons_none ?_
  cases hdoes : entry.does? with
  | none => rfl
  | some did =>
      rw [Option.bind_some, if_neg fun heq => h did.2 (by rw [hdoes, ← heq])]

/-- An entry that is nobody's doing is passed over. -/
theorem doings_cons_none (h : entry.does? = none) :
    doings id (entry :: news) = doings id news :=
  doings_cons_of_ne fun _ heq => nomatch h.symm.trans heq

/-- A doing of another task is passed over. -/
theorem doings_cons_other {who : TaskId} {doing : Doing}
    (h : entry.does? = some (who, doing)) (hid : id ≠ who) :
    doings id (entry :: news) = doings id news :=
  doings_cons_of_ne fun _ heq =>
    hid (Prod.mk.inj (Option.some.inj (heq.symm.trans h))).1

/-- So is an entry at the end that is nobody's doing. -/
theorem doings_concat_none (h : entry.does? = none) :
    doings id (news ++ [entry]) = doings id news := by
  rw [doings_append, doings_cons_none h]
  exact List.append_nil _

/-- Nothing is done by a task that no entry names. -/
theorem doings_eq_nil
    (h : ∀ entry ∈ news, ∀ doing, entry.does? ≠ some (id, doing)) :
    doings id news = [] := by
  induction news with
  | nil => rfl
  | cons entry rest ih =>
      rw [doings_cons_of_ne (h entry List.mem_cons_self)]
      exact ih fun entry hentry => h entry (List.mem_cons_of_mem _ hentry)

/-- What a task does after it set its status does not fit into its step. -/
theorem doings_over (h : (doings id news).Sublist Doing.all)
    {before after : List Entry} {name : String} {previous status : Status}
    (hnews : news = before ++ .statusSet id name previous status :: after) :
    doings id after = [] := by
  rw [hnews, doings_append, doings_cons_own rfl] at h
  have htail : (Doing.set :: doings id after).Sublist Doing.all :=
    (List.sublist_append_right _ _).trans h
  have hlast : (Doing.set :: doings id after).Sublist [.set] := by
    cases htail with
    | cons _ h =>
      cases h with
      | cons _ h =>
        cases h with
        | cons _ h => exact h
  exact List.sublist_nil.1 (List.cons_sublist_cons.1 hlast)

/-- The status is set as often as entries say so. -/
theorem count_doings_set (id : TaskId) (news : List Entry) :
    (doings id news).count .set = news.countP (Entry.sets id) := by
  rw [List.count, doings, List.countP_filterMap]
  refine List.countP_congr fun entry _ => ?_
  cases entry with
  | turnBegan task
  | statusSet task =>
      by_cases htask : task = id <;> simp [Entry.does?, Entry.sets, htask]
  | called task call =>
      cases call <;> by_cases htask : task
        = id <;> simp [Entry.does?, Entry.sets, htask]
  | _ => exact Iff.rfl

/-- The task only sets its status. -/
def OnlySets (id : TaskId) (news : List Entry) : Prop :=
  ∀ doing ∈ doings id news, doing = .set

/-- A task that does nothing only sets. -/
theorem onlySets_of_nil (h : doings id news = []) : OnlySets id news := by
  rw [OnlySets, h]
  exact fun _ hdoing => nomatch hdoing

/-- Two stretches in which a task only sets are one. -/
theorem OnlySets.append (h : OnlySets id news) (h' : OnlySets id later) :
    OnlySets id (news ++ later) := by
  intro doing hdoing
  rw [doings_append] at hdoing
  exact (List.mem_append.1 hdoing).elim (h doing) (h' doing)

/-- A task that only sets, and once at most, does no more than that. -/
theorem OnlySets.sublist (h : OnlySets id news)
    (hcount : news.countP (Entry.sets id) ≤ 1) :
    (doings id news).Sublist [Doing.set] := by
  have hlength : (doings id news).count .set = (doings id news).length :=
    List.count_eq_length.2 fun doing hdoing => (h doing hdoing).symm
  rw [List.eq_replicate_of_mem h, ← hlength, count_doings_set]
  exact (List.replicate_sublist_replicate Doing.set).2 hcount

/-- What a task goes through fits into one step, and is nothing unless
`r`. -/
def Doable (r : Prop) (done : List Doing) : Prop :=
  done.Sublist Doing.all ∧ (done ≠ [] → r)

variable {r r' : Prop} {done done' : List Doing}

/-- A task may always do nothing. -/
theorem doable_nil : Doable r [] := ⟨List.nil_sublist _, fun h => absurd rfl h⟩

/-- Who may do something under one condition may do it under a weaker one. -/
theorem Doable.mono (h : Doable r done) (hr : r → r') : Doable r' done :=
  ⟨h.1, fun hne => hr (h.2 hne)⟩

/-- Of two rows only one has something of a task. -/
theorem Doable.append (h : Doable r done) (h' : Doable r' done')
    (hapart : r → r' → False) :
    Doable (r ∨ r') (done ++ done') := by
  cases done with
  | nil => exact h'.mono .inr
  | cons first rest =>
      cases done' with
      | nil =>
          rw [List.append_nil]
          exact h.mono .inl
      | cons first' rest' =>
          exact (hapart (h.2 (by nofun)) (h'.2 (by nofun))).elim

/-- A task that may do nothing does nothing. -/
theorem Doable.eq_nil (h : Doable r done) (hnot : ¬ r) : done = [] :=
  Classical.byContradiction fun hne => hnot (h.2 hne)

end

namespace Arena

variable {E A : Type} {a₀ a a' : Arena E (Stock E A)} {news : List Entry}
  {id x : TaskId}

-- ============================================================= the jobs

/-- What the tasks go through in a job. -/
def Job.Thrifty (a : Arena E (Stock E A)) :
    Job E (Stock E A) → List Entry → Prop
  | .drive id asks, news => ∀ x,
      Doable (x = id ∨ a.Behind id 0 x ∨ asks = true ∧ a.Guards id x)
        (doings x news)
  | .turn id asks, news => (doings id news).Sublist [.start, .update, .set]
      ∧ ∀ x, x ≠ id → Doable (a.Behind id 0 x ∨ asks = true ∧ a.Guards id x)
        (doings x news)
  | .update id, news
  | .attend id .update, news => (doings id news).Sublist [.update, .set]
      ∧ ∀ x, x ≠ id → Doable (a.Behind id 0 x) (doings x news)
  | .attend id .start, news =>
    news = [] ∨ news = [.called id .start, .returned id]
  | .attend _ (.respond _ _), _ => True
  | .consult id _, news => ∀ x, Doable (a.Guards id x) (doings x news)
  | .answer id occupant, news => OnlySets id news
      ∧ ∀ x, x ≠ id → Doable (a.Behind id occupant.next x) (doings x news)
  | .perform id hook left, news =>
    ∀ n, hook.Advances Occupant.next n → n ≤ left.next
      ∧ OnlySets id news
      ∧ ∀ x, x ≠ id → Doable (a.Behind id n x ∧ ¬ a.Behind id left.next x)
        (doings x news)

-- ============================================================== reports

/-- A report is no doing of any other task. -/
theorem Tells.doings_of_ne {outcome : Outcome}
    (h : Tells a₀ a id outcome news a') (hx : x ≠ id) :
    doings x news = [] := by
  refine doings_eq_nil fun entry hentry doing => ?_
  cases h.ofReport entry hentry with
  | set => exact fun heq => hx (Prod.mk.inj (Option.some.inj heq)).1.symm
  | aside haside => cases haside <;> exact (Option.some_ne_none _).symm
  | reported | second | told => exact (Option.some_ne_none _).symm

/-- In a report the task only sets its status. -/
theorem Tells.onlySets {outcome : Outcome} (h : Tells a₀ a id outcome news a') :
    OnlySets id news := by
  -- The first report of a turn sets the status; the others do not.
  cases h with
  | unheard => exact onlySets_of_nil rfl
  | again => exact onlySets_of_nil rfl
  | @first aside _ _ _ haside =>
      have hset : OnlySets id [.reported id outcome,
          .statusSet id (a.nameOf id) (a.statusOf id) outcome.status] := by
        intro doing hdoing
        rw [doings_cons_none rfl, doings_cons_own rfl] at hdoing
        exact List.mem_singleton.1 hdoing
      refine hset.append
        (onlySets_of_nil (doings_eq_nil fun entry hentry doing => ?_))
      rcases List.mem_append.1 hentry with hentry | hentry
      · obtain ⟨who, -, rfl⟩ := List.mem_map.1 hentry
        exact (Option.some_ne_none _).symm
      · cases haside entry hentry <;> exact (Option.some_ne_none _).symm

/-- A report sets the status of the task once, if it sets it at all. -/
theorem Tells.doings_sublist {outcome : Outcome}
    (h : Tells a₀ a id outcome news a') :
    (doings id news).Sublist [.set] := by
  have honce := h.tale.once id (h.not_begun id)
  exact h.onlySets.sublist (by omega)

-- =================================================== jobs and their parts

/-- The task that is driven, and what may have a turn for it. -/
theorem beneath_of_driven {asks : Bool}
    (h : x = id ∨ a.Behind id 0 x ∨ asks = true ∧ a.Guards id x) :
    Beneath a id x := by
  rcases h with rfl | hbehind | ⟨-, hguards⟩
  · exact .self
  · exact hbehind.beneath
  · exact hguards.beneath

/-- A hook and the answers that follow it. What they run lies behind `n`. -/
theorem hook_thrifty {n : Nat} {hook : Hook E (Occupant (Stock E A))}
    {left : Occupant (Stock E A)} {answers : List Entry}
    (hhook : (Job.perform id hook left).Thrifty a news)
    (hadvances : hook.Advances Occupant.next n)
    (hanswer : (Job.answer id left).Thrifty a answers) :
    OnlySets id (news ++ .returned id :: answers)
      ∧ ∀ x, x ≠ id → Doable (a.Behind id n x)
        (doings x (news ++ .returned id :: answers)) := by
  obtain ⟨hle, hsets, hothers⟩ := hhook n hadvances
  have hreturned : OnlySets id [.returned id] := onlySets_of_nil rfl
  refine ⟨hsets.append (hreturned.append hanswer.1), fun x hx => ?_⟩
  rw [doings_append, doings_cons_none rfl]
  -- What the hook ran is not behind `left.next`, and all that the answers run
  -- is.
  refine ((hothers x hx).append (hanswer.2 x hx) fun h hbehind =>
      h.2 hbehind).mono ?_
  exact fun h => h.elim (·.1) (·.mono hle)

/-- A task that is started and then updated. -/
theorem start_thrifty {started : List Entry}
    (hstart : started = [] ∨ started = [.called id .start, .returned id])
    (hupdate : (Job.update id : Job E (Stock E A)).Thrifty a news) :
    (Job.turn id false : Job E (Stock E A)).Thrifty a (started ++ news) := by
  -- The start adds itself to the doings of the task and nothing to those of the
  -- others.
  have hown : (doings id started).Sublist [.start] := by
    rcases hstart with rfl | rfl
    · exact List.nil_sublist _
    · rw [doings_cons_own rfl]
      exact List.Sublist.refl _
  have hother : ∀ x, x ≠ id → doings x started = [] := by
    intro x hx
    rcases hstart with rfl | rfl
    · rfl
    · rw [doings_cons_other rfl hx]
      rfl
  refine ⟨?_, fun x hx => ?_⟩
  · rw [doings_append]
    exact hown.append hupdate.1
  · rw [doings_append, hother x hx, List.nil_append]
    exact (hupdate.2 x hx).mono .inl

/-- A task whose guard is asked before its turn goes on. -/
theorem guarded_thrifty (hwired : Wired a) (hranked : Ranked a)
    {asked : List Entry}
    (hasked : (Job.consult id true : Job E (Stock E A)).Thrifty a asked)
    (hturn : (Job.turn id false : Job E (Stock E A)).Thrifty a news) :
    (Job.turn id true : Job E (Stock E A)).Thrifty a (asked ++ news) := by
  refine ⟨?_, fun x hx => ?_⟩
  · rw [doings_append,
      (hasked id).eq_nil fun h => Nat.lt_irrefl _ (h.index_lt hranked)]
    exact hturn.1
  · rw [doings_append]
    refine ((hasked x).append (hturn.2 x hx) fun hguards h => ?_).mono ?_
    · exact hguards.not_behind hwired hranked (h.resolve_right nofun)
    · exact fun h => h.elim (fun hguards => .inr ⟨rfl, hguards⟩) fun h =>
        .inl (h.resolve_right nofun)

/-- A guard that is asked: its own guard is, and then it has a turn. -/
theorem asked_thrifty (hwired : Wired a) (hranked : Ranked a) {guard : TaskId}
    {asked : List Entry} (hguard : a.guardOf id = some guard)
    (hasked : (Job.consult guard true : Job E (Stock E A)).Thrifty a asked)
    (hturn : (Job.drive guard false : Job E (Stock E A)).Thrifty a news) :
    ∀ x, Doable (a.Guards id x) (doings x (asked ++ news)) := by
  intro x
  rw [doings_append]
  refine ((hasked x).append (hturn x) fun hguards h => ?_).mono fun h =>
    ⟨guard, hguard, ?_⟩
  · rcases h with rfl | hbehind | ⟨hfalse, -⟩
    · exact Nat.lt_irrefl _ (hguards.index_lt hranked)
    · exact hguards.not_behind hwired hranked hbehind
    · cases hfalse
  · exact h.elim (·.beneath) beneath_of_driven

/-- A hook runs the child at a position and goes on behind it. -/
theorem drove_thrifty (hwired : Wired a) (hranked : Ranked a) {child : TaskId}
    {index : Nat} {next : Hook E (Occupant (Stock E A))}
    {left : Occupant (Stock E A)} {driven : List Entry}
    (hchild : (a.childrenOf id)[index]? = some child)
    (hdrive : (Job.drive child true : Job E (Stock E A)).Thrifty a driven)
    (hnext : (Job.perform id next left).Thrifty a news) :
    (Job.perform id (.runChild index next) left).Thrifty a
      (driven ++ news) := by
  intro n hadvances
  obtain ⟨hle, hsets, hothers⟩ := hnext (index + 1) hadvances.2
  -- The child's turn stays beneath the child, and the hook goes on behind it.
  have hlink : Leads a id child := .inl (List.mem_of_getElem? hchild)
  have hself : doings id driven = [] := (hdrive id).eq_nil fun h =>
    Nat.lt_irrefl _ (hlink.beneath_lt hranked (beneath_of_driven h))
  refine ⟨Nat.le_trans (Nat.le_succ_of_le hadvances.1) hle,
    (onlySets_of_nil hself).append hsets, fun x hx => ?_⟩
  have hpassed : Beneath a child x → ¬ a.Behind id (index + 1) x :=
    not_behind hwired hranked hchild
  -- A task beneath the child is behind the place of the child, and not behind
  -- the next one.
  rw [doings_append]
  refine (((hdrive x).mono beneath_of_driven).append (hothers x hx) fun h h' =>
      hpassed h h'.1).mono ?_
  rintro (h | ⟨h, hnot⟩)
  · exact ⟨⟨index, child, hadvances.1, hchild, h⟩,
      fun h' => hpassed h (h'.mono hle)⟩
  · exact ⟨h.mono (Nat.le_succ_of_le hadvances.1), hnot⟩

-- ================================================================ starts

/-- An empty inbox has no next report. -/
theorem nextReport_eq_none (h : a.inboxOf id = []) :
    a.nextReport id = none := by
  rw [nextReport]
  cases hslot : a.slot? id with
  | none => rfl
  | some s =>
      rw [inboxOf, hslot] at h
      exact congrArg List.head? h

variable [Deed E A]

/-- A plain hook leaves no entries, and nothing to answer. By induction along
the hook: it looks, writes and draws, and none of this is an entry. -/
theorem Run.plain {hook : Hook E (Occupant (Stock E A))}
    {left : Occupant (Stock E A)} (h : Run a₀ (.perform id hook left) a news a')
    (hplain : hook.Plain) :
    news = [] ∧ a'.inboxOf id = a.inboxOf id := by
  induction hook generalizing a with
  | done occupant =>
      cases h
      exact ⟨rfl, rfl⟩
  | report | runChild => exact hplain.elim
  | look next ih =>
      cases h with
      | looked view hnext => exact ih view hnext (hplain view)
  | write board next ih =>
      cases h with
      | wrote hnext =>
          have hrest := ih hnext hplain
          exact hrest
  | draw next ih =>
      cases h with
      | drew hnext =>
          have hrest := ih _ hnext (hplain _)
          exact hrest

/-- Whoever is started does nothing else. -/
theorem Run.start_brief (h : Run a₀ (.attend id .start) a news a') :
    news = [] ∨ news = [.called id .start, .returned id] := by
  cases h with
  | skipped => exact .inl rfl
  -- The start of a stock task runs no child, so there is nothing to answer
  -- afterwards.
  | called _ hinbox hhook hanswer =>
      obtain ⟨rfl, hkept⟩ := hhook.plain (Occupant.plain_start _)
      have hvacated : Keeps Slot.inbox a (a.vacate id) :=
        keeps_vacate _ _ fun _ _ => rfl
      have hempty : (a.vacate id).inboxOf id = [] :=
        (congrArg (fun inbox : Option (List Report) => inbox.getD [])
            (hvacated id)).trans hinbox
      cases hanswer with
      | rested => exact .inr rfl
      | answered _ hnext =>
          exact nomatch (nextReport_eq_none (hkept.trans hempty)).symm.trans
            hnext

-- ================================================================== runs

/-- A call to update a task. -/
theorem update_thrifty {hook : Hook E (Occupant (Stock E A))}
    {left : Occupant (Stock E A)} {answers : List Entry}
      (h : Run a₀ (.attend id .update) a
        (.called id .update :: (news ++ .returned id :: answers)) a')
    (hranked : Ranked a₀) (hhook : (Job.perform id hook left).Thrifty a₀ news)
    (hadvances : hook.Advances Occupant.next 0)
    (hanswer : (Job.answer id left).Thrifty a₀ answers) :
    (Job.attend id .update).Thrifty a₀
      (.called id .update :: (news ++ .returned id :: answers)) := by
  obtain ⟨hsets, hothers⟩ := hook_thrifty hhook hadvances hanswer
  have hbegun : .turnBegan id
      ∉ Entry.called id .update :: (news ++ .returned id :: answers) :=
    fun hmem => Nat.lt_irrefl _ ((h.within hranked _ hmem).1 id rfl)
  -- That the status is set once is not in the hooks but in the slot's count of
  -- reports.
  have honce := h.tale.once id hbegun
  rw [List.countP_cons_of_neg Bool.false_ne_true] at honce
  refine ⟨?_, fun x hx => ?_⟩
  · rw [doings_cons_own rfl]
    exact (hsets.sublist (by omega)).cons_cons _
  · rw [doings_cons_other rfl hx]
    exact hothers x hx

/-- No task goes through more in a job than fits into one step. By induction
over the run. The index of a task only goes up, so a child is driven once and
everything beneath it stays behind. -/
theorem Run.thrifty (hwired : Wired a₀) (hranked : Ranked a₀)
    {job : Job E (Stock E A)} (h : Run a₀ job a news a') :
    job.Thrifty a₀ news := by
  induction h with
  | idle | unguarded => exact fun x => doable_nil
  -- The turn of the task itself begins here; the others are beneath it.
  | @turned id _ _ _ _ _ _ _ _ _ ih =>
      intro x
      by_cases hx : x = id
      · subst hx
        rw [doings_cons_own rfl, doings_concat_none rfl]
        exact ⟨ih.1.cons_cons _, fun _ => .inl rfl⟩
      · rw [doings_cons_other rfl hx, doings_concat_none rfl]
        exact (ih.2 x hx).mono .inr
  | resumed _ _ ih => exact ⟨ih.1.cons _, fun x hx => (ih.2 x hx).mono .inl⟩
  | admitted _ _ _ hstart _ ihasked _ ihupdate =>
      exact guarded_thrifty hwired hranked ihasked
        (start_thrifty hstart.start_brief ihupdate)
  | refused _ _ htells ih =>
      refine guarded_thrifty hwired hranked ih ⟨?_, fun x hx => ?_⟩
      · exact (htells.doings_sublist.cons _).cons _
      · rw [htells.doings_of_ne hx]
        exact doable_nil
  | tried _ hstart _ _ ihupdate =>
      exact start_thrifty hstart.start_brief ihupdate
  | updated _ _ ih => exact ih
  | silent _ _ ih =>
      refine ⟨?_, fun x hx => ?_⟩
      · rw [doings_concat_none rfl]
        exact ih.1
      · rw [doings_concat_none rfl]
        exact ih.2 x hx
  | overruled hguard _ ih =>
      exact fun x => (ih x).mono fun h => ⟨_, hguard, h.beneath⟩
  | asked hguard _ _ _ ihasked ihturn =>
      exact asked_thrifty hwired hranked hguard ihasked ihturn
  | unsettled hguard _ _ ihasked ihturn =>
      intro x
      rw [← List.append_assoc, doings_concat_none rfl]
      exact asked_thrifty hwired hranked hguard ihasked ihturn x
  | @called _ call _ _ _ _ _ _ _ hfault hinbox hhook hanswer ihhook ihanswer =>
      have h := Run.called hfault hinbox hhook hanswer
      cases call with
      | start => exact h.start_brief
      | update =>
          exact update_thrifty h hranked ihhook
            (Occupant.advances_update _) ihanswer
      | respond => trivial
  | @skipped _ call =>
      cases call with
      | start => exact .inl rfl
      | update => exact ⟨List.nil_sublist _, fun _ _ => doable_nil⟩
      | respond => trivial
  | rested => exact ⟨onlySets_of_nil rfl, fun _ _ => doable_nil⟩
  | answered _ _ _ _ ihhook ihanswer =>
      obtain ⟨hsets, hothers⟩ :=
        hook_thrifty ihhook (Occupant.advances_respond _ _ _) ihanswer
      refine ⟨?_, fun x hx => ?_⟩
      · rw [OnlySets, doings_cons_none rfl]
        exact hsets
      · rw [doings_cons_none rfl]
        exact hothers x hx
  -- A hook that is done leaves the index at its place.
  | done => exact fun n hle => ⟨hle, onlySets_of_nil rfl, fun _ _ => doable_nil⟩
  | told htells _ ih =>
      intro n hadvances
      obtain ⟨hle, hsets, hothers⟩ := ih n hadvances
      refine ⟨hle, htells.onlySets.append hsets, fun x hx => ?_⟩
      rw [doings_append, htells.doings_of_ne hx]
      exact hothers x hx
  | drove hchild _ _ ihdrive ihnext =>
      exact drove_thrifty hwired hranked hchild ihdrive ihnext
  | missed _ ih =>
      intro n hadvances
      obtain ⟨hle, hsets, hothers⟩ := ih _ hadvances.2
      have hn := Nat.le_succ_of_le hadvances.1
      refine ⟨Nat.le_trans hn hle, ?_, fun x hx => ?_⟩
      · rw [OnlySets, doings_cons_none rfl]
        exact hsets
      · rw [doings_cons_none rfl]
        exact (hothers x hx).mono fun h => ⟨h.1.mono hn, h.2⟩
  -- A look, a write and a draw go on with what the hook says then.
  | looked view _ ih => exact fun n hadvances => ih n (hadvances view)
  | wrote _ ih => exact ih
  | drew _ ih => exact fun n hadvances => ih n (hadvances _)

-- ================================================================ steps

omit [Deed E A] in
/-- Every status is set by another task of the tree. -/
theorem length_changes_le (honce : ∀ id, (doings id news).Sublist Doing.all)
    (htasks : ∀ id, doings id news ≠ [] → id ∈ a.tasks) :
    (news.filterMap Entry.change?).length ≤ a.count := by
  -- Every notice has its setter, and a setter sets once.
  have hcount : ∀ id,
      (news.filterMap Entry.setter?).count id
        = (doings id news).count .set := by
    intro id
    rw [count_doings_set, List.count_filterMap]
    refine List.countP_congr fun entry _ => ?_
    cases entry <;> simp [Entry.setter?, Entry.sets]
  have hnodup : (news.filterMap Entry.setter?).Nodup := by
    refine List.nodup_iff_count_le_one.2 fun id => ?_
    rw [hcount]
    exact (honce id).count_le .set
  have hsub : news.filterMap Entry.setter? ⊆ a.tasks := by
    intro id hid
    refine htasks id fun hnone => ?_
    have hpos := List.count_pos_iff.2 hid
    rw [hcount, hnone] at hpos
    exact absurd hpos (Nat.lt_irrefl _)
  have hlength : (news.filterMap Entry.change?).length
      = (news.filterMap Entry.setter?).length := by
    rw [List.length_filterMap_eq_countP, List.length_filterMap_eq_countP]
    refine List.countP_congr fun entry _ => ?_
    cases entry <;> exact Iff.rfl
  rw [hlength]
  refine Nat.le_trans (hnodup.subperm hsub).length_le (Nat.le_of_eq ?_)
  rw [tasks, List.length_map, List.length_range, count]

/-- What a step that writes the entries `during` is content with. -/
structure Frugal (a : Arena E (Stock E A)) (during : List Entry) : Prop where
  /-- A task has one turn at most, and in it one start, one update and one
  status, in this order. -/
  once : ∀ id, (doings id during).Sublist Doing.all
  /-- When a task has set its status, nothing more happens to it, and so
  nobody starts it anew. -/
  afterwards : ∀ before id name previous status after,
    during = before ++ .statusSet id name previous status :: after →
      doings id after = []
  /-- Listeners are told of every status that is set, and of nothing else. -/
  told : during.filterMap Entry.notice?
    = (during.filterMap Entry.change?).flatMap fun notice =>
      a.listeners.map fun who => (who, notice)
  /-- And these are not more than there are tasks. -/
  few : (during.filterMap Entry.change?).length ≤ a.count

/-- Whatever happened to a tree of stock tasks, every step of it comes to its
end, and does what a step may do at most once. -/
theorem History.frugal {fine : Bool} (h : History fine a) (delta : Float32) :
    ∃ result a' during, Settles (fun b => Arena.step b delta a) (result, a')
      ∧ a'.entries = a.entries ++ during ∧ Frugal a during := by
  -- Without a root nothing happens.
  rcases h.grows with hbare | ⟨live, hbears, -⟩
  · refine ⟨.error .noRoot, a, [], ?_, (List.append_nil _).symm,
      fun _ => List.nil_sublist _, fun before _ _ _ _ _ heq => ?_, rfl,
      Nat.zero_le _⟩
    · simp only [Arena.step, hbare.root]
      exact Settles.const _
    · cases before <;> cases heq
  · obtain ⟨a', hsettles, -⟩ := Direct.step_bears hbears delta
    -- The direct evaluation shows that the step comes to its end, and within
    -- any budget that is enough for it there is a run.
    have hends := hsettles
    obtain ⟨budget, henough⟩ := hends
    obtain ⟨news, a₁, tail, hrun, hentries, htail, -⟩ :=
      step_tale h.ready h.ranked hbears.root (henough budget (Nat.le_refl _))
    have hbegun : Direct.Holds (a.begun live.id delta) .root live :=
      hbears.holds.frame fun _ _ => rfl
    have hready : Ready (a.begun live.id delta) := h.ready.congr rfl rfl rfl
    have hdoable := hrun.thrifty hready.wired (h.ranked.begun live.id delta)
    have hduring : ∀ x,
        doings x (.stepBegan live.id delta :: (news ++ tail))
          = doings x news := by
      intro x
      have hnone : doings x tail = [] := by
        refine doings_eq_nil fun entry hentry doing => ?_
        obtain ⟨fault, rfl⟩ := htail entry hentry
        exact (Option.some_ne_none _).symm
      rw [doings_cons_none rfl, doings_append, hnone, List.append_nil]
    have honce : ∀ x,
        (doings x (.stepBegan live.id delta :: (news ++ tail))).Sublist
          Doing.all := by
      intro x
      rw [hduring]
      exact (hdoable x).1
    refine ⟨_, a', _, hsettles, hentries, honce,
      fun before id name previous status after heq =>
        doings_over (honce id) heq,
      ?_, length_changes_le honce fun x hx => ?_⟩
    · exact hrun.tale.told_during live.id delta htail
    · rw [hduring] at hx
      obtain ⟨sub, hsub, rfl⟩ :=
        (beneath_of_driven ((hdoable x).2 hx)).part hbegun
      exact hbears.mem_tasks hsub

/-- A loop around a child that is done at once, behind a guard. -/
def stubborn : Blueprint (Stock Nat Patience) :=
  .node .untilFail (some (.single .success)) [.single .success]

/-- The loop goes on, and its child is not started again in the same
step. -/
theorem frugal_stubborn :
    ∃ a', step 12 0 (ofBlueprint stubborn 0 fun roll => roll)
      = some (.ok .running, a')
      ∧ ∃ during, a'.entries
        = (ofBlueprint stubborn 0 fun roll => roll).entries ++ during
        ∧ (during.filterMap Entry.setter?) = [⟨2⟩, ⟨3⟩, ⟨1⟩]
        ∧ doings ⟨3⟩ during = Doing.all
        ∧ Frugal (ofBlueprint stubborn 0 fun roll => roll) during := by
  have hhistory : History true (ofBlueprint stubborn 0 fun roll => roll) :=
    (History.empty 0 fun roll => roll).setRoot rfl
  have hrun : (step 12 0 (ofBlueprint stubborn 0 fun roll => roll)).map
      (fun r => (r.1.toOption,
      r.2.entries.filterMap Entry.setter?, doings ⟨3⟩ r.2.entries))
        = some (some .running, [⟨2⟩, ⟨3⟩, ⟨1⟩], Doing.all) := by decide +kernel
  have hbefore : (ofBlueprint stubborn 0 fun roll => roll).entries.filterMap
      Entry.setter? = []
      ∧ doings ⟨3⟩ (ofBlueprint stubborn 0 fun roll => roll).entries = [] := by
    decide +kernel
  obtain ⟨⟨result, a'⟩, hstep, hshown⟩ := Option.map_eq_some_iff.1 hrun
  simp only [Prod.mk.injEq] at hshown
  obtain ⟨hresult, hsetters, hdoings⟩ := hshown
  cases result with
  | error fault => cases hresult
  | ok status =>
      cases hresult
      obtain ⟨result, a₁, during, hsettles, hentries, hfrugal⟩ :=
        History.frugal hhistory 0
      obtain ⟨-, rfl⟩ := Prod.mk.inj ((step_settles hstep).unique hsettles)
      rw [hentries, List.filterMap_append, hbefore.1,
        List.nil_append] at hsetters
      rw [hentries, doings_append, hbefore.2, List.nil_append] at hdoings
      exact ⟨_, hstep, during, hentries, hsetters, hdoings, hfrugal⟩

end Arena

end TaskTree
