/-
Who has a part in a step, and where everybody stands meanwhile.

A task has a part in the entries of its own turns, calls and reports, and in
nothing else. Links lead to later slots, so those who have a part in what a
task does stand behind it (`Run.partsFrom`). The entries of a run also tell
where everybody stands after it (`Run.stands`), how a task that has its turn
is called (`Run.enter_hooked`), and, as long as no fault is found, that the
tree hears of the reports of its root and of no others (`Run.settled`).
-/
import TaskTree.Proofs.Arena.Changes
import TaskTree.Proofs.Arena.Turns

namespace TaskTree

/-- Who has a part in an entry. -/
def Entry.part? : Entry → Option TaskId
  | .turnBegan id | .turnEnded id | .called id _ | .returned id | .reported id _
  | .statusSet id _ _ _ => some id
  | _ => none

/-- The call with which a task is started or updated. Its answers are left
out. -/
def Entry.hooked? (id : TaskId) : Entry → Option Call
  | .called task .start => if task = id then some .start else none
  | .called task .update => if task = id then some .update else none
  | _ => none

/-- The status that an entry gives a task. -/
def Entry.given? (id : TaskId) : Entry → Option Status
  | .statusSet task _ _ status => if task = id then some status else none
  | _ => none

/-- The status that a task reports. -/
def Entry.reported? (id : TaskId) : Entry → Option Status
  | .reported task outcome => if task = id then some outcome.status else none
  | _ => none

namespace Arena

variable {E T : Type}

/-- How a task is started and updated. -/
def hooked (id : TaskId) (news : List Entry) : List Call :=
  news.filterMap (Entry.hooked? id)

/-- The statuses that a task is given. -/
def given (id : TaskId) (news : List Entry) : List Status :=
  news.filterMap (Entry.given? id)

/-- A task has no part in what happens. -/
def Absent (id : TaskId) (news : List Entry) : Prop :=
  ∀ entry ∈ news, entry.part? ≠ some id

variable {a₀ a a₁ a' : Arena E T} {news later : List Entry} {id : TaskId}

-- =========================================================== whose part

/-- Where nothing happens nobody has a part. -/
theorem absent_nil (id : TaskId) : Absent id [] := fun _ h => nomatch h

/-- Absent from both parts is absent from the whole. -/
theorem absent_append :
    Absent id (news ++ later) ↔ Absent id news ∧ Absent id later :=
  List.forall_mem_append

/-- Absent from an entry and from what follows it. -/
theorem absent_cons {entry : Entry} :
    Absent id (entry :: news) ↔ entry.part? ≠ some id ∧ Absent id news :=
  List.forall_mem_cons

/-- How a task is called, in two parts. -/
theorem hooked_append (id : TaskId) (news later : List Entry) :
    hooked id (news ++ later) = hooked id news ++ hooked id later :=
  List.filterMap_append ..

/-- In a report it is the task who has a part, and the guard evaluator. -/
theorem Tells.absent {outcome : Outcome} (h : Tells a₀ a id outcome news a')
    {x : TaskId} (hx : x ≠ id) (hne : x ≠ .evaluator) : Absent x news := by
  intro entry hentry hpart
  cases h.ofReport entry hentry with
  | reported | set => exact hx (Option.some.inj hpart).symm
  | second | told => cases hpart
  | aside haside =>
      cases haside with
      | settled => cases hpart
      | called | returned => exact hne (Option.some.inj hpart).symm

/-- Those who have a part stand from the slot `n` on, apart from the guard
evaluator. -/
def PartsFrom (n : Nat) (news : List Entry) : Prop :=
  ∀ entry ∈ news, ∀ x, entry.part? = some x → x = .evaluator ∨ n ≤ x.index

/-- Where nothing happens nobody has a part. -/
theorem partsFrom_nil (n : Nat) : PartsFrom n [] := fun _ h => nomatch h

/-- Those who have a part in one of two have it in both together. -/
theorem PartsFrom.append {n : Nat} (h : PartsFrom n news)
    (h' : PartsFrom n later) :
    PartsFrom n (news ++ later) := List.forall_mem_append.2 ⟨h, h'⟩

/-- Who stands from a later slot on stands from an earlier one on. -/
theorem PartsFrom.mono {m n : Nat} (h : PartsFrom n news) (hle : m ≤ n) :
    PartsFrom m news :=
  fun entry hentry x hx => (h entry hentry x hx).imp_right (Nat.le_trans hle)

/-- An entry more, in which nobody else has a part. -/
theorem PartsFrom.cons {n : Nat} {entry : Entry} (h : PartsFrom n news)
    (hentry : ∀ x, entry.part? = some x → n ≤ x.index) :
    PartsFrom n (entry :: news) :=
  List.forall_mem_cons.2 ⟨fun x hx => .inr (hentry x hx), h⟩

/-- An entry more of a task that stands far enough. -/
theorem PartsFrom.own {n : Nat} {entry : Entry} (h : PartsFrom n news)
    (hentry : entry.part? = some id) (hle : n ≤ id.index) :
    PartsFrom n (entry :: news) :=
  h.cons fun _ hx => Option.some.inj (hentry.symm.trans hx) ▸ hle

/-- Who stands before all of them has no part. -/
theorem PartsFrom.absent {n : Nat} (h : PartsFrom n news)
    (hne : id ≠ .evaluator) (hlt : id.index < n) : Absent id news :=
  fun entry hentry hpart =>
    Nat.not_le_of_lt hlt ((h entry hentry id hpart).resolve_left hne)

/-- In a report the task itself has a part, and the guard evaluator. -/
theorem Tells.partsFrom {outcome : Outcome}
    (h : Tells a₀ a id outcome news a') :
    PartsFrom id.index news := by
  intro entry hentry x hx
  by_cases hne : x = .evaluator
  · exact .inl hne
  · by_cases hid : x = id
    · exact .inr (hid ▸ Nat.le_refl _)
    · exact absurd hx (h.absent hid hne entry hentry)

-- ====================================================== where they stand

/-- The status that a task comes to is the last one that it is given. By
induction on the entries; only a status that is set for this task is anything to
it. -/
theorem foldl_stands (id : TaskId) (news : List Entry) (status : Status) :
    news.foldl (Entry.stands id) status = (given id news).getLastD status := by
  induction news generalizing status with
  | nil => rfl
  | cons entry news ih =>
      rw [List.foldl_cons, ih]
      cases entry with
      | statusSet task name previous current =>
          by_cases htask : task = id
          · have hgiven : given id
                (.statusSet task name previous current :: news)
                = current :: given id news :=
              List.filterMap_cons_some (if_pos htask)
            rw [hgiven, Entry.stands, if_pos htask, List.getLastD_cons]
          · have hgiven : given id
                (.statusSet task name previous current :: news)
                = given id news := List.filterMap_cons_none (if_neg htask)
            rw [hgiven, Entry.stands, if_neg htask]
      | _ => rfl

/-- A task is given as many statuses as are set for it. -/
theorem length_given (id : TaskId) (news : List Entry) :
    (given id news).length = news.countP (Entry.sets id) := by
  rw [given, List.length_filterMap_eq_countP]
  refine List.countP_congr fun entry _ => ?_
  cases entry with
  | statusSet task =>
      by_cases htask : task = id <;> simp [Entry.given?, Entry.sets, htask]
  | _ => exact Iff.rfl

/-- A report is the news of where its task stands. -/
theorem Tells.stands {outcome : Outcome} (h : Tells a₀ a id outcome news a')
    (x : TaskId) :
    a'.statusOf x = news.foldl (Entry.stands x) (a.statusOf x) := by
  cases h with
  | unheard => rfl
  | again =>
      exact (keeps_countReport a id outcome fun _ _ =>
          rfl : Keeps Slot.status _ _).statusOf x
  -- What was done aside sets no status, and of the tidings only one entry does,
  -- for the task that reports.
  | @first aside _ _ _ haside _ _ _ _ hstatuses =>
      have hquiet : ∀ status, aside.foldl (Entry.stands x) status = status := by
        refine foldl_eq_self fun entry hentry _ => ?_
        cases haside entry hentry <;> rfl
      rw [hstatuses, List.foldl_append, hquiet,
        foldl_tidings (fun _ _ _ => rfl)]
      by_cases hx : x = id
      · rw [if_pos hx]
        exact (if_pos hx.symm).symm
      · rw [if_neg hx]
        exact (if_neg fun heq => hx heq.symm).symm

variable [Behavior E T]

omit [Behavior E T] in
/-- The beginning of a turn sets no status. -/
theorem Begun.statusOf {b : Arena E T} (h : Begun a id b) (x : TaskId) :
    b.statusOf x = a.statusOf x := by
  cases h with
  | resumed =>
      exact (keeps_beginTurn a id fun _ _ =>
          rfl : Keeps Slot.status _ _).statusOf x
  | entered control =>
      exact ((keeps_beginTurn a id fun _ _ => rfl : Keeps Slot.status _ _).trans
        (keeps_setControl _ id control fun _ _ => rfl)).statusOf x

/-- The entries of a run tell where everybody stands after it. By induction on
the run. Each case is the entries in their order, with the statuses that the
parts of the run have by induction. -/
theorem Run.stands {job : Job E T} (h : Run a₀ job a news a') (x : TaskId) :
    a'.statusOf x = news.foldl (Entry.stands x) (a.statusOf x) := by
  induction h with
  | idle | skipped | unguarded | done => rfl
  | turned _ _ hbegun _ ih =>
      rw [List.foldl_cons, List.foldl_append, ← hbegun.statusOf]
      exact ih
  | resumed _ _ ih | updated _ _ ih | overruled _ _ ih
  | looked _ _ ih => exact ih
  | admitted _ _ _ _ _ hasked hstart hupdate =>
      rw [List.foldl_append, List.foldl_append, ← hasked, ← hstart]
      exact hupdate
  | refused _ _ htells hasked =>
      rw [List.foldl_append, ← hasked]
      exact htells.stands x
  | tried _ _ _ hstart hupdate =>
      rw [List.foldl_append, ← hstart]
      exact hupdate
  | silent _ _ ih =>
      rw [List.foldl_append, ← ih]
      rfl
  | asked _ _ _ _ hasked hturn =>
      rw [List.foldl_append, ← hasked]
      exact hturn
  | unsettled _ _ _ hasked hturn =>
      rw [List.foldl_append, List.foldl_append, ← hasked, ← hturn]
      rfl
  | @called id call _ _ a _ _ _ _ _ _ _ _ hhook hanswer =>
      have hvacated : (a.vacate id).statusOf x = a.statusOf x :=
        (keeps_vacate a id fun _ _ => rfl : Keeps Slot.status _ _).statusOf x
      rw [List.foldl_cons, List.foldl_append, List.foldl_cons]
      refine hanswer.trans (congrArg (List.foldl _ · _) (hhook.trans ?_))
      exact congrArg (List.foldl _ · _) hvacated
  | @answered id _ _ _ a _ _ _ _ _ _ _ _ hhook hanswer =>
      have htaken : (a.taken id).statusOf x = a.statusOf x :=
        (keeps_taken a id fun _ _ => rfl : Keeps Slot.status _ _).statusOf x
      rw [List.foldl_cons, List.foldl_append, List.foldl_cons]
      refine hanswer.trans (congrArg (List.foldl _ · _) (hhook.trans ?_))
      exact congrArg (List.foldl _ · _) htaken
  | @rested id occupant a =>
      exact (keeps_rest a id occupant fun _ _ _ =>
          rfl : Keeps Slot.status _ _).statusOf x
  | told htells _ ih =>
      rw [List.foldl_append, ← htells.stands]
      exact ih
  | drove _ _ _ hdrive hnext =>
      rw [List.foldl_append, ← hdrive]
      exact hnext
  | missed _ ih | wrote _ ih | drew _ ih => exact ih

omit [Behavior E T] in
/-- Where no fault is found, there was none. -/
theorem Tale.clear (h : Tale a₀ a news a') (hfault : a'.fault = none) :
    a.fault = none ∧ ∀ fault, .raised fault ∉ news := by
  have hor := h.fault.symm.trans hfault
  rw [Option.or_eq_none_iff, findSome?_raises_eq_none] at hor
  exact hor

/-- A run that leaves no fault has found none, and had none before. -/
theorem Run.clear {job : Job E T} (h : Run a₀ job a news a')
    (hfault : a'.fault = none) :
    a.fault = none ∧ ∀ fault, .raised fault ∉ news := h.tale.clear hfault

/-- From where those stand who have a part in a job. When the guards of a task
are asked, the task itself has none. -/
def Job.least : Job E T → Nat
  | .consult id _ => id.index + 1
  | job => job.task.index

/-- Whoever has a part in a job stands where the job's task stands, or further
on: children and guards come later than the task that they belong to. -/
theorem Run.partsFrom (hranked : Ranked a₀) {job : Job E T}
    (h : Run a₀ job a news a') :
    PartsFrom job.least news := by
  induction h with
  | idle | skipped | unguarded | rested | done => exact partsFrom_nil _
  | turned _ _ _ _ ih =>
      exact (ih.append ((partsFrom_nil _).own rfl (Nat.le_refl _))).own rfl
        (Nat.le_refl _)
  | resumed _ _ ih | updated _ _ ih | looked _ _ ih | wrote _ ih
  | drew _ ih => exact ih
  | admitted _ _ _ _ _ hasked hstart hupdate =>
      exact (hasked.mono (Nat.le_succ _)).append (hstart.append hupdate)
  | refused _ _ htells hasked =>
      exact (hasked.mono (Nat.le_succ _)).append htells.partsFrom
  | tried _ _ _ hstart hupdate => exact hstart.append hupdate
  | silent _ _ ih => exact ih.append ((partsFrom_nil _).cons nofun)
  -- A guard is asked before its task has a part, so that the entries of the
  -- guard stand one further on.
  | overruled hguard _ ih =>
      exact ih.mono (Nat.le_succ_of_le (hranked.guard _ _ hguard))
  | asked hguard _ _ _ hasked hturn =>
      have hlt := hranked.guard _ _ hguard
      exact (hasked.mono (Nat.le_succ_of_le hlt)).append (hturn.mono hlt)
  | unsettled hguard _ _ hasked hturn =>
      have hlt := hranked.guard _ _ hguard
      exact (hasked.mono (Nat.le_succ_of_le hlt)).append
        ((hturn.mono hlt).append ((partsFrom_nil _).cons nofun))
  | called _ _ _ _ hhook hanswer | answered _ _ _ _ hhook hanswer =>
      exact (hhook.append (hanswer.own rfl (Nat.le_refl _))).own rfl
        (Nat.le_refl _)
  | told htells _ ih => exact htells.partsFrom.append ih
  | drove hchild _ _ hdrive hnext =>
      have hlt := hranked.child _ _ (List.mem_of_getElem? hchild)
      exact (hdrive.mono (Nat.le_of_lt hlt)).append hnext
  | missed _ ih => exact ih.cons nofun

/-- Whose turn a job belongs to. -/
def Job.own? : Job E T → Option TaskId
  | .drive _ _ | .consult _ _ => none
  | .turn id _ | .update id | .attend id _ | .answer id _
  | .perform id _ _ => some id

/-- Nobody has a part in anything outside of a turn of its own. By induction on
the run. The turn is the one case in which a task begins to have a part, and
that is excluded; in every other job the task is the one at work or one that is
asked or driven by it. -/
theorem Run.absent {job : Job E T} (h : Run a₀ job a news a') {x : TaskId}
    (hx : x ≠ .evaluator) (hjob : job.own? ≠ some x)
    (hbegun : .turnBegan x ∉ news) : Absent x news := by
  have hpart : ∀ {entry : Entry} {id : TaskId}, entry.part? = some id →
      some id ≠ some x →
      entry.part? ≠ some x := fun hpart hid heq => hid (hpart.symm.trans heq)
  have hne : ∀ {id : TaskId}, some id ≠ some x → x ≠ id :=
    fun hid heq => hid (congrArg some heq.symm)
  have hnone : ∀ {entry : Entry}, entry.part? = none →
      entry.part? ≠ some x := by
    intro entry hentry heq
    rw [hentry] at heq
    cases heq
  induction h with
  | idle | skipped | unguarded | rested | done => exact absent_nil x
  | @turned id _ _ _ _ _ _ _ _ _ ih =>
      obtain ⟨hhead, hrest⟩ := not_or.1 (mt List.mem_cons.2 hbegun)
      have hid : some id ≠ some x :=
        fun heq => hhead (Option.some.inj heq ▸ rfl)
      refine absent_cons.2 ⟨hpart rfl hid, absent_append.2 ⟨ih hid ?_, ?_⟩⟩
      · exact fun hmem => hrest (List.mem_append_left _ hmem)
      · exact absent_cons.2 ⟨hpart rfl hid, absent_nil x⟩
  | resumed _ _ ih | updated _ _ ih | looked _ _ ih | wrote _ ih
  | drew _ ih => exact ih hjob hbegun
  | overruled _ _ ih => exact ih (Option.some_ne_none x).symm hbegun
  | admitted _ _ _ _ _ hasked hstart hupdate =>
      obtain ⟨hbefore, hrest⟩ := not_or.1 (mt List.mem_append.2 hbegun)
      obtain ⟨hbetween, hafter⟩ := not_or.1 (mt List.mem_append.2 hrest)
      exact absent_append.2 ⟨hasked (Option.some_ne_none x).symm hbefore,
        absent_append.2 ⟨hstart hjob hbetween, hupdate hjob hafter⟩⟩
  | refused _ _ htells hasked =>
      obtain ⟨hbefore, -⟩ := not_or.1 (mt List.mem_append.2 hbegun)
      exact absent_append.2 ⟨hasked (Option.some_ne_none x).symm hbefore,
        htells.absent (hne hjob) hx⟩
  | tried _ _ _ hstart hupdate =>
      obtain ⟨hbefore, hafter⟩ := not_or.1 (mt List.mem_append.2 hbegun)
      exact absent_append.2 ⟨hstart hjob hbefore, hupdate hjob hafter⟩
  | silent _ _ ih =>
      obtain ⟨hbefore, -⟩ := not_or.1 (mt List.mem_append.2 hbegun)
      exact absent_append.2
        ⟨ih hjob hbefore, absent_cons.2 ⟨hnone rfl, absent_nil x⟩⟩
  | asked _ _ _ _ hasked hturn =>
      obtain ⟨hbefore, hafter⟩ := not_or.1 (mt List.mem_append.2 hbegun)
      exact absent_append.2 ⟨hasked (Option.some_ne_none x).symm hbefore,
        hturn (Option.some_ne_none x).symm hafter⟩
  | unsettled _ _ _ hasked hturn =>
      obtain ⟨hbefore, hrest⟩ := not_or.1 (mt List.mem_append.2 hbegun)
      obtain ⟨hbetween, -⟩ := not_or.1 (mt List.mem_append.2 hrest)
      exact absent_append.2 ⟨hasked (Option.some_ne_none x).symm hbefore,
        absent_append.2 ⟨hturn (Option.some_ne_none x).symm hbetween,
          absent_cons.2 ⟨hnone rfl, absent_nil x⟩⟩⟩
  | called _ _ _ _ hhook hanswer | answered _ _ _ _ hhook hanswer =>
      obtain ⟨-, hrest⟩ := not_or.1 (mt List.mem_cons.2 hbegun)
      obtain ⟨hbefore, hrest⟩ := not_or.1 (mt List.mem_append.2 hrest)
      obtain ⟨-, hafter⟩ := not_or.1 (mt List.mem_cons.2 hrest)
      exact absent_cons.2 ⟨hpart rfl hjob, absent_append.2 ⟨hhook hjob hbefore,
        absent_cons.2 ⟨hpart rfl hjob, hanswer hjob hafter⟩⟩⟩
  | told htells _ ih =>
      obtain ⟨-, hafter⟩ := not_or.1 (mt List.mem_append.2 hbegun)
      exact absent_append.2 ⟨htells.absent (hne hjob) hx, ih hjob hafter⟩
  | drove _ _ _ hdrive hnext =>
      obtain ⟨hbefore, hafter⟩ := not_or.1 (mt List.mem_append.2 hbegun)
      exact absent_append.2
        ⟨hdrive (Option.some_ne_none x).symm hbefore, hnext hjob hafter⟩
  | missed _ ih =>
      obtain ⟨-, hrest⟩ := not_or.1 (mt List.mem_cons.2 hbegun)
      exact absent_cons.2 ⟨hnone rfl, ih hjob hrest⟩

-- ============================================================== the hooks

/-- A task that is in the middle of a hook, or about to answer, is neither
started nor updated. -/
def Job.Answers : Job E T → List Entry → Prop
  | .answer id _, news
  | .perform id _ _, news => id ≠ .evaluator → hooked id news = []
  | _, _ => True

/-- While a task is in the middle of a hook, or answers, it is neither started
nor updated. -/
theorem Run.answers (hranked : Ranked a₀) {job : Job E T}
    (h : Run a₀ job a news a') :
    job.Answers news := by
  induction h with
  | rested | done => exact fun _ => rfl
  | @answered id _ _ report _ _ _ _ _ _ _ _ _ hhook hanswer =>
      -- A call to respond is neither of the two.
      intro hid
      have hsplit : ∀ news later : List Entry, hooked id
          (.called id (.respond report.outcome report.child)
            :: (news ++ .returned id :: later))
            = hooked id news ++ hooked id later := fun _ _ => hooked_append ..
      rw [hsplit, hhook hid, hanswer hid]
      rfl
  | @told id _ _ _ _ _ _ _ _ htells _ ih =>
      intro hid
      rw [hooked_append, ih hid, List.append_nil]
      -- A report makes no call but to respond.
      refine List.filterMap_eq_nil_iff.2 fun entry hentry => ?_
      cases htells.ofReport entry hentry with
      | aside haside => cases haside <;> rfl
      | reported | second | set | told => rfl
  | @drove id child _ _ _ _ _ _ driven _ hchild hdrive _ _ ih =>
      intro hid
      rw [hooked_append, ih hid, List.append_nil]
      -- The child that is driven stands further on, so nothing in its run is a
      -- call of the task itself.
      refine List.filterMap_eq_nil_iff.2 fun entry hentry => ?_
      have hlt := hranked.child _ _ (List.mem_of_getElem? hchild)
      have habove := (hdrive.within hranked entry hentry).2
      have hne : ∀ call, entry ≠ .called id call := by
        rintro call rfl
        exact absurd ((habove id rfl).resolve_left hid) (Nat.not_le_of_lt hlt)
      cases entry with
      | called task call =>
          have htask : task ≠ id := fun heq => hne call (heq ▸ rfl)
          cases call with
          | respond => rfl
          | start | update => exact if_neg htask
      | _ => rfl
  | missed _ ih | looked _ _ ih | wrote _ ih | drew _ ih => exact ih
  | _ => trivial

/-- A task that is called is called once. -/
theorem Run.attend_hooked (hranked : Ranked a₀) {call : Call}
    (h : Run a₀ (.attend id call) a news a') (hid : id ≠ .evaluator)
    (hcall : call = .start ∨ call = .update) (hfault : a.fault = none) :
    hooked id news = [call] := by
  cases h with
  | skipped hpending => exact absurd hfault hpending
  | @called _ _ _ _ _ _ _ hooking answers _ _ hhook hanswer =>
      have hone : (Entry.called id call).hooked? id = some call := by
        rcases hcall with rfl | rfl <;> exact if_pos rfl
      have hsplit : hooked id
          (.called id call :: (hooking ++ .returned id :: answers))
          = call :: (hooked id hooking ++ hooked id answers) := by
        rw [hooked, List.filterMap_cons_some hone, List.filterMap_append]
        rfl
      rw [hsplit, hhook.answers hranked hid, hanswer.answers hranked hid]
      rfl

/-- An update of a task is one call, also if the task then turns out to have
been silent. -/
theorem Run.update_hooked (hranked : Ranked a₀)
    (h : Run a₀ (.update id) a news a') (hid : id ≠ .evaluator)
    (hfault : a.fault = none) : hooked id news = [.update] := by
  cases h with
  | updated hattend => exact hattend.attend_hooked hranked hid (.inr rfl) hfault
  | silent hattend =>
      rw [hooked_append, hattend.attend_hooked hranked hid (.inr rfl) hfault]
      rfl

/-- A task that is entered is started and then updated. -/
theorem Run.enter_hooked (hranked : Ranked a₀) {started : List Entry}
    (hstart : Run a₀ (.attend id .start) a started a₁)
    (hupdate : Run a₀ (.update id) a₁ news a') (hid : id ≠ .evaluator)
    (hfault : a'.fault = none) :
    hooked id (started ++ news) = [.start, .update] := by
  have hfault₁ := (hupdate.clear hfault).1
  rw [hooked_append,
    hstart.attend_hooked hranked hid (.inl rfl) (hstart.clear hfault₁).1,
    hupdate.update_hooked hranked hid hfault₁]
  rfl

-- ======================================================== the tree's status

omit [Behavior E T] in
/-- The tree hears of the reports of its root. -/
theorem Tells.settled {outcome : Outcome} (h : Tells a₀ a id outcome news a')
    {root : TaskId} (hroot : a₀.root = some root) (hfault : a'.fault = none) :
    news.filterMap Entry.settled? = news.filterMap (Entry.reported? root) := by
  cases h with
  | unheard => rfl
  | again => exact absurd hfault (raise_fault_ne _ _)
  | @first aside _ _ _ haside _ _ _ _ _ hsettled =>
      have htidings : ∀ {f : Entry → Option Status},
          (∀ who notice, f (.told who notice) = none) →
          f (.statusSet id (a.nameOf id) (a.statusOf id) outcome.status)
            = none →
          (a.tidings id outcome).filterMap f
            = (f (.reported id outcome)).toList := by
        intro f htold hset
        have hrest : (a.listeners.map fun who =>
            Entry.told who (.status id (a.nameOf id) (a.statusOf id)
              outcome.status)).filterMap f
              = [] := by
          refine List.filterMap_eq_nil_iff.2 fun entry hentry => ?_
          obtain ⟨who, -, rfl⟩ := List.mem_map.1 hentry
          exact htold who _
        rw [tidings, List.filterMap_cons, List.filterMap_cons_none hset, hrest]
        cases f (.reported id outcome) <;> rfl
      have hquiet : aside.filterMap (Entry.reported? root) = [] := by
        refine List.filterMap_eq_nil_iff.2 fun entry hentry => ?_
        cases haside entry hentry <;> rfl
      rw [List.filterMap_append, List.filterMap_append, hsettled, hquiet, hroot,
        htidings (fun _ _ => rfl) rfl, htidings (fun _ _ => rfl) rfl,
        Entry.reported?]
      by_cases hid : id = root
      · rw [if_pos hid, if_pos (congrArg some hid.symm)]
        rfl
      · rw [if_neg hid, if_neg fun heq => hid (Option.some.inj heq).symm]
        rfl

/-- The statuses that the tree is given in a run are those that its root
reports, as long as nobody is at fault. -/
theorem Run.settled {job : Job E T} (h : Run a₀ job a news a') {root : TaskId}
    (hroot : a₀.root = some root) (hfault : a'.fault = none) :
    news.filterMap Entry.settled? = news.filterMap (Entry.reported? root) := by
  induction h with
  | idle | skipped | unguarded | rested | done => rfl
  | turned _ _ _ hturn ih =>
      rw [List.filterMap_cons_none rfl, List.filterMap_cons_none rfl,
        List.filterMap_append, List.filterMap_append, ih hfault]
      rfl
  | resumed _ _ ih | updated _ _ ih | overruled _ _ ih | looked _ _ ih
  | wrote _ ih | drew _ ih =>
      exact ih hfault
  | admitted _ _ _ hstart hupdate ihasked ihstart ihupdate =>
      have hnone := (hupdate.clear hfault).1
      simp only [List.filterMap_append, ihasked (hstart.clear hnone).1,
        ihstart hnone, ihupdate hfault]
  | refused _ _ htells ihasked =>
      simp only [List.filterMap_append, ihasked (htells.tale.clear hfault).1,
        htells.settled hroot hfault]
  | tried _ _ hupdate ihstart ihupdate =>
      simp only [List.filterMap_append, ihstart (hupdate.clear hfault).1,
        ihupdate hfault]
  | silent | unsettled => exact absurd hfault (raise_fault_ne _ _)
  | asked _ _ hturn _ ihasked ihturn =>
      simp only [List.filterMap_append, ihasked (hturn.clear hfault).1,
        ihturn hfault]
  | called _ _ _ hanswer ihhook ihanswer
  | answered _ _ _ hanswer ihhook ihanswer =>
      rw [List.filterMap_cons_none rfl, List.filterMap_cons_none rfl,
        List.filterMap_append, List.filterMap_append,
        List.filterMap_cons_none rfl, List.filterMap_cons_none rfl,
        ihhook (hanswer.clear hfault).1, ihanswer hfault]
  | told htells hnext ih =>
      simp only [List.filterMap_append,
        htells.settled hroot (hnext.clear hfault).1, ih hfault]
  | drove _ _ hnext ihdrive ihnext =>
      simp only [List.filterMap_append, ihdrive (hnext.clear hfault).1,
        ihnext hfault]
  | missed _ ih =>
      rw [List.filterMap_cons_none rfl, List.filterMap_cons_none rfl]
      exact ih hfault

-- =============================================================== steps

/-- A step that gives a status is a run in which nobody is at fault. -/
theorem step_clear {fine : Bool} (h : History fine a) {budget : Nat}
    {delta : Float32} {status : Status}
    (hstep : Arena.step budget delta a = some (.ok status, a')) :
    ∃ root news, a.root = some root
      ∧ a'.entries = a.entries ++ .stepBegan root delta :: news
      ∧ Run (a.begun root delta) (.drive root true) (a.begun root delta) news a'
      ∧ a'.fault = none := by
  cases hroot : a.root with
  | none => cases (step_rootless hroot hstep).1
  | some root =>
      obtain ⟨news, a₁, hrun, ⟨hfault, -, rfl⟩ | ⟨fault, -, hresult, -⟩⟩ :=
        step_run h.ready h.ranked hroot hstep
      · refine ⟨root, news, rfl, ?_, hrun, hfault⟩
        rw [hrun.tale.entries, entries_begun, List.append_assoc]
        rfl
      · cases hresult

end Arena

end TaskTree
