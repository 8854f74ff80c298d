/-
Reports and status transitions, counted.

A slot counts the reports that its task makes in a turn, and the count
decides what comes of a report: the first one sets the task's status, and
any other is a fault. In the journal the same can be counted from the
entries. `Tale` says that the two counts agree along every run
(`Run.tale`), and what follows for the entries themselves. As long as no
turn of a task begins it sets its status at most once, and as long as no
fault is found every report of it sets its status.
-/
import TaskTree.Proofs.Arena.Run

namespace TaskTree

/-- Whether an entry is the beginning of a task's turn. -/
def Entry.begins (id : TaskId) : Entry → Bool
  | .turnBegan task => task = id
  | _ => false

/-- Whether an entry is a report of a task. -/
def Entry.reports (id : TaskId) : Entry → Bool
  | .reported task _ => task = id
  | _ => false

/-- Whether an entry sets the status of a task. -/
def Entry.sets (id : TaskId) : Entry → Bool
  | .statusSet task _ _ _ => task = id
  | _ => false

/-- The change that the listeners are to be told of with an entry. -/
def Entry.change? : Entry → Option Notice
  | .statusSet task name previous status =>
    some (.status task name previous status)
  | _ => none

/-- The fault that an entry is. -/
def Entry.raises? : Entry → Option Fault
  | .raised fault => some fault
  | _ => none

/-- No fault is found among entries none of which raises one. -/
theorem findSome?_raises_eq_none {news : List Entry} :
    news.findSome? Entry.raises? = none
      ↔ ∀ fault, Entry.raised fault ∉ news := by
  refine ⟨fun h fault hmem => (nomatch List.findSome?_eq_none_iff.1 h _ hmem),
    fun h => ?_⟩
  refine List.findSome?_eq_none_iff.2 fun entry hentry => ?_
  cases entry with
  | raised fault => exact absurd hentry (h fault)
  | _ => rfl

/-- The first fault of a row of entries. -/
theorem findSome?_raises {before after : List Entry} {fault : Fault}
    (h : ∀ other, Entry.raised other ∉ before) :
    (before ++ .raised fault :: after).findSome? Entry.raises?
      = some fault := by
  rw [List.findSome?_append, findSome?_raises_eq_none.2 h]
  rfl

namespace Arena

variable {E T : Type}

/-- What the entries `news` tell of the reports between two arenas. -/
structure Tale (a₀ a : Arena E T) (news : List Entry)
    (a' : Arena E T) : Prop where
  /-- The journal grows by the new entries. -/
  entries : a'.entries = a.entries ++ news
  /-- The first fault that was raised is the one that stays. -/
  fault : a'.fault = a.fault.or (news.findSome? Entry.raises?)
  /-- Nobody subscribes while tasks run. -/
  listeners : a'.listeners = a.listeners
  /-- Every listener is told of every status that is set, and of nothing
  else. -/
  told : news.filterMap Entry.notice?
    = (news.filterMap Entry.change?).flatMap fun notice =>
      a.listeners.map fun who => (who, notice)
  /-- The slot counts the reports since the turn began. -/
  reports : ∀ id, .turnBegan id ∉ news →
    a'.reportsOf id = a.reportsOf id + news.countP (Entry.reports id)
  /-- Nobody reports twice without a fault. -/
  few : a'.fault = none → ∀ id, a.reportsOf id ≤ 1 → a'.reportsOf id ≤ 1
  /-- Without a fault every report sets the status. -/
  sets : a'.fault = none →
    ∀ id, news.countP (Entry.sets id) = news.countP (Entry.reports id)
  /-- In a turn the status is set once. -/
  once : ∀ id, .turnBegan id ∉ news →
    news.countP (Entry.sets id) + min 1 (a.reportsOf id)
      ≤ min 1 (a'.reportsOf id)
  /-- A report that follows another one in the same turn is a fault. -/
  second : ∀ id before outcome after, .turnBegan id ∉ before →
    news = before ++ .reported id outcome :: after →
    0 < a.reportsOf id + before.countP (Entry.reports id) →
    ∃ rest, after = .raised (.secondReport id (a₀.nameOf id)) :: rest

variable {a₀ a a₁ a' : Arena E T} {news later : List Entry}

/-- Two stretches of a run are one stretch. -/
theorem Tale.append (h : Tale a₀ a news a₁) (h' : Tale a₀ a₁ later a') :
    Tale a₀ a (news ++ later) a' := by
  -- A fault stays, so without one at the end there was none between.
  have hnone : a'.fault = none → a₁.fault = none := fun hfault =>
    (Option.or_eq_none_iff.1 (h'.fault.symm.trans hfault)).1
  refine ⟨?_, ?_, h'.listeners.trans h.listeners, ?_, fun id hid => ?_,
    fun hfault id hfew => ?_, fun hfault id => ?_, fun id hid => ?_,
    fun id before outcome after hid heq hcount => ?_⟩
  · rw [h'.entries, h.entries, List.append_assoc]
  · rw [h'.fault, h.fault, List.findSome?_append, Option.or_assoc]
  · rw [List.filterMap_append, List.filterMap_append, List.flatMap_append,
      h.told, h'.told, h.listeners]
  -- No turn of the task began in the whole, so none began in either part and
  -- both counts of reports add up.
  · obtain ⟨hnews, hlater⟩ := not_or.1 fun hmem => hid (List.mem_append.2 hmem)
    rw [h'.reports id hlater, h.reports id hnews, List.countP_append,
      Nat.add_assoc]
  · exact h'.few hfault id (h.few (hnone hfault) id hfew)
  · rw [List.countP_append, List.countP_append, h.sets (hnone hfault),
      h'.sets hfault]
  · obtain ⟨hnews, hlater⟩ := not_or.1 fun hmem => hid (List.mem_append.2 hmem)
    have hfirst := h.once id hnews
    have hsecond := h'.once id hlater
    rw [List.countP_append]
    omega
  -- The second report lies in one of the two parts. In the later part the
  -- reports of the earlier one count as those already made.
  · rcases split_append heq with ⟨rest, hnews, hafter⟩ | ⟨rest, hbefore, hlater⟩
    · obtain ⟨rest', hrest⟩ := h.second id before outcome rest hid hnews hcount
      exact ⟨rest' ++ later, by rw [hafter, hrest]; rfl⟩
    · rw [hbefore] at hid hcount
      obtain ⟨hnews, hrest⟩ := not_or.1 fun hmem => hid (List.mem_append.2 hmem)
      refine h'.second id rest outcome after hrest hlater ?_
      rw [List.countP_append] at hcount
      rw [h.reports id hnews]
      omega

/-- What leaves no entry and counts nothing. -/
theorem tale_nil (hentries : a'.entries = a.entries)
    (hfault : a'.fault = a.fault) (hlisteners : a'.listeners = a.listeners)
    (hreports : Keeps Slot.reports a a') :
    Tale a₀ a [] a' := by
  refine ⟨?_, ?_, hlisteners, rfl, fun id _ => hreports.reportsOf id,
    fun _ id hfew => ?_, fun _ _ => rfl, fun id _ => ?_,
    fun id before outcome after _ heq => ?_⟩
  · rw [hentries, List.append_nil]
  · rw [hfault]
    exact (Option.or_none).symm
  · rw [hreports.reportsOf]
    exact hfew
  · rw [hreports.reportsOf]
    exact Nat.le_of_eq (Nat.zero_add _)
  · cases before <;> cases heq

/-- Where nothing happens there is nothing to tell. -/
theorem Tale.refl (a : Arena E T) : Tale a₀ a [] a :=
  tale_nil rfl rfl rfl (.refl a)

/-- What leaves one entry that is neither a report nor what comes of it. -/
theorem tale_entry {entry : Entry}
    (hentries : a'.entries = a.entries ++ [entry])
    (hfault : a'.fault = a.fault.or entry.raises?)
    (hlisteners : a'.listeners = a.listeners)
    (hreports : ∀ id, entry ≠ .turnBegan id → a'.reportsOf id = a.reportsOf id)
    (hfew : ∀ id, a'.reportsOf id ≤ a.reportsOf id)
    (hentry : ∀ id outcome, entry ≠ .reported id outcome)
    (hquiet : entry.notice? = none ∧ entry.change? = none) :
    Tale a₀ a [entry] a' := by
  -- The entry is neither a report nor a status that is set, so both counts are
  -- unchanged.
  have hcount : ∀ id, [entry].countP (Entry.reports id) = 0 := by
    intro id
    refine List.countP_eq_zero.2 fun e he => ?_
    rw [List.mem_singleton.1 he]
    cases entry with
    | reported task outcome => exact absurd rfl (hentry task outcome)
    | _ => exact Bool.false_ne_true
  have hsets : ∀ id, [entry].countP (Entry.sets id) = 0 := by
    intro id
    refine List.countP_eq_zero.2 fun e he => ?_
    rw [List.mem_singleton.1 he]
    cases entry with
    | statusSet => exact nomatch hquiet.2
    | _ => exact Bool.false_ne_true
  have hsame : ∀ id, .turnBegan id ∉ [entry] →
      a'.reportsOf id = a.reportsOf id := fun id hid =>
    hreports id fun heq => hid (List.mem_singleton.2 heq.symm)
  refine ⟨hentries, ?_, hlisteners, ?_, fun id hid => ?_,
    fun _ id hle => Nat.le_trans (hfew id) hle,
    fun _ id => (hsets id).trans (hcount id).symm, fun id hid => ?_,
    fun id before outcome after _ heq => ?_⟩
  · rw [hfault]
    cases entry <;> rfl
  · rw [List.filterMap_cons_none hquiet.1, List.filterMap_cons_none hquiet.2]
    rfl
  · rw [hcount, hsame id hid]
    rfl
  · rw [hsets, hsame id hid]
    exact Nat.le_of_eq (Nat.zero_add _)
  -- The one entry is no report, so there is nothing to follow it.
  · cases before with
    | nil => exact absurd (List.cons.inj heq).1 (hentry id outcome)
    | cons e rest => cases rest <;> cases (List.cons.inj heq).2

/-- A fault is written down and kept when it is the first. -/
theorem tale_raise (a : Arena E T) (fault : Fault) :
    Tale a₀ a [.raised fault] (a.raise fault) :=
  tale_entry (entries_log ..) rfl rfl (fun _ _ => rfl) (fun _ => Nat.le_refl _)
    (by nofun) ⟨rfl, rfl⟩

/-- A call takes a task out of its slot or finds it there. -/
theorem tale_called (id : TaskId) (call : Call) {b : Arena E T}
    (hreports : Keeps Slot.reports a b) (hentries : b.entries = a.entries)
    (hfault : b.fault = a.fault) (hlisteners : b.listeners = a.listeners) :
    Tale a₀ a [.called id call] (b.log (.called id call)) :=
  (tale_nil hentries hfault hlisteners hreports).append
    (tale_entry (entries_log ..) (Option.or_none).symm rfl (fun _ _ => rfl)
      (fun _ => Nat.le_refl _) (by nofun) ⟨rfl, rfl⟩)

/-- The return of a hook is written down and changes nothing else. -/
theorem tale_returned (a : Arena E T) (id : TaskId) :
    Tale a₀ a [.returned id] (a.log (.returned id)) :=
  tale_entry (entries_log ..) (Option.or_none).symm rfl (fun _ _ => rfl)
    (fun _ => Nat.le_refl _) (by nofun) ⟨rfl, rfl⟩

-- =============================================================== turns

/-- A turn begins with no report of its task. -/
theorem reportsOf_beginTurn (a : Arena E T) (id x : TaskId) :
    (a.beginTurn id).reportsOf x = if x = id then 0 else a.reportsOf x := by
  rw [beginTurn, reportsOf, slot?_modify]
  split
  · cases hslot : (a.log (.turnBegan id)).slot? id with
    | none => rfl
    | some s => rfl
  · rfl

/-- However a turn begins, the reports of its task start over and those of the
others stay. -/
theorem Begun.reportsOf {id : TaskId} {b : Arena E T} (h : Begun a id b)
    (x : TaskId) :
    b.reportsOf x = if x = id then 0 else a.reportsOf x := by
  cases h with
  | resumed => exact reportsOf_beginTurn a id x
  | entered control =>
      rw [← reportsOf_beginTurn]
      exact (keeps_setControl (a.beginTurn id) id control fun _ _ => rfl :
        Keeps Slot.reports _ _).reportsOf x

/-- Beginning a turn raises no fault. -/
theorem Begun.fault {id : TaskId} {b : Arena E T} (h : Begun a id b) :
    b.fault = a.fault := by
  cases h <;> rfl

/-- The beginning of a turn tells nobody and leaves every other count alone. -/
theorem Begun.tale {id : TaskId} {b : Arena E T} (h : Begun a id b) :
    Tale a₀ a [.turnBegan id] b := by
  have hentries : b.entries = a.entries ++ [.turnBegan id] := by
    cases h <;> exact entries_log ..
  have hlisteners : b.listeners = a.listeners := by
    cases h <;> rfl
  refine tale_entry hentries (h.fault.trans (Option.or_none).symm) hlisteners
    (fun x hx => ?_) (fun x => ?_) nofun ⟨rfl, rfl⟩
  · rw [h.reportsOf, if_neg fun heq => hx (congrArg Entry.turnBegan heq.symm)]
  · rw [h.reportsOf]
    split
    · exact Nat.zero_le _
    · exact Nat.le_refl _

-- ============================================================= reports

/-- A task that has reported has a slot. -/
theorem isSome_of_reportsOf {id : TaskId} (h : a.reportsOf id ≠ 0) :
    (a.slot? id).isSome = true := by
  cases hslot : a.slot? id with
  | some s => rfl
  | none =>
      rw [reportsOf, hslot] at h
      exact absurd rfl h

section

variable {id x : TaskId} {outcome outcome' : Outcome}
  {rest before after : List Entry}

/-- A report that no other one follows. -/
theorem countP_reports (hrest : ∀ entry ∈ rest, ∀ x, entry.reports x = false)
    (x : TaskId) :
    (Entry.reported id outcome :: rest).countP (Entry.reports x)
      = if id = x then 1 else 0 := by
  have hnone : rest.countP (Entry.reports x) = 0 :=
    List.countP_eq_zero.2 fun entry hentry =>
      Bool.eq_false_iff.1 (hrest entry hentry x)
  rw [List.countP_cons, hnone, Nat.zero_add]
  simp [Entry.reports]

/-- The one report of a stretch stands at its front. -/
theorem split_report (hrest : ∀ entry ∈ rest, ∀ x, entry.reports x = false)
    (h : Entry.reported id outcome :: rest
      = before ++ .reported x outcome' :: after) :
    before = [] ∧ id = x ∧ after = rest := by
  cases before with
  | nil =>
      cases h
      exact ⟨rfl, rfl, rfl⟩
  | cons entry before =>
      have hmem : .reported x outcome' ∈ rest := by
        rw [(List.cons.inj h).2]
        exact List.mem_append_right _ List.mem_cons_self
      have hfalse := hrest _ hmem x
      rw [Entry.reports, decide_eq_true rfl] at hfalse
      cases hfalse

end

/-- A second report counts and sets nothing. -/
theorem tale_again {id : TaskId} {outcome : Outcome} (hfault : a.fault = none)
    (hreports : a.reportsOf id ≠ 0) :
    Tale a₀ a [.reported id outcome, .raised (.secondReport id (a₀.nameOf id))]
      ((a.countReport id outcome).raise (.secondReport id (a₀.nameOf id))) := by
  -- The arena afterwards gets a name, so that no proof below unfolds it.
  obtain ⟨a', ha'⟩ : ∃ a',
      a' = (a.countReport id outcome).raise (.secondReport id (a₀.nameOf id)) :=
    ⟨_, rfl⟩
  have hentries : a'.entries
      = a.entries ++ [.reported id outcome,
        .raised (.secondReport id (a₀.nameOf id))] := by
    rw [ha']
    refine (entries_log ..).trans ?_
    rw [show (a.countReport id outcome).entries
        = a.entries ++ [.reported id outcome] from
      entries_log .., List.append_assoc]
    rfl
  have hafter : a'.fault = some (.secondReport id (a₀.nameOf id)) := by
    have hpending : (a.countReport id outcome).fault = none := hfault
    rw [ha', raise, hpending]
    rfl
  -- The count of the task itself goes up by one, which is at least two now.
  have hcount : ∀ x,
      a'.reportsOf x = a.reportsOf x + if id = x then 1 else 0 := by
    intro x
    have hcounted :=
      reportsOf_countReport (isSome_of_reportsOf hreports) outcome x
    rw [ha']
    by_cases hx : x = id
    · rw [if_pos hx] at hcounted
      rw [if_pos hx.symm, hx]
      exact hx ▸ hcounted
    · rw [if_neg hx] at hcounted
      rw [if_neg fun heq => hx heq.symm]
      exact hcounted
  have hrest : ∀ entry ∈ [Entry.raised (.secondReport id (a₀.nameOf id))], ∀ x,
      entry.reports x = false := by
    intro entry hentry x
    rw [List.mem_singleton.1 hentry]
    rfl
  rw [← ha']
  refine ⟨hentries, ?_, ha' ▸ rfl, rfl, fun x _ => ?_, fun h => ?_, fun h => ?_,
    fun x _ => ?_, fun x before outcome' after _ heq _ => ?_⟩
  · rw [hafter, hfault]
    rfl
  · rw [hcount, countP_reports hrest]
  · cases hafter.symm.trans h
  · cases hafter.symm.trans h
  · have hnone : List.countP (Entry.sets x)
        [.reported id outcome, .raised (.secondReport id (a₀.nameOf id))] = 0 :=
      rfl
    rw [hnone, hcount]
    omega
  -- The report is the first entry of the two, so the fault directly follows it.
  · obtain ⟨-, rfl, rfl⟩ := split_report hrest heq
    exact ⟨[], rfl⟩

/-- The first report of a turn sets the status. -/
theorem tale_first {id : TaskId} {outcome : Outcome} {name : String}
    {previous status : Status} {rest : List Entry} (hfault : a.fault = none)
    (hreports : a.reportsOf id = 0)
    (hrest : ∀ entry ∈ rest,
      (∀ x, entry.reports x = false ∧ entry.sets x = false)
      ∧ entry.raises? = none ∧ entry.change? = none)
    (htold : rest.filterMap Entry.notice?
      = a.listeners.map fun who => (who, .status id name previous status))
    (hlisteners : a'.listeners = a.listeners)
    (hentries : a'.entries
      = a.entries ++ .reported id outcome
        :: .statusSet id name previous status :: rest)
    (hfault' : a'.fault = none)
    (hreports' : ∀ x, a'.reportsOf x = if x = id then 1 else a.reportsOf x) :
    Tale a₀ a (.reported id outcome :: .statusSet id name previous status
      :: rest) a' := by
  -- One report, one status: each counter moves for this task only.
  have hothers : ∀ entry ∈ Entry.statusSet id name previous status :: rest, ∀ x,
      entry.reports x = false :=
    List.forall_mem_cons.2
      ⟨fun _ => rfl, fun entry hentry x => ((hrest entry hentry).1 x).1⟩
  have hset : ∀ x, List.countP (Entry.sets x)
      (.reported id outcome :: .statusSet id name previous status :: rest)
        = if id = x then 1 else 0 := by
    intro x
    have hnone : rest.countP (Entry.sets x) = 0 :=
      List.countP_eq_zero.2 fun e he => Bool.eq_false_iff.1 ((hrest e he).1 x).2
    rw [List.countP_cons, List.countP_cons, hnone]
    simp [Entry.sets]
  -- The fields of the story, one by one; the notices are the listeners' and the
  -- counts are those of the slot.
  refine ⟨hentries, ?_, hlisteners, ?_, fun x _ => ?_, fun _ x hle => ?_,
    fun _ x => (hset x).trans (countP_reports hothers x).symm, fun x _ => ?_,
    fun x before outcome' after _ heq hpos => ?_⟩
  · have hnone : rest.findSome? Entry.raises? = none :=
      List.findSome?_eq_none_iff.2 fun e he => (hrest e he).2.1
    rw [hfault', hfault]
    exact hnone.symm
  · have hnone : rest.filterMap Entry.change? = [] :=
      List.filterMap_eq_nil_iff.2 fun e he => (hrest e he).2.2
    have hchange : (Entry.statusSet id name previous status).change?
        = some (.status id name previous status) := rfl
    rw [List.filterMap_cons_none rfl, List.filterMap_cons_none rfl,
      List.filterMap_cons_none rfl, List.filterMap_cons_some hchange, hnone,
      htold, List.flatMap_singleton]
  · rw [hreports', countP_reports hothers]
    by_cases hx : x = id
    · rw [if_pos hx, if_pos hx.symm, hx, hreports]
    · rw [if_neg hx, if_neg fun h => hx h.symm]
      rfl
  · rw [hreports']
    split
    · exact Nat.le_refl _
    · exact hle
  · rw [hset, hreports']
    by_cases hx : x = id
    · rw [if_pos hx, if_pos hx.symm, hx, hreports]
      decide
    · rw [if_neg hx, if_neg fun h => hx h.symm]
      exact Nat.le_of_eq (Nat.zero_add _)
  -- The only report is the first entry, and the task had made none before.
  · obtain ⟨rfl, rfl, -⟩ := split_report hothers heq
    rw [hreports] at hpos
    exact absurd hpos (Nat.lt_irrefl _)

/-- Telling a report makes a story in each of its three forms. -/
theorem Tells.tale {id : TaskId} {outcome : Outcome}
    (h : Tells a₀ a id outcome news a') :
    Tale a₀ a news a' := by
  cases h with
  | unheard => exact .refl a
  | again hfault hreports => exact tale_again hfault hreports
  | @first aside _ hfault hreports haside hentries hfault' hlisteners
        hreports' =>
      have hquiet : aside.filterMap Entry.notice? = [] := by
        refine List.filterMap_eq_nil_iff.2 fun entry hentry => ?_
        cases haside entry hentry <;> rfl
      refine tale_first hfault hreports (fun entry hentry => ?_) ?_ hlisteners
        hentries hfault' hreports'
      · rcases List.mem_append.1 hentry with hentry | hentry
        · obtain ⟨who, -, rfl⟩ := List.mem_map.1 hentry
          exact ⟨fun _ => ⟨rfl, rfl⟩, rfl, rfl⟩
        · cases haside entry hentry <;> exact ⟨fun _ => ⟨rfl, rfl⟩, rfl, rfl⟩
      · refine (List.filterMap_append ..).trans ?_
        rw [hquiet, List.append_nil, filterMap_told]

-- =============================================================== runs

variable [Behavior E T]

/-- The counts agree along every run. By induction over the run: each case joins
the stories of its parts, in the order in which they happen. -/
theorem Run.tale {job : Job E T} (h : Run a₀ job a news a') :
    Tale a₀ a news a' := by
  induction h with
  | idle | skipped | unguarded | done => exact .refl _
  | turned _ _ hbegun _ ih =>
      exact hbegun.tale.append
        (ih.append (tale_entry (entries_log ..) (Option.or_none).symm rfl
          (fun _ _ => rfl) (fun _ => Nat.le_refl _) (by nofun) ⟨rfl, rfl⟩))
  | resumed _ _ ih | updated _ _ ih | overruled _ _ ih
  | looked _ _ ih => exact ih
  | admitted _ _ _ _ _ hasked hstart hupdate =>
      exact hasked.append (hstart.append hupdate)
  | refused _ _ htells hasked => exact hasked.append htells.tale
  | tried _ _ _ hstart hupdate => exact hstart.append hupdate
  | silent _ _ ih => exact ih.append (tale_raise ..)
  | asked _ _ _ _ hasked hturn => exact hasked.append hturn
  | unsettled _ _ _ hasked hturn =>
      exact hasked.append (hturn.append (tale_raise ..))
  -- A hook is called, runs and returns; then its answer is used.
  | called _ _ _ _ hhook hanswer =>
      exact (tale_called _ _ (keeps_vacate _ _ fun _ _ => rfl) rfl
          rfl rfl).append
        (hhook.append ((tale_returned ..).append hanswer))
  | rested => exact tale_nil rfl rfl rfl (keeps_rest _ _ _ fun _ _ _ => rfl)
  | answered _ _ _ _ hhook hanswer =>
      exact (tale_called _ _ (keeps_taken _ _ fun _ _ => rfl) rfl
          rfl rfl).append
        (hhook.append ((tale_returned ..).append hanswer))
  | told htells _ ih => exact htells.tale.append ih
  | drove _ _ _ hdrive hnext => exact hdrive.append hnext
  | missed _ ih => exact (tale_raise ..).append ih
  -- The board and the dice are not part of the story.
  | wrote _ ih | drew _ ih =>
      exact ⟨ih.entries, ih.fault, ih.listeners, ih.told, ih.reports, ih.few,
        ih.sets, ih.once, ih.second⟩

omit [Behavior E T] in
/-- That a step begins or is aborted is no news to the listeners. -/
theorem Tale.told_during (h : Tale a₀ a news a') (root : TaskId)
    (delta : Float32) {tail : List Entry}
    (htail : ∀ entry ∈ tail, ∃ fault, entry = .stepAborted fault) :
    (Entry.stepBegan root delta :: (news ++ tail)).filterMap Entry.notice?
      = ((Entry.stepBegan root delta :: (news ++ tail)).filterMap
        Entry.change?).flatMap
        fun notice => a.listeners.map fun who => (who, notice) := by
  have hnotice : tail.filterMap Entry.notice? = [] := by
    refine List.filterMap_eq_nil_iff.2 fun entry hentry => ?_
    obtain ⟨fault, rfl⟩ := htail entry hentry
    rfl
  have hchange : tail.filterMap Entry.change? = [] := by
    refine List.filterMap_eq_nil_iff.2 fun entry hentry => ?_
    obtain ⟨fault, rfl⟩ := htail entry hentry
    rfl
  rw [List.filterMap_cons_none rfl, List.filterMap_cons_none rfl,
    List.filterMap_append, List.filterMap_append, hnotice, hchange,
    List.append_nil, List.append_nil]
  exact h.told

/-- What a step of a tree with a root writes: its beginning, what driving the
root leaves, and an entry `tail` that says that the step was aborted. The
first fault among the news is the fault of the step. -/
theorem step_tale (hready : Ready a) (hranked : Ranked a) {b : Nat}
    {delta : Float32} {root : TaskId} {result : Except Fault Status}
    (hroot : a.root = some root)
    (hstep : Arena.step b delta a = some (result, a')) :
    ∃ news a₁ tail, Run (a.begun root delta) (.drive root true)
      (a.begun root delta) news a₁
      ∧ a'.entries = a.entries ++ .stepBegan root delta :: (news ++ tail)
      ∧ (∀ entry ∈ tail, ∃ fault, entry = .stepAborted fault)
      ∧ result = match news.findSome? Entry.raises? with
        | none => .ok a₁.status
        | some fault => .error fault := by
  -- The step is one run from the begun arena, whose story holds everything up
  -- to the fault that ended it.
  obtain ⟨news, a₁, hrun, hend⟩ := step_run hready hranked hroot hstep
  have hfault : a₁.fault = news.findSome? Entry.raises? := hrun.tale.fault
  have hentries : a₁.entries = a.entries ++ .stepBegan root delta :: news := by
    rw [hrun.tale.entries, entries_begun, List.append_assoc]
    rfl
  rcases hend with ⟨hnone, rfl, rfl⟩ | ⟨fault, hsome, rfl, rfl⟩
  · refine ⟨news, a', [], hrun, ?_, List.forall_mem_nil _, ?_⟩
    · rw [hentries, List.append_nil]
    · rw [← hfault, hnone]
  · refine ⟨news, a₁, [.stepAborted fault], hrun, ?_,
      (fun _ h => ⟨fault, List.mem_singleton.1 h⟩), ?_⟩
    · have hlogged :
          ({ a₁ with fault := none }.log (.stepAborted fault)).entries
          = a₁.entries ++ [.stepAborted fault] := entries_log ..
      rw [hlogged, hentries, List.append_assoc]
      rfl
    · rw [← hfault, hsome]

end Arena

end TaskTree
