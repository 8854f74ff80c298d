/-
What a step does and what it writes, without the stack.

The functions of a step pass an arena along, and a budget, and what they
rely on is the state of the turns and hooks around them. In a tree that is
ready for a step all of this is known. Whoever has its turn is in its slot
and has nothing to answer, no task is ever called inside one of its own
hooks, and the guard evaluator, which alone is called out of turn, only
lets reports pass. `Run` tells the same story with these facts in place: a
`Job` is one of the functions with its arguments, and a run of it leads from
one arena to another and leaves the entries `news` in the journal.

`step_run` gives the run of a step. So a property of steps that depends on
what a task does between two entries is proved by induction on a run, with
a case for each thing that can happen.
-/
import TaskTree.Proofs.Arena.Account
import TaskTree.Proofs.Arena.Delivery
import TaskTree.Proofs.Arena.Ranked

namespace TaskTree

/-- What the tree and its guard evaluator do with a report. -/
inductive Entry.Aside : Entry → Prop where
  | settled (previous status : Status) : Aside (.settled previous status)
  | called (report : Report) :
      Aside (.called .evaluator (.respond report.outcome report.child))
  | returned : Aside (.returned .evaluator)

/-- The status that an entry gives the tree. -/
def Entry.settled? : Entry → Option Status
  | .settled _ status => some status
  | _ => none

/-- What is written when a task reports. -/
inductive Entry.OfReport (id : TaskId) : Entry → Prop where
  | reported (outcome : Outcome) : OfReport id (.reported id outcome)
  | second (name : String) : OfReport id (.raised (.secondReport id name))
  | set (name : String) (previous current : Status) :
      OfReport id (.statusSet id name previous current)
  | told (who : Listener) (notice : Notice) : OfReport id (.told who notice)
  | aside {entry : Entry} (haside : entry.Aside) : OfReport id entry

namespace Arena

variable {E T : Type}

-- ============================================================== reports

/-- What it leads to that a task reports in its turn. -/
inductive Tells (a₀ a : Arena E T) (id : TaskId) (outcome : Outcome) :
    List Entry → Arena E T → Prop where
  /-- A step that is being aborted takes no report. -/
  | unheard (hfault : a.fault ≠ none) : Tells a₀ a id outcome [] a
  /-- The first report of a turn sets the status. The tree or the evaluator may
  add entries of their own. -/
  | first {aside : List Entry} {a' : Arena E T} (hfault : a.fault = none)
      (hreports : a.reportsOf id = 0) (haside : ∀ entry ∈ aside, entry.Aside)
      (hentries : a'.entries = a.entries ++ (a.tidings id outcome ++ aside))
      (hfault' : a'.fault = none) (hlisteners : a'.listeners = a.listeners)
      (hreports' : ∀ x, a'.reportsOf x = if x = id then 1 else a.reportsOf x)
      (hstatuses : ∀ x,
        a'.statusOf x = if x = id then outcome.status else a.statusOf x)
      (hsettled : aside.filterMap Entry.settled?
        = if a₀.root = some id then [outcome.status] else []) :
      Tells a₀ a id outcome (a.tidings id outcome ++ aside) a'
  /-- A second report is counted and raises the fault. -/
  | again (hfault : a.fault = none) (hreports : a.reportsOf id ≠ 0) :
      Tells a₀ a id outcome
        [.reported id outcome, .raised (.secondReport id (a₀.nameOf id))]
        ((a.countReport id outcome).raise (.secondReport id (a₀.nameOf id)))

/-- A report is about the task that makes it, also where it is refused. Each
entry is one of the report: its own, the new status, what the listeners are
told, or an aside. -/
theorem Tells.ofReport {a₀ a a' : Arena E T} {id : TaskId} {outcome : Outcome}
    {news : List Entry} (h : Tells a₀ a id outcome news a') :
    ∀ entry ∈ news, entry.OfReport id := by
  intro entry hentry
  cases h with
  | unheard => cases hentry
  | again =>
      simp only [List.mem_cons, List.not_mem_nil, or_false] at hentry
      rcases hentry with rfl | rfl
      · exact .reported outcome
      · exact .second _
  | first _ _ haside =>
      rcases List.mem_append.1 hentry with hentry | hentry
      · simp only [tidings, List.mem_cons, List.mem_map] at hentry
        rcases hentry with rfl | rfl | ⟨who, -, rfl⟩
        · exact .reported outcome
        · exact .set ..
        · exact .told ..
      · exact .aside (haside entry hentry)

-- ================================================================= runs

/-- A function of a step with its arguments and what it gives. -/
inductive Job (E T : Type) where
  /-- A task is driven: it has its turn, unless the step is being aborted.
  Its guard may be asked in the turn, and if the task is itself a guard
  that was asked before. -/
  | drive (id : TaskId) (asks : Bool)
  /-- What a turn is made of. -/
  | turn (id : TaskId) (asks : Bool)
  | update (id : TaskId)
  | consult (id : TaskId) (admitted : Bool)
  | attend (id : TaskId) (call : Call)
  | answer (id : TaskId) (occupant : Occupant T)
  | perform (id : TaskId) (hook : Hook E (Occupant T)) (left : Occupant T)

/-- The arena in which a task's turn has begun. -/
inductive Begun (a : Arena E T) (id : TaskId) : Arena E T → Prop where
  | resumed : Begun a id (a.beginTurn id)
  | entered (control : Control) :
      Begun a id ((a.beginTurn id).setControl id control)

variable [Behavior E T]

/-- How a job may go in a step that began in the arena `a₀`, and the entries
that it leaves. -/
inductive Run (a₀ : Arena E T) :
    Job E T → Arena E T → List Entry → Arena E T → Prop where
  /-- With a fault pending nobody gets a turn. -/
  | idle {id : TaskId} {asks : Bool} {a : Arena E T} (hfault : a.fault ≠ none) :
      Run a₀ (.drive id asks) a [] a
  /-- A turn is put between its two entries. -/
  | turned {id : TaskId} {asks : Bool} {a b b' : Arena E T} {news : List Entry}
      (hfault : a.fault = none) (hid : id ≠ .evaluator) (hbegun : Begun a id b)
      (hturn : Run a₀ (.turn id asks) b news b') :
      Run a₀ (.drive id asks) a (.turnBegan id :: (news ++ [.turnEnded id]))
      (b'.endTurn id)
  -- the turn of a task
  /-- A running task is updated. -/
  | resumed {id : TaskId} {a a' : Arena E T} {news : List Entry}
      (hrunning : a.statusOf id = .running)
      (hupdate : Run a₀ (.update id) a news a') :
      Run a₀ (.turn id true) a news a'
  /-- A task whose guards admit it is started and updated. -/
  | admitted {id : TaskId} {a a₁ a₂ a' : Arena E T}
      {asked started news : List Entry} (hidle : a.statusOf id ≠ .running)
      (hasked : Run a₀ (.consult id true) a asked a₁) (hfault : a₁.fault = none)
      (hstart : Run a₀ (.attend id .start) a₁ started a₂)
      (hupdate : Run a₀ (.update id) a₂ news a') :
      Run a₀ (.turn id true) a (asked ++ (started ++ news)) a'
  /-- A task that is refused reports its failure. -/
  | refused {id : TaskId} {a a₁ a' : Arena E T} {asked news : List Entry}
      (hidle : a.statusOf id ≠ .running)
      (hasked : Run a₀ (.consult id false) a asked a₁)
      (htells : Tells a₀ a₁ id .failed news a') :
      Run a₀ (.turn id true) a (asked ++ news) a'
  /-- The guard of a guard is asked before the turn. -/
  | tried {id : TaskId} {a a₁ a' : Arena E T} {started news : List Entry}
      (hfault : a.fault = none)
      (hstart : Run a₀ (.attend id .start) a started a₁)
      (hupdate : Run a₀ (.update id) a₁ news a') :
      Run a₀ (.turn id false) a (started ++ news) a'
  -- the end of an update
  /-- An update in which the task reports. -/
  | updated {id : TaskId} {a a' : Arena E T} {news : List Entry}
      (hattend : Run a₀ (.attend id .update) a news a')
      (hreports : a'.fault = none → a'.reportsOf id ≠ 0) :
      Run a₀ (.update id) a news a'
  /-- One in which it does not. -/
  | silent {id : TaskId} {a a' : Arena E T} {news : List Entry}
      (hattend : Run a₀ (.attend id .update) a news a')
      (hfault : a'.fault = none) :
      Run a₀ (.update id) a
        (news ++ [.raised (.silentUpdate id (a₀.nameOf id))])
        (a'.raise (.silentUpdate id (a₀.nameOf id)))
  -- the guards
  /-- Without a guard there is nobody to ask. -/
  | unguarded {id : TaskId} {a : Arena E T} (hguard : a₀.guardOf id = none) :
      Run a₀ (.consult id true) a [] a
  /-- A guard that its own guard refuses refuses the task. -/
  | overruled {id guard : TaskId} {a a' : Arena E T} {news : List Entry}
      (hguard : a₀.guardOf id = some guard)
      (hasked : Run a₀ (.consult guard false) a news a') :
      Run a₀ (.consult id false) a news a'
  /-- A guard has its turn, and its verdict is the answer. -/
  | asked {id guard : TaskId} {admitted : Bool} {a a₁ a' : Arena E T}
      {asked news : List Entry} (hguard : a₀.guardOf id = some guard)
      (hasked : Run a₀ (.consult guard true) a asked a₁)
      (hturn : Run a₀ (.drive guard false) a₁ news a')
      (hverdict : a'.verdict guard = (admitted, a')) :
      Run a₀ (.consult id admitted) a (asked ++ news) a'
  /-- A guard that does not end in its turn raises a fault. -/
  | unsettled {id guard : TaskId} {a a₁ a' : Arena E T}
      {asked news : List Entry} {status : Status}
      (hguard : a₀.guardOf id = some guard)
      (hasked : Run a₀ (.consult guard true) a asked a₁)
      (hturn : Run a₀ (.drive guard false) a₁ news a') :
      Run a₀ (.consult id false) a
        (asked
          ++ (news
            ++ [.raised (.unsettledGuard guard (a₀.nameOf guard) status)]))
        (a'.raise (.unsettledGuard guard (a₀.nameOf guard) status))
  -- the calls of a task
  /-- With a fault pending no hook is called. -/
  | skipped {id : TaskId} {call : Call} {a : Arena E T}
      (hfault : a.fault ≠ none) :
      Run a₀ (.attend id call) a [] a
  /-- A hook runs, and then what it left in the inbox is answered. -/
  | called {id : TaskId} {call : Call} {occupant left : Occupant T}
      {a a₁ a' : Arena E T} {news answers : List Entry}
      (hfault : a.fault = none) (hinbox : a.inboxOf id = [])
      (hhook : Run a₀ (.perform id (call.hook occupant) left)
        ((a.vacate id).log (.called id call))
        news a₁)
      (hanswer : Run a₀ (.answer id left) (a₁.log (.returned id)) answers a') :
      Run a₀ (.attend id call) a
        (.called id call :: (news ++ .returned id :: answers)) a'
  /-- The task goes back to its slot. -/
  | rested {id : TaskId} {occupant : Occupant T} {a : Arena E T} :
      Run a₀ (.answer id occupant) a [] (a.rest id occupant)
  /-- One report is answered by a hook, and then the next. -/
  | answered {id : TaskId} {occupant left : Occupant T} {report : Report}
      {a a₁ a' : Arena E T} {news answers : List Entry}
      (hfault : a.fault = none) (hnext : a.nextReport id = some report)
        (hhook :
          Run a₀
            (.perform id
              ((Call.respond report.outcome report.child).hook occupant) left)
              ((a.taken id).log
                (.called id (.respond report.outcome report.child))) news a₁)
      (hanswer : Run a₀ (.answer id left) (a₁.log (.returned id)) answers a') :
      Run a₀ (.answer id occupant) a
        (.called id (.respond report.outcome report.child)
          :: (news ++ .returned id :: answers)) a'
  -- the hooks
  /-- The hook is over, and leaves the task that it says. -/
  | done {id : TaskId} {occupant : Occupant T} {a : Arena E T} :
      Run a₀ (.perform id (.done occupant) occupant) a [] a
  /-- A report. -/
  | told {id : TaskId} {outcome : Outcome} {next : Hook E (Occupant T)}
      {left : Occupant T} {a a₁ a' : Arena E T} {tidings news : List Entry}
      (htells : Tells a₀ a id outcome tidings a₁)
      (hnext : Run a₀ (.perform id next left) a₁ news a') :
      Run a₀ (.perform id (.report outcome next) left) a (tidings ++ news) a'
  /-- The turn of a child. -/
  | drove {id child : TaskId} {index : Nat} {next : Hook E (Occupant T)}
      {left : Occupant T} {a a₁ a' : Arena E T} {driven news : List Entry}
      (hchild : (a₀.childrenOf id)[index]? = some child)
      (hdrive : Run a₀ (.drive child true) a driven a₁)
      (hnext : Run a₀ (.perform id next left) a₁ news a') :
      Run a₀ (.perform id (.runChild index next) left) a (driven ++ news) a'
  /-- There is no such child. -/
  | missed {id : TaskId} {index : Nat} {next : Hook E (Occupant T)}
      {left : Occupant T} {a a' : Arena E T} {news : List Entry}
      (hnext : Run a₀ (.perform id next left)
        (a.raise (.missingChild id (a₀.nameOf id) index)) news a') :
      Run a₀ (.perform id (.runChild index next) left) a
        (.raised (.missingChild id (a₀.nameOf id) index) :: news) a'
  /-- A look at the board and the time. -/
  | looked {id : TaskId} {next : View E → Hook E (Occupant T)}
      {left : Occupant T} {a a' : Arena E T} {news : List Entry} (view : View E)
      (hnext : Run a₀ (.perform id (next view) left) a news a') :
      Run a₀ (.perform id (.look next) left) a news a'
  /-- A write to the board. -/
  | wrote {id : TaskId} {board : E} {next : Hook E (Occupant T)}
      {left : Occupant T} {a a' : Arena E T} {news : List Entry}
      (hnext : Run a₀ (.perform id next left) { a with board } news a') :
      Run a₀ (.perform id (.write board next) left) a news a'
  /-- A draw from the dice. -/
  | drew {id : TaskId} {next : Nat → Hook E (Occupant T)} {left : Occupant T}
      {a a' : Arena E T} {news : List Entry}
      (hnext : Run a₀ (.perform id (next a.roll.1) left) a.roll.2 news a') :
      Run a₀ (.perform id (.draw next) left) a news a'

-- ============================================== what a ready tree grants

/-- Who is out of its slot has an earlier one than `n`, apart from the guard
evaluator. -/
def OutBefore (going : List (Activity T)) (n : Nat) : Prop :=
  ∀ x, held going x ≠ none → x = .evaluator ∨ x.index < n

variable {a₀ a a' : Arena E T} {going : List (Activity T)}

omit [Behavior E T] in
/-- What is out before one index is out before a later one. -/
theorem OutBefore.mono {n n' : Nat} (h : OutBefore going n) (hle : n ≤ n') :
    OutBefore going n' :=
  fun x hx => (h x hx).imp_right fun hlt => Nat.lt_of_lt_of_le hlt hle

omit [Behavior E T] in
/-- One more task leaves its slot. -/
theorem OutBefore.hook {id : TaskId} (h : OutBefore going id.index)
    (occupant : Occupant T) :
    OutBefore (.hook id occupant :: going) (id.index + 1) := by
  intro x hx
  rw [held] at hx
  split at hx
  · rename_i heq
    subst heq
    exact .inr (Nat.lt_succ_self _)
  · exact (h.mono (Nat.le_succ _)) x hx

/-- Whoever has its turn is in its slot and has nothing to answer. -/
theorem Regular.seated {id : TaskId} (h : Regular a₀ ⟨.turn id :: going, a⟩)
    (hout : OutBefore going id.index) (hid : id ≠ .evaluator) :
    (∃ occupant, a.occupantOf id = some occupant) ∧ a.inboxOf id = [] := by
  have hheld : held going id = none := by
    refine Classical.byContradiction fun hheld => ?_
    exact Nat.lt_irrefl _ ((hout id hheld).resolve_left hid)
  obtain ⟨s, hs, -⟩ := Option.bind_eq_some_iff.1 (h.turns id List.mem_cons_self)
  obtain ⟨s₀, -, hstands⟩ := h.seats.stands id s hs
  rw [show held (.turn id :: going) id = none from hheld] at hstands
  cases hstands with
  | seated before now aged inbox =>
      refine ⟨⟨_, (occupant_eq hs).trans now⟩, ?_⟩
      rw [inboxOf, hs, Option.map_some, Option.getD_some, inbox]

/-- The guard evaluator stays what it is. -/
theorem Regular.evaluator (hranked : Ranked a₀) (h : Regular a₀ ⟨going, a⟩)
    {occupant : Occupant T}
    (hoccupant : a.occupantOf .evaluator = some occupant) :
    occupant = .evaluator := by
  obtain ⟨s, hs, hnow⟩ := Option.bind_eq_some_iff.1 hoccupant
  obtain ⟨s₀, hs₀, hstands⟩ := h.seats.stands _ s hs
  rw [hstands.eq_none hnow] at hstands
  cases hstands with
  | seated before now aged inbox =>
      have hevaluator := hranked.evaluator
      rw [occupant_eq hs₀, before] at hevaluator
      cases hevaluator
      cases now.symm.trans hnow
      exact aged.of_evaluator

/-- The tree receives the reports of its root, and no others. -/
theorem Regular.controlOf_eq_tree (hwired : Wired a₀)
    (h : Regular a₀ ⟨going, a⟩) {id : TaskId} (hspeaks : Speaks going id) :
    a.controlOf id = some .tree ↔ a.root = some id := by
  have hroot : a.root = a₀.root := h.links.root
  rw [hroot]
  rcases h.stacked.speaker hspeaks with rfl | hturn
  · refine ⟨fun hcontrol => ?_, fun heq => absurd rfl (hwired.root _ heq).1⟩
    rw [h.anchored.mute] at hcontrol
    cases hcontrol
  · rw [h.turns id hturn, Option.some.injEq]
    refine ⟨fun hreceiver => ?_, receiver_root⟩
    refine Classical.byContradiction fun hne => ?_
    rw [receiver, if_neg hne] at hreceiver
    cases hparent : a₀.parentOf id <;> rw [hparent] at hreceiver
      <;> cases hreceiver

/-- Whose report somebody else or nobody receives, is not the root. -/
theorem Regular.root_ne (hwired : Wired a₀) (h : Regular a₀ ⟨going, a⟩)
    {id : TaskId} (hspeaks : Speaks going id) {control : Option Control}
    (hcontrol : a.controlOf id = control) (hother : control ≠ some .tree) :
    a₀.root ≠ some id := by
  intro hroot
  refine hother (hcontrol.symm.trans ?_)
  exact (h.controlOf_eq_tree hwired hspeaks).2 (h.links.root.trans hroot)

omit [Behavior E T] in
/-- Kept reports are the same number of reports. -/
theorem Keeps.reportsOf (h : Keeps Slot.reports a a') (id : TaskId) :
    a'.reportsOf id = a.reportsOf id :=
  congrArg (fun reports : Option Nat => reports.getD 0) (h id)

/-- The guard evaluator lets reports pass. By induction on the budget. There is
at most one report to answer, and the evaluator does nothing in its hook. -/
theorem answer_evaluator {b : Nat} {delta : Float32}
    (h : answer b delta .evaluator .evaluator a = some a') :
    (∃ aside, a'.entries = a.entries ++ aside ∧ (∀ entry ∈ aside, entry.Aside)
        ∧ aside.filterMap Entry.settled? = [])
      ∧ a'.fault = a.fault ∧ a'.listeners = a.listeners
      ∧ Keeps Slot.reports a a'
      ∧ Keeps Slot.status a a' := by
  induction b generalizing a with
  | zero =>
      rw [answer] at h
      cases h
  | succ b ih =>
      simp only [answer] at h
      split at h
      -- The inbox is empty, and the evaluator goes back to its slot.
      · rename_i a₁ htake
        obtain ⟨hrest, -⟩ :=
          takeReport_none (congrArg Prod.fst htake) (.evaluator : Occupant T)
        rw [htake] at hrest
        obtain rfl := Option.some.inj h
        rw [hrest]
        exact ⟨⟨[], (List.append_nil _).symm, List.forall_mem_nil _, rfl⟩, rfl,
          rfl, keeps_rest _ _ _ (fun _ _ _ => rfl),
            keeps_rest _ _ _ fun _ _ _ => rfl⟩
      · rename_i report a₁ htake
        unfold takeReport at htake
        split at htake
        · cases htake
        · obtain ⟨-, rfl⟩ := Prod.mk.inj htake
          -- The report is taken, which only adds the call and the return of a
          -- hook.
          obtain ⟨⟨aside, hentries, haside, hsettled⟩, hfault, hlisteners,
            hreports, hstatus⟩ := ih h
          refine ⟨⟨.called .evaluator (.respond report.outcome report.child)
            :: .returned .evaluator :: aside, ?_, ?_, hsettled⟩, hfault,
            hlisteners, (keeps_taken a _ fun _ _ => rfl).trans hreports,
            (keeps_taken a _ fun _ _ => rfl).trans hstatus⟩
          · rw [hentries, entries_log, entries_log, List.append_assoc,
              List.append_assoc]
            rfl
          · intro entry hentry
            rcases List.mem_cons.1 hentry with rfl | hentry
            · exact .called report
            rcases List.mem_cons.1 hentry with rfl | hentry
            · exact .returned
            · exact haside entry hentry

-- ====================================================== what is reported

omit [Behavior E T] in
/-- Speaking counts one report of the speaker. -/
theorem reportsOf_spoken {id : TaskId} (hid : (a.slot? id).isSome = true)
    (outcome : Outcome) (x : TaskId) :
    (a.spoken id outcome).reportsOf x
      = if x = id then a.reportsOf id + 1 else a.reportsOf x := by
  obtain ⟨s, hs⟩ := Option.isSome_iff_exists.1 hid
  rw [reportsOf, slot?_spoken]
  split
  · rw [reportsOf, hs]
    rfl
  · rfl

omit [Behavior E T] in
/-- So does counting the report alone. -/
theorem reportsOf_countReport {id : TaskId} (hid : (a.slot? id).isSome = true)
    (outcome : Outcome) (x : TaskId) :
    (a.countReport id outcome).reportsOf x
      = if x = id then a.reportsOf id + 1 else a.reportsOf x := by
  have hkeeps : Keeps Slot.reports (a.countReport id outcome)
      (a.spoken id outcome) :=
    .modify (a.countReport id outcome) id fun _ => rfl
  rw [← hkeeps.reportsOf, reportsOf_spoken hid]

omit [Behavior E T] in
/-- Where everybody stands after a report. -/
theorem stands_spoken {id : TaskId} (hid : (a.slot? id).isSome = true)
    (outcome : Outcome) (x : TaskId) :
    (a.spoken id outcome).statusOf x
      = if x = id then outcome.status else a.statusOf x := by
  split
  · rename_i hx
    subst hx
    rw [statusOf_spoken hid, if_pos rfl]
  · rename_i hx
    rw [statusOf, slot?_spoken, if_neg hx]
    rfl

/-- A first report that goes to a task which is in its slot. That is the guard
evaluator, and nothing comes of it. -/
theorem Regular.tells_seated (hwired : Wired a₀) (hranked : Ranked a₀)
    (h : Regular a₀ ⟨going, a⟩) {id controller : TaskId}
    (hspeaks : Speaks going id) {b : Nat} {delta : Float32} {outcome : Outcome}
    {occupant : Occupant T} (hslot : (a.slot? id).isSome = true)
    (hfault : a.fault = none) (hreports : a.reportsOf id = 0)
    (hcontrol : a.controlOf id = some (.task controller))
    (hseated : ((a.spoken id outcome).post controller id outcome).occupantOf
      controller = some occupant) (hrun : answer b delta controller occupant
      (((a.spoken id outcome).post controller id outcome).vacate controller)
        = some a') :
    ∃ news, Tells a₀ a id outcome news a' := by
  have hlaw := h.report hspeaks outcome
  have hseated' := (occupantOf_post _ _ _ _ _).symm.trans hseated
  -- The receiver is at its seat, so it is the evaluator.
  obtain rfl :=
    hlaw.handed hwired hspeaks ((controlOf_spoken ..).trans hcontrol) hseated'
  obtain rfl := hlaw.evaluator hranked hseated'
  obtain ⟨⟨aside, hentries, haside, hsettled⟩, hafter, hlisteners, hkeeps,
    hstatus⟩ :=
    answer_evaluator hrun
  refine ⟨_,
    .first hfault hreports haside ?_ (hafter.trans hfault)
      hlisteners (fun x => ?_)
    (fun x => ?_) ?_⟩
  · rw [hentries, ← List.append_assoc, ← entries_spoken a id outcome]
    rfl
  -- Neither the posting nor the answer touches the counts.
  · have hposted : Keeps Slot.reports (a.spoken id outcome)
        ((a.spoken id outcome).post .evaluator id outcome) :=
      keeps_post _ _ _ _ fun _ _ => rfl
    have hvacated : Keeps Slot.reports
        ((a.spoken id outcome).post .evaluator id outcome)
        (((a.spoken id outcome).post .evaluator id outcome).vacate
          .evaluator) :=
      keeps_vacate _ _ fun _ _ => rfl
    rw [hkeeps.reportsOf, hvacated.reportsOf, hposted.reportsOf,
      reportsOf_spoken hslot, hreports]
  -- Nor the statuses.
  · have hposted : Keeps Slot.status (a.spoken id outcome)
        ((a.spoken id outcome).post .evaluator id outcome) :=
      keeps_post _ _ _ _ fun _ _ => rfl
    have hvacated : Keeps Slot.status
        ((a.spoken id outcome).post .evaluator id outcome)
        (((a.spoken id outcome).post .evaluator id outcome).vacate
          .evaluator) :=
      keeps_vacate _ _ fun _ _ => rfl
    rw [hstatus.statusOf, hvacated.statusOf, hposted.statusOf,
      stands_spoken hslot]
  · rw [hsettled, if_neg (h.root_ne hwired hspeaks hcontrol nofun)]

/-- The report of a task that has its turn. -/
theorem Regular.tells (hwired : Wired a₀) (hranked : Ranked a₀)
    (h : Regular a₀ ⟨going, a⟩) {id : TaskId} (hspeaks : Speaks going id)
    (hturn : .turn id ∈ going) {b : Nat} {delta : Float32} {outcome : Outcome}
    (hrun : transition b delta id outcome a = some a') :
    ∃ news, Tells a₀ a id outcome news a' := by
  have hslot : (a.slot? id).isSome = true := by
    obtain ⟨s, hs, -⟩ := Option.bind_eq_some_iff.1 (h.turns id hturn)
    exact Option.isSome_iff_exists.2 ⟨s, hs⟩
  have hspoken := entries_spoken a id outcome
  have hquiet : ∀ entry ∈ [], Entry.Aside entry := List.forall_mem_nil _
  have hreports' := reportsOf_spoken hslot outcome
  have hstatuses := stands_spoken hslot outcome
  cases b with
  | zero =>
      rw [transition] at hrun
      cases hrun
  | succ b =>
      -- In the order of the code: a pending fault, a second report, and then by
      -- who controls the task.
      simp only [transition] at hrun
      split at hrun
      · rename_i hgoes
        cases hrun
        exact ⟨_, .unheard (Option.isSome_iff_ne_none.1 hgoes)⟩
      rename_i hgoes
      have hfault : a.fault = none := Option.not_isSome_iff_eq_none.1 hgoes
      rw [reportsOf_countReport hslot, if_pos rfl] at hrun
      split at hrun
      · rename_i hagain
        cases hrun
        have hname :=
          (keeps_countReport a id outcome (p := Slot.name) fun _ _ =>
              rfl).nameOf id
        rw [hname, h.links.nameOf]
        exact ⟨_, .again hfault (by omega)⟩
      rename_i hfirst
      have hnone : a.reportsOf id = 0 := by omega
      rw [hnone] at hreports'
      rw [show ((a.countReport id outcome).setStatus id outcome).controlOf id
          = a.controlOf id from
        controlOf_spoken a id outcome id] at hrun
      split at hrun
      -- Nobody controls the task, and nobody hears of the report.
      · rename_i hcontrol
        cases hrun
        refine ⟨_,
          .first hfault hnone hquiet ?_ hfault rfl hreports' hstatuses ?_⟩
        · rw [List.append_nil]
          exact hspoken
        · rw [if_neg
              (h.root_ne hwired hspeaks hcontrol (Option.some_ne_none _).symm)]
          rfl
      -- The tree does, and settles.
      · rename_i hcontrol
        have hroot : a₀.root = some id :=
          h.links.root.symm.trans
            ((h.controlOf_eq_tree hwired hspeaks).1 hcontrol)
        cases hrun
        have haside : ∀ entry ∈ [Entry.settled a.status outcome.status],
            entry.Aside := by
          intro entry hentry
          rw [List.mem_singleton.1 hentry]
          exact .settled _ _
        refine ⟨_,
          .first hfault hnone haside ?_ hfault rfl hreports' hstatuses ?_⟩
        · rw [← List.append_assoc, ← hspoken]
          exact entries_log ..
        · rw [if_pos hroot]
          rfl
      -- A task does. If it is at its seat it answers at once; if not, the
      -- report waits in its inbox.
      · rename_i controller hcontrol
        split at hrun
        · rename_i occupant hseated
          exact h.tells_seated hwired hranked hspeaks hslot hfault hnone
            hcontrol hseated hrun
        · cases hrun
          have hposted : Keeps Slot.reports (a.spoken id outcome)
              ((a.spoken id outcome).post controller id outcome) :=
            keeps_post _ _ _ _ fun _ _ => rfl
          have hkept : Keeps Slot.status (a.spoken id outcome)
              ((a.spoken id outcome).post controller id outcome) :=
            keeps_post _ _ _ _ fun _ _ => rfl
          refine ⟨_,
            .first hfault hnone hquiet ?_ hfault rfl (fun x => ?_)
              (fun x => ?_) ?_⟩
          · rw [List.append_nil]
            exact hspoken
          · rw [← hreports' x]
            exact hposted.reportsOf x
          · rw [← hstatuses x]
            exact hkept.statusOf x
          · rw [if_neg (h.root_ne hwired hspeaks hcontrol (by simp))]
            rfl

-- =================================================== functions as runs

/-- What the functions of a step do within the budget `b` are runs. -/
structure Runs (a₀ : Arena E T) (b : Nat) : Prop where
  /-- To drive a task is a run of it. -/
  drive : ∀ {delta id control} {a a' : Arena E T} {going},
    Regular a₀ ⟨going, a⟩ →
    OutBefore going id.index → Driven a going id control →
    Arena.drive b delta id control a = some a' →
      ∃ news, Run a₀ (.drive id true) a news a'
  /-- So is an update, -/
  update : ∀ {delta id} {a a' : Arena E T} {going},
    Regular a₀ ⟨.turn id :: going, a⟩ →
    OutBefore going id.index → id ≠ .evaluator →
      Arena.update b delta id a = some a' →
    ∃ news, Run a₀ (.update id) a news a'
  /-- a consultation of the guards, -/
  consult : ∀ {delta id admitted task} {a a' : Arena E T} {going},
    Regular a₀ ⟨.turn task :: going, a⟩ → OutBefore going (id.index + 1) →
      a.fault = none →
    Arena.consult b delta id a = some (admitted, a') →
      ∃ news, Run a₀ (.consult id admitted) a news a'
  /-- a call -/
  attend : ∀ {delta id call} {a a' : Arena E T} {going},
    call = .start ∨ call = .update →
    Regular a₀ ⟨.turn id :: going, a⟩ → OutBefore going id.index →
      id ≠ .evaluator →
    Arena.attend b delta id call a = some a' →
      ∃ news, Run a₀ (.attend id call) a news a'
  /-- and the answers that follow it. -/
  answer : ∀ {delta id occupant} {a a' : Arena E T} {going},
    Regular a₀ ⟨.between id occupant :: going, a⟩ → .turn id ∈ going →
      OutBefore going id.index →
    Arena.answer b delta id occupant a = some a' →
      ∃ news, Run a₀ (.answer id occupant) a news a'

variable {b : Nat} (hready : Ready a₀) (hranked : Ranked a₀)

include hready hranked

/-- A hook runs to its end. By induction along the hook, with the arena general.
What was done before keeps the arena regular, so the rest of the hook starts
from a regular one. -/
theorem Runs.perform (h : Runs a₀ b) {delta : Float32} {id : TaskId}
    {occupant : Occupant T} (hturn : .turn id ∈ going)
    (hout : OutBefore going id.index) (hook : Hook E (Occupant T))
    {left : Occupant T} (hlaw : Regular a₀ ⟨.hook id occupant :: going, a⟩)
      (hperform :
        perform (Arena.transition b delta id)
          (fun child => Arena.drive b delta child (.task id)) delta id hook a
            = some (left, a')) :
    ∃ news, Run a₀ (.perform id hook left) a news a' := by
  have hcourses : Courses E T b := courses b
  induction hook generalizing a with
  | done task =>
      cases hperform
      exact ⟨_, .done⟩
  | report outcome next ih =>
      obtain ⟨a₁, hreport, hnext⟩ := Option.bind_eq_some_iff.1 hperform
      obtain ⟨tidings, htells⟩ :=
        hlaw.tells hready.wired hranked .hook
          (List.mem_cons_of_mem _ hturn) hreport
      obtain ⟨news, hrun⟩ :=
        ih (hlaw.course hready.wired (hcourses.transition .hook hreport)) hnext
      exact ⟨_, .told htells hrun⟩
  | runChild index next ih =>
      simp only [Arena.perform] at hperform
      split at hperform
      · rename_i child hchild
        obtain ⟨a₁, hdrive, hnext⟩ := Option.bind_eq_some_iff.1 hperform
        -- Whoever is out of its slot stands before the child, this task
        -- included.
        have hdriven : Driven a (.hook id occupant :: going) child (.task id) :=
          .child (List.mem_of_getElem? hchild)
        rw [hlaw.links.childrenOf] at hchild
        have hlt := hranked.child _ _ (List.mem_of_getElem? hchild)
        obtain ⟨driven, hrun⟩ :=
          h.drive hlaw ((hout.hook occupant).mono hlt) hdriven hdrive
        obtain ⟨news, hrest⟩ :=
          ih (hlaw.course hready.wired (hcourses.drive hdriven hdrive)) hnext
        exact ⟨_, .drove hchild hrun hrest⟩
      · rename_i hnone
        rw [hlaw.links.nameOf] at hperform
        have hbreach : Move (⟨.hook id occupant :: going, a⟩ : Scene E T)
            ⟨.hook id occupant :: going,
              a.raise (.missingChild id (a₀.nameOf id) index)⟩ := by
          rw [← hlaw.links.nameOf]
          exact .breach (.missingChild hnone)
        obtain ⟨news, hrun⟩ := ih (hlaw.move hready.wired hbreach) hperform
        exact ⟨_, .missed hrun⟩
  | look next ih =>
      obtain ⟨news, hrun⟩ := ih _ hlaw hperform
      exact ⟨_, .looked _ hrun⟩
  | write board next ih =>
      obtain ⟨news, hrun⟩ := ih (hlaw.move hready.wired (.write board)) hperform
      exact ⟨_, .wrote hrun⟩
  | draw next ih =>
      obtain ⟨news, hrun⟩ := ih _ (hlaw.move hready.wired .roll) hperform
      exact ⟨_, .drew hrun⟩

/-- A called task runs its hook and then answers its children. -/
theorem Runs.calls (h : Runs a₀ b) {delta : Float32} {id : TaskId} {call : Call}
    {occupant : Occupant T} (hturn : .turn id ∈ going)
    (hout : OutBefore going id.index)
    (hlaw : Regular a₀ ⟨.hook id occupant :: going, a⟩)
      (hrun :
        ((Arena.perform (Arena.transition b delta id)
          (fun child => Arena.drive b delta child (.task id)) delta id
          (call.hook occupant) a).bind
        fun ended => Arena.answer b delta id ended.1
        (ended.2.log (.returned id))) = some a') :
    ∃ left a₁ news answers,
      Run a₀ (.perform id (call.hook occupant) left) a news a₁
      ∧ Run a₀ (.answer id left) (a₁.log (.returned id)) answers a' := by
  obtain ⟨⟨left, a₁⟩, hperform, hanswer⟩ := Option.bind_eq_some_iff.1 hrun
  obtain ⟨news, hhook⟩ := h.perform hready hranked hturn hout _ hlaw hperform
  have hended : Course ⟨.hook id occupant :: going, a⟩
      ⟨.hook id occupant :: going, a₁⟩
      ∧ (call.hook occupant).Leaves left := (courses b).perform _ hperform
  have hlaw₁ :=
    (hlaw.course hready.wired hended.1).move hready.wired (.return hended.2)
  obtain ⟨answers, hrest⟩ := h.answer hlaw₁ hturn hout hanswer
  exact ⟨_, _, _, _, hhook, hrest⟩

/-- A call in a larger budget is a run. -/
theorem Runs.succ_attend (h : Runs a₀ b) {delta : Float32} {id : TaskId}
    {call : Call} (hcall : call = .start ∨ call = .update)
    (hlaw : Regular a₀ ⟨.turn id :: going, a⟩) (hout : OutBefore going id.index)
    (hid : id ≠ .evaluator)
    (hrun : Arena.attend (b + 1) delta id call a = some a') :
    ∃ news, Run a₀ (.attend id call) a news a' := by
  simp only [Arena.attend] at hrun
  split at hrun
  · rename_i hgoes
    cases hrun
    exact ⟨_, .skipped (Option.isSome_iff_ne_none.1 hgoes)⟩
  · rename_i hgoes
    have hfault : a.fault = none := Option.not_isSome_iff_eq_none.1 hgoes
    obtain ⟨⟨occupant, hoccupant⟩, hinbox⟩ := hlaw.seated hout hid
    rw [hoccupant] at hrun
    obtain ⟨left, a₁, news, answers, hhook, hanswer⟩ :=
      h.calls hready hranked List.mem_cons_self hout
        (hlaw.move hready.wired (.call hfault hcall hoccupant)) hrun
    exact ⟨_, .called hfault hinbox hhook hanswer⟩

/-- Answers in a larger budget are a run. -/
theorem Runs.succ_answer (h : Runs a₀ b) {delta : Float32} {id : TaskId}
    {occupant : Occupant T}
    (hlaw : Regular a₀ ⟨.between id occupant :: going, a⟩)
    (hturn : .turn id ∈ going) (hout : OutBefore going id.index)
    (hrun : Arena.answer (b + 1) delta id occupant a = some a') :
    ∃ news, Run a₀ (.answer id occupant) a news a' := by
  simp only [Arena.answer] at hrun
  split at hrun
  · rename_i a₁ htake
    cases hrun
    obtain ⟨hrest, -⟩ := takeReport_none (congrArg Prod.fst htake) occupant
    rw [htake] at hrest
    rw [hrest]
    exact ⟨_, .rested⟩
  -- There is a report, and the answer to it is one hook more.
  · rename_i report a₁ htake
    unfold takeReport at htake
    split at htake
    · cases htake
    · rename_i hfault
      obtain ⟨hnext, rfl⟩ := Prod.mk.inj htake
      obtain ⟨left, a₁, news, answers, hhook, hanswer⟩ :=
        h.calls hready hranked hturn hout
          (hlaw.move hready.wired (.respond hfault hnext)) hrun
      exact ⟨_, .answered hfault hnext hhook hanswer⟩

omit hready hranked in
/-- An update in a larger budget is a run. -/
theorem Runs.succ_update (h : Runs a₀ b) {delta : Float32} {id : TaskId}
    (hlaw : Regular a₀ ⟨.turn id :: going, a⟩) (hout : OutBefore going id.index)
    (hid : id ≠ .evaluator) (hrun : Arena.update (b + 1) delta id a = some a') :
    ∃ news, Run a₀ (.update id) a news a' := by
  simp only [Arena.update] at hrun
  obtain ⟨a₁, hattend, hend⟩ := Option.bind_eq_some_iff.1 hrun
  obtain ⟨news, hcalled⟩ := h.attend (.inr rfl) hlaw hout hid hattend
  have hcourse : Course ⟨.turn id :: going, a⟩ ⟨.turn id :: going, a₁⟩ :=
    (courses b).attend (.inr rfl) hattend
  have hlinks := hlaw.links.trans hcourse.sameLinks
  obtain rfl := Option.some.inj hend
  -- The end of the update looks whether there was a report.
  split
  · rename_i hgoes
    exact ⟨_, .updated hcalled fun hnone =>
        absurd hnone (Option.isSome_iff_ne_none.1 hgoes)⟩
  · rename_i hgoes
    have hfault : a₁.fault = none := Option.not_isSome_iff_eq_none.1 hgoes
    unfold checkReported
    split
    · rw [hlinks.nameOf]
      exact ⟨_, .silent hcalled hfault⟩
    · rename_i hreports
      exact ⟨_, .updated hcalled fun _ => hreports⟩

/-- A consultation in a larger budget is a run. -/
theorem Runs.succ_consult (h : Runs a₀ b) {delta : Float32} {id task : TaskId}
    {admitted : Bool} (hlaw : Regular a₀ ⟨.turn task :: going, a⟩)
    (hout : OutBefore going (id.index + 1)) (hfault : a.fault = none)
    (hrun : Arena.consult (b + 1) delta id a = some (admitted, a')) :
    ∃ news, Run a₀ (.consult id admitted) a news a' := by
  have hcourses : Courses E T b := courses b
  simp only [Arena.consult] at hrun
  split at hrun
  -- There is no guard.
  · rename_i hnone
    cases hrun
    exact ⟨_, .unguarded ((hlaw.links.guardOf id).symm.trans hnone)⟩
  rename_i guard hguard
  have hguard₀ : a₀.guardOf id = some guard :=
    (hlaw.links.guardOf id).symm.trans hguard
  have hlt := hranked.guard _ _ hguard₀
  have hout' : OutBefore going guard.index := hout.mono hlt
  have hne : guard ≠ .evaluator := (hready.wired.guard _ _ hguard₀).1
  -- The guard's own guard is asked first, while the same turn goes on.
  obtain ⟨⟨asked, a₁⟩, hasked, hrun⟩ := Option.bind_eq_some_iff.1 hrun
  obtain ⟨first, hfirst⟩ :=
    h.consult hlaw (hout'.mono (Nat.le_succ _)) hfault hasked
  have hconsult : Course ⟨.turn task :: going, a⟩ ⟨.turn task :: going, a₁⟩
      ∧ (asked = true → a₁.fault = none) := hcourses.consult hfault hasked
  obtain ⟨hcourse, hclear⟩ := hconsult
  have hlaw₁ := hlaw.course hready.wired hcourse
  dsimp only at hrun
  -- The guard behind the guard has refused it, or admits it to its turn.
  cases asked with
  | false =>
      cases hrun
      exact ⟨_, .overruled hguard₀ hfirst⟩
  | true =>
      obtain ⟨a₂, hstart, hrun⟩ := Option.bind_eq_some_iff.1 hrun
      obtain ⟨a₃, hupdate, hrun⟩ := Option.bind_eq_some_iff.1 hrun
      have hfault₁ : a₁.fault = none := hclear rfl
      rw [beginTurn_setControl] at hstart
      have hlaw₂ := hlaw₁.move hready.wired
        (.enter hfault₁ (.guard ((hlaw₁.links.guardOf id).trans hguard₀)))
      obtain ⟨started, hstarted⟩ := h.attend (.inl rfl) hlaw₂ hout' hne hstart
      have hlaw₃ :=
        hlaw₂.course hready.wired (hcourses.attend (.inl rfl) hstart)
      obtain ⟨news, hupdated⟩ := h.update hlaw₃ hout' hne hupdate
      have hlinks := (hlaw₃.course hready.wired (hcourses.update hupdate)).links
      have hturn : Run a₀ (.drive guard false) a₁ _ (a₃.endTurn guard) :=
        .turned hfault₁ hne (.entered _) (.tried hfault₁ hstarted hupdated)
      have hverdict := Option.some.inj hrun
      have hasked : (a₃.endTurn guard) = a' →
          ∃ news, Run a₀ (.consult id admitted) a news a' :=
        fun heq => ⟨_, .asked hguard₀ hfirst (heq ▸ hturn) (heq ▸ hverdict)⟩
      -- The verdict is read off the status with which the guard ends.
      unfold verdict at hverdict
      split at hverdict
      · exact hasked (Prod.mk.inj hverdict).2
      split at hverdict
      · exact hasked (Prod.mk.inj hverdict).2
      · exact hasked (Prod.mk.inj hverdict).2
      · cases hverdict
        have hname : (a₃.endTurn guard).nameOf guard = a₀.nameOf guard :=
          hlinks.nameOf guard
        rw [hname]
        exact ⟨_, .unsettled hguard₀ hfirst hturn⟩

/-- To drive a task in a larger budget is a run. -/
theorem Runs.succ_drive (h : Runs a₀ b) {delta : Float32} {id : TaskId}
    {control : Control} (hlaw : Regular a₀ ⟨going, a⟩)
    (hout : OutBefore going id.index) (hdriven : Driven a going id control)
    (hrun : Arena.drive (b + 1) delta id control a = some a') :
    ∃ news, Run a₀ (.drive id true) a news a' := by
  have hcourses : Courses E T b := courses b
  have hne := ((hdriven.congr hlaw.links).place hready.wired hlaw.stacked).1
  simp only [Arena.drive] at hrun
  split at hrun
  · rename_i hgoes
    cases hrun
    exact ⟨_, .idle (Option.isSome_iff_ne_none.1 hgoes)⟩
  rename_i hgoes
  have hfault : a.fault = none := Option.not_isSome_iff_eq_none.1 hgoes
  -- A running task goes on; any other has to be admitted.
  split at hrun
  · rename_i hrunning
    obtain ⟨a₁, hupdate, hrun⟩ := Option.bind_eq_some_iff.1 hrun
    cases hrun
    have hlaw₁ := hlaw.move hready.wired (.resume hfault hdriven hrunning)
    obtain ⟨news, hupdated⟩ := h.update hlaw₁ hout hne hupdate
    have hrunning₁ : (a.beginTurn id).statusOf id = .running :=
      ((keeps_beginTurn a id fun _ _ => rfl : Keeps Slot.status _ _).statusOf
          id).trans hrunning
    exact ⟨_, .turned hfault hne .resumed (.resumed hrunning₁ hupdated)⟩
  · rename_i hrunning
    obtain ⟨⟨admitted, a₁⟩, hasked, hrun⟩ := Option.bind_eq_some_iff.1 hrun
    have hkeeps : Keeps Slot.status a
        ((a.beginTurn id).setControl id control) :=
      (keeps_beginTurn a id fun _ _ => rfl).trans
        (keeps_setControl _ id control fun _ _ => rfl)
    have hidle : ((a.beginTurn id).setControl id control).statusOf id
        ≠ .running := by
      rw [hkeeps.statusOf]
      exact hrunning
    have hlaw₁ := hlaw.move hready.wired (.enter hfault hdriven)
    have hbegun : ((a.beginTurn id).setControl id control).fault = none :=
      hfault
    obtain ⟨first, hfirst⟩ :=
      h.consult hlaw₁ (hout.mono (Nat.le_succ _)) hbegun hasked
    have hconsult :
        Course ⟨.turn id :: going, (a.beginTurn id).setControl id control⟩
        ⟨.turn id :: going, a₁⟩ ∧ (admitted = true → a₁.fault = none) :=
      hcourses.consult hbegun hasked
    obtain ⟨hcourse, hclear⟩ := hconsult
    have hlaw₂ := hlaw₁.course hready.wired hcourse
    dsimp only at hrun
    -- It is started and updated, or its failure is reported.
    cases admitted with
    | true =>
        obtain ⟨a₂, hstart, hrun⟩ := Option.bind_eq_some_iff.1 hrun
        obtain ⟨a₃, hupdate, hrun⟩ := Option.bind_eq_some_iff.1 hrun
        cases hrun
        obtain ⟨started, hstarted⟩ := h.attend (.inl rfl) hlaw₂ hout hne hstart
        have hlaw₃ :=
          hlaw₂.course hready.wired (hcourses.attend (.inl rfl) hstart)
        obtain ⟨news, hupdated⟩ := h.update hlaw₃ hout hne hupdate
        exact ⟨_, .turned hfault hne (.entered control)
          (.admitted hidle hfirst (hclear rfl) hstarted hupdated)⟩
    | false =>
        obtain ⟨a₂, hrefused, hrun⟩ := Option.bind_eq_some_iff.1 hrun
        cases hrun
        obtain ⟨news, htells⟩ :=
          hlaw₂.tells hready.wired hranked .turn List.mem_cons_self hrefused
        exact ⟨_, .turned hfault hne (.entered control)
            (.refused hidle hfirst htells)⟩

omit hready hranked in
/-- Nothing comes to an end without a budget. -/
theorem runs_zero : Runs a₀ 0 where
  drive _ _ _ h := by
    rw [Arena.drive] at h
    cases h
  update _ _ _ h := by
    rw [Arena.update] at h
    cases h
  consult _ _ _ h := by
    rw [Arena.consult] at h
    cases h
  attend _ _ _ _ h := by
    rw [Arena.attend] at h
    cases h
  answer _ _ _ h := by
    rw [Arena.answer] at h
    cases h

/-- What the functions of a step do are runs. -/
theorem runs (b : Nat) : Runs a₀ b := by
  induction b with
  | zero => exact runs_zero
  | succ b ih =>
      exact ⟨ih.succ_drive hready hranked, ih.succ_update,
        ih.succ_consult hready hranked, ih.succ_attend hready hranked,
        ih.succ_answer hready hranked⟩

omit hready hranked in
/-- A step of a tree with a root is the run of driving the root, and then the
fault that it found, if it found one. -/
theorem step_run (hready : Ready a) (hranked : Ranked a) {delta : Float32}
    {root : TaskId} {result : Except Fault Status} (hroot : a.root = some root)
    (hstep : Arena.step b delta a = some (result, a')) :
    ∃ news a₁, Run (a.begun root delta) (.drive root true)
      (a.begun root delta) news a₁
      ∧ ((a₁.fault = none ∧ result = .ok a₁.status ∧ a' = a₁)
        ∨ ∃ fault, a₁.fault = some fault ∧ result = .error fault
          ∧ a' = { a₁ with fault := none }.log (.stepAborted fault)) := by
  have hbegun : Ready (a.begun root delta) := hready.congr rfl rfl rfl
  rw [Arena.step, hroot] at hstep
  -- The step is one run, and its end is told by the fault that is left.
  obtain ⟨a₁, hdrive, hend⟩ := Option.bind_eq_some_iff.1 hstep
  obtain ⟨news, hrun⟩ :=
    (runs hbegun (hranked.begun root delta) b).drive hbegun.regular
      (fun x hx => absurd rfl hx) (.root hroot) hdrive
  refine ⟨news, a₁, hrun, ?_⟩
  split at hend
  · rename_i fault hfault
    obtain ⟨rfl, rfl⟩ := Prod.mk.inj (Option.some.inj hend)
    exact .inr ⟨fault, hfault, rfl, rfl⟩
  · rename_i hfault
    obtain ⟨rfl, rfl⟩ := Prod.mk.inj (Option.some.inj hend)
    exact .inl ⟨hfault, rfl, rfl⟩

end Arena

end TaskTree
