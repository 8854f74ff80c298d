/-
Every report of a child is answered by its parent, once and in its order.

A report travels by mail, and from the report to its answer much may
happen: the parent's hook goes on and may run further children, or the same
child again, and so may the hooks with which it answers. What is exact
about this at every moment is the mail that has not been answered yet. As
long as no fault is found, the reports that the children of a task have
made are the ones that it has answered, followed by the ones in its inbox
(`Mailed`). Nobody has mail when a step is over, so then the answers are
exactly the reports.

`step_delivers` says this of every step that gives a status, and also when
the reports and answers happen: children report in turns that their
parent's hook has begun, no hook of a task begins while another one of it
is running, and no report is answered before it is made.
-/
import TaskTree.Proofs.Arena.Account
import TaskTree.Proofs.Arena.History

namespace TaskTree

/-- The report that an entry shows to be answered by a task. -/
def Entry.answers? (task : TaskId) : Entry → Option Report
  | .called id (.respond outcome child) =>
    if id = task then some { child, outcome } else none
  | _ => none

namespace Arena

variable {E T : Type}

/-- The report that an entry shows to be made by a child of a task, with the
position of the child. -/
def makes? (a : Arena E T) (task : TaskId) : Entry → Option Report
  | .reported id outcome =>
    ((a.childrenOf task).findIdx? (· = id)).map fun child => { child, outcome }
  | _ => none

/-- The reports that a task has answered. -/
def answered (task : TaskId) (entries : List Entry) : List Report :=
  entries.filterMap (Entry.answers? task)

/-- The reports that the children of a task have made. -/
def made (a : Arena E T) (task : TaskId) (entries : List Entry) : List Report :=
  entries.filterMap (a.makes? task)

/-- How the entries `during` of a step tell of the reports to a task. -/
structure Delivers (a : Arena E T) (task : TaskId)
    (during : List Entry) : Prop where
  /-- What is answered is what was reported, in this order. -/
  exact : answered task during = a.made task during
  /-- No hook of the task begins while another one is running. -/
  alone : ∀ before call after, during = before ++ .called task call :: after →
    .hook task ∉ ongoing before
  /-- No report is answered before it is made. -/
  later : ∀ before outcome child after,
    during = before ++ .called task (.respond outcome child) :: after →
      answered task before ++ [⟨child, outcome⟩] <+: a.made task before
  /-- Who reports has its turn, and the turn is part of a hook of the task. -/
  driven : ∀ before child outcome after, child ∈ a.childrenOf task →
    during = before ++ .reported child outcome :: after →
      ∃ outer, ongoing before = .turn child :: .hook task :: outer
        ∨ ongoing before = .hook child :: .turn child :: .hook task :: outer

-- ======================================================== entry by entry

/-- What an entry that follows the entries `before` has to respect. -/
def Fits (a : Arena E T) (before : List Entry) : Entry → Prop
  | .called task call => .hook task ∉ ongoing before
      ∧ (task ≠ .evaluator → ∀ outcome child, call = .respond outcome child →
        answered task before ++ [⟨child, outcome⟩] <+: a.made task before)
  | .reported child _ => ∀ task, child ∈ a.childrenOf task →
      ∃ outer, ongoing before = .turn child :: .hook task :: outer
        ∨ ongoing before = .hook child :: .turn child :: .hook task :: outer
  | _ => True

/-- Every entry respects what is before it. -/
def Orderly (a : Arena E T) (entries : List Entry) : Prop :=
  ∀ before entry after, entries = before ++ entry :: after → Fits a before entry

variable {a : Arena E T} {entries news : List Entry}

/-- No entries are in order. -/
theorem orderly_nil : Orderly a [] := by
  intro before entry after h
  cases before <;> cases h

/-- One more entry is in order if it fits behind the others. -/
theorem Orderly.concat (h : Orderly a entries) {entry : Entry}
    (hentry : Fits a entries entry) :
    Orderly a (entries ++ [entry]) := by
  intro before e after heq
  rcases List.eq_nil_or_concat after with rfl | ⟨rest, last, rfl⟩
  · obtain ⟨rfl, hlast⟩ := List.append_inj' heq rfl
    cases hlast
    exact hentry
  · rw [List.concat_eq_append, ← List.cons_append, ← List.append_assoc] at heq
    exact h before e rest (List.append_inj' heq rfl).1

/-- Entries that are neither calls nor reports fit everywhere. -/
theorem Orderly.append (h : Orderly a entries)
    (hnews : ∀ entry ∈ news, ∀ before, Fits a before entry) :
    Orderly a (entries ++ news) := by
  induction news generalizing entries with
  | nil =>
      rw [List.append_nil]
      exact h
  | cons entry rest ih =>
      rw [List.append_cons]
      exact ih (h.concat (hnews entry List.mem_cons_self _))
        fun e he => hnews e (List.mem_cons_of_mem _ he)

-- ======================================================== at every moment

/-- What a task has to answer. -/
def inboxOf (a : Arena E T) (id : TaskId) : List Report :=
  ((a.slot? id).map (·.inbox)).getD []

/-- An inbox that is kept is the same inbox. -/
theorem Keeps.inboxOf {a a' : Arena E T} (h : Keeps Slot.inbox a a')
    (id : TaskId) :
    a'.inboxOf id = a.inboxOf id :=
  congrArg (fun inbox : Option (List Report) => inbox.getD []) (h id)

/-- The reports of a task's children are the ones that it has answered and
the ones that it still has to answer. -/
def Mailed (a₀ a : Arena E T) (entries : List Entry) : Prop :=
  ∀ task, task ≠ .evaluator →
    a₀.made task entries = answered task entries ++ a.inboxOf task

/-- The reports of two stretches are those of the first and those of the
second. -/
theorem made_append (a : Arena E T) (task : TaskId)
    (entries news : List Entry) :
    a.made task (entries ++ news) = a.made task entries ++ a.made task news :=
  List.filterMap_append ..

/-- So are the answers. -/
theorem answered_append (task : TaskId) (entries news : List Entry) :
    answered task (entries ++ news)
      = answered task entries ++ answered task news :=
  List.filterMap_append ..

/-- No mail comes or goes. -/
theorem Mailed.keep {a₀ a a' : Arena E T} (h : Mailed a₀ a entries)
    (hkeeps : Keeps Slot.inbox a a') (hmade : ∀ task, a₀.made task news = [])
    (hanswered : ∀ task, answered task news = []) :
    Mailed a₀ a' (entries ++ news) := by
  intro task htask
  rw [made_append, answered_append, hmade, hanswered, List.append_nil,
    List.append_nil, hkeeps.inboxOf]
  exact h task htask

/-- Changing one slot changes one inbox. -/
theorem inboxOf_modify (a : Arena E T) (id x : TaskId) (f : Slot T → Slot T) :
    (a.modify id f).inboxOf x
      = if x = id then ((a.slot? id).map fun s => (f s).inbox).getD []
          else a.inboxOf x := by
  rw [inboxOf, slot?_modify]
  split
  · rw [Option.map_map]
    rfl
  · rfl

/-- Speaking alone puts nothing into an inbox; posting does. -/
theorem inboxOf_spoken (a : Arena E T) (id : TaskId) (outcome : Outcome)
    (x : TaskId) :
    (a.spoken id outcome).inboxOf x = a.inboxOf x :=
  (keeps_spoken a id outcome (fun _ _ => rfl) fun _ _ => rfl).inboxOf x

/-- A task takes its next report to answer it. The task itself answers the
report at the head of its inbox; for the others nothing happens. -/
theorem Mailed.take {a₀ a : Arena E T} (h : Mailed a₀ a entries) {id : TaskId}
    {report : Report} (hnext : a.nextReport id = some report) :
    Mailed a₀ (a.taken id)
      (entries ++ [.called id (.respond report.outcome report.child)])
      ∧ (id ≠ .evaluator →
        answered id entries ++ [report] <+: a₀.made id entries) := by
  obtain ⟨s, hs, hhead⟩ := Option.bind_eq_some_iff.1 hnext
  obtain ⟨rest, hinbox⟩ := List.head?_eq_some_iff.1 hhead
  have hself : a.inboxOf id = report :: rest := by
    rw [inboxOf, hs, Option.map_some, Option.getD_some, hinbox]
  refine ⟨fun task htask => ?_, fun hid => ?_⟩
  · have hold := h task htask
    have hmade : a₀.made task
        [.called id (.respond report.outcome report.child)] = [] := rfl
    rw [made_append, answered_append, hmade, List.append_nil, taken,
      inboxOf_modify]
    by_cases heq : task = id
    · subst heq
      have hanswered : answered task
          [.called task (.respond report.outcome report.child)]
          = [report] := List.filterMap_cons_some (if_pos rfl)
      rw [if_pos rfl, hs, Option.map_some, Option.getD_some, hinbox,
        List.tail_cons, hanswered, hold, hself, List.append_assoc,
        List.singleton_append]
    · have hanswered : answered task
          [.called id (.respond report.outcome report.child)] = [] :=
        List.filterMap_cons_none (if_neg fun h => heq h.symm)
      rw [if_neg heq, hanswered, hold, List.append_nil]
  · rw [h id hid, hself]
    exact ⟨rest, by rw [List.append_assoc, List.singleton_append]⟩

-- =============================================================== reports

/-- Nothing is answered among the tidings. -/
theorem answered_tidings (a : Arena E T) (task id : TaskId)
    (outcome : Outcome) :
    answered task (a.tidings id outcome) = [] := by
  refine List.filterMap_eq_nil_iff.2 fun entry hentry => ?_
  simp only [tidings, List.mem_cons, List.mem_map] at hentry
  rcases hentry with rfl | rfl | ⟨who, -, rfl⟩ <;> rfl

/-- The only report of the tidings is the one that is spoken. -/
theorem made_tidings (a₀ a : Arena E T) (task id : TaskId) (outcome : Outcome) :
    a₀.made task (a.tidings id outcome)
      = (a₀.makes? task (.reported id outcome)).toList := by
  have hrest : (Entry.statusSet id (a.nameOf id) (a.statusOf id) outcome.status
      :: a.listeners.map fun who =>
        .told who
          (.status id (a.nameOf id) (a.statusOf id) outcome.status)).filterMap
          (a₀.makes? task) = [] := by
    refine List.filterMap_eq_nil_iff.2 fun entry hentry => ?_
    simp only [List.mem_cons, List.mem_map] at hentry
    rcases hentry with rfl | ⟨who, -, rfl⟩ <;> rfl
  rw [made, tidings, List.filterMap_cons, hrest]
  cases a₀.makes? task (.reported id outcome) <;> rfl

/-- A child's outcome is a report to its parent. -/
theorem makes?_of_mem {a : Arena E T} {id task : TaskId}
    (h : id ∈ a.childrenOf task) (outcome : Outcome) :
    a.makes? task (.reported id outcome)
      = some ⟨a.childIndex task id, outcome⟩ := by
  have hsome : ((a.childrenOf task).findIdx? (· = id)).isSome = true := by
    rw [List.findIdx?_isSome, List.any_eq_true]
    exact ⟨id, h, decide_eq_true rfl⟩
  obtain ⟨index, hindex⟩ := Option.isSome_iff_exists.1 hsome
  rw [makes?, childIndex, hindex]
  rfl

/-- It is none to anybody else. -/
theorem makes?_of_not_mem {a : Arena E T} {id task : TaskId}
    (h : id ∉ a.childrenOf task) (outcome : Outcome) :
    a.makes? task (.reported id outcome) = none := by
  have hnone : (a.childrenOf task).findIdx? (· = id) = none := by
    refine List.findIdx?_eq_none_iff.2 fun c hc => decide_eq_false fun heq =>
      h ?_
    exact heq ▸ hc
  rw [makes?, hnone, Option.map_none]

/-- A child's report is put into its parent's inbox. The parent has one report
more to answer, at the end of its inbox. Nobody else has the child. -/
theorem Mailed.post {a₀ a : Arena E T} (h : Mailed a₀ a entries)
    {id parent : TaskId} (hlinks : SameLinks a₀ a) (hwired : Wired a₀)
    (hchild : id ∈ a₀.childrenOf parent) (outcome : Outcome) :
    Mailed a₀ ((a.spoken id outcome).post parent id outcome)
      (entries ++ a.tidings id outcome) := by
  intro task htask
  have hspoken : SameLinks a₀ (a.spoken id outcome) :=
    hlinks.trans (sameLinks_spoken ..)
  have hindex : (a.spoken id outcome).childIndex parent id
      = a₀.childIndex parent id := by
    rw [childIndex, childIndex, hspoken.childrenOf]
  have hinbox : Keeps Slot.inbox a (a.spoken id outcome) :=
    keeps_spoken _ _ _ (fun _ _ => rfl) fun _ _ => rfl
  rw [made_append, answered_append, answered_tidings, made_tidings,
    List.append_nil, Arena.post, inboxOf_modify, hindex, h task htask]
  by_cases heq : task = parent
  · subst heq
    have hslot : ∃ s, (a.spoken id outcome).slot? task = some s := by
      refine Option.isSome_iff_exists.1 ((hspoken.isSome task).trans ?_)
      cases hnone : a₀.slot? task with
      | some s => rfl
      | none =>
          rw [childrenOf, hnone] at hchild
          cases hchild
    obtain ⟨s, hs⟩ := hslot
    have hself : a.inboxOf task = s.inbox := by
      rw [← hinbox.inboxOf, inboxOf, hs, Option.map_some, Option.getD_some]
    rw [if_pos rfl, hs, makes?_of_mem hchild, hself, List.append_assoc]
    rfl
  · have hother : id ∉ a₀.childrenOf task := fun hmem =>
      heq (Option.some.inj
          ((hwired.child _ _ hmem).2.symm.trans (hwired.child _ _ hchild).2))
    rw [if_neg heq, makes?_of_not_mem hother, hinbox.inboxOf,
      Option.toList_none, List.append_nil]

/-- The report of a task that is the child of nobody. -/
theorem Mailed.spoken {a₀ a a' : Arena E T} (h : Mailed a₀ a entries)
    {id : TaskId} (hid : ∀ parent, id ∉ a₀.childrenOf parent)
    {outcome : Outcome}
    (hinbox : ∀ task, task ≠ .evaluator → a'.inboxOf task = a.inboxOf task) :
    Mailed a₀ a' (entries ++ a.tidings id outcome) := by
  intro task htask
  rw [made_append, answered_append, answered_tidings, made_tidings,
    List.append_nil, makes?_of_not_mem (hid task), Option.toList_none,
    List.append_nil, hinbox task htask]
  exact h task htask

/-- What is ongoing is told entry by entry. -/
theorem ongoing_append (entries news : List Entry) :
    ongoing (entries ++ news) = news.foldl Entry.opens (ongoing entries) :=
  List.foldl_append ..

/-- A hook that is open is a hook of a task that is out of its slot. By
induction down the stack: a hook holds its task for as long as it is ongoing,
and so does the pause behind it. -/
theorem held_of_mem_marks {going : List (Activity T)} {id : TaskId}
    (h : .hook id ∈ marks going) :
    held going id ≠ none := by
  induction going with
  | nil => cases h
  | cons first rest ih =>
      cases first with
      | turn other =>
          exact ih ((List.mem_cons.1 h).resolve_left fun heq => by cases heq)
      | hook other occupant =>
          rw [held]
          split
          · exact Option.some_ne_none _
          · rename_i hne
            refine ih ((List.mem_cons.1 h).resolve_left fun heq => hne ?_)
            cases heq
            rfl
      | between other occupant =>
          rw [held]
          split
          · exact Option.some_ne_none _
          · exact ih h

/-- Tidings are in order if the report that they begin with fits. -/
theorem Orderly.tidings {a₀ a : Arena E T} (h : Orderly a₀ entries)
    {id : TaskId} {outcome : Outcome}
    (hid : Fits a₀ entries (.reported id outcome)) :
    Orderly a₀ (entries ++ a.tidings id outcome) := by
  rw [Arena.tidings, List.append_cons]
  refine (h.concat hid).append fun entry hentry before => ?_
  rcases List.mem_cons.1 hentry with rfl | hentry
  · trivial
  · obtain ⟨who, -, rfl⟩ := List.mem_map.1 hentry
    trivial

variable [Behavior E T]

-- ============================================================= the moves

/-- Where the mail stands at a moment of a step that began in the arena
`a₀`. -/
structure Posted (a₀ : Arena E T) (s : Scene E T)
    (during : List Entry) : Prop where
  regular : Regular a₀ s
  ongoing : ongoing during = marks s.going
  orderly : Orderly a₀ during
  mailed : s.arena.fault = none → Mailed a₀ s.arena during

section

variable {a₀ a : Arena E T} {going : List (Activity T)} {during : List Entry}

/-- Who reports has its turn on behalf of its parent. A child speaks in its turn
or in a hook of its turn, and either way the turn was begun by the parent. -/
theorem Posted.fits (hwired : Wired a₀) (h : Posted a₀ ⟨going, a⟩ during)
    {id : TaskId} (hspeaks : Speaks going id) (outcome : Outcome) :
    Fits a₀ during (.reported id outcome) := by
  intro task hchild
  have hstacked := h.regular.stacked
  rw [h.ongoing]
  dsimp only at hstacked ⊢
  cases hspeaks with
  | turn =>
      obtain ⟨occupant, outer, rfl⟩ := hstacked.turn_child hwired hchild
      exact ⟨marks outer, .inl rfl⟩
  | hook =>
      cases hstacked with
      | hook _ outer =>
          obtain ⟨occupant, rest, rfl⟩ := outer.turn_child hwired hchild
          exact ⟨marks rest, .inr rfl⟩
      | evaluatorHook => exact absurd rfl (hwired.child_ne hchild)

/-- Who reports to nobody's inbox is nobody's child. -/
theorem Posted.orphan (hwired : Wired a₀) (h : Posted a₀ ⟨going, a⟩ during)
    {id : TaskId} (hspeaks : Speaks going id)
    (hcontrol : ∀ parent, parent ≠ .evaluator →
      a.controlOf id ≠ some (.task parent))
    (parent : TaskId) : id ∉ a₀.childrenOf parent := by
  intro hchild
  have hturn :=
    (h.regular.stacked.speaker hspeaks).resolve_left (hwired.child_ne hchild)
  refine hcontrol parent (hwired.child _ _ hchild).1 ?_
  rw [← hwired.receiver_child hchild]
  exact h.regular.turns id hturn

/-- A report that no inbox gets but the guard evaluator's. -/
theorem Posted.report {a' : Arena E T} {going' : List (Activity T)}
    (hwired : Wired a₀) (h : Posted a₀ ⟨going, a⟩ during)
    (hfault : a.fault = none) {id : TaskId} (hspeaks : Speaks going id)
    (outcome : Outcome)
    (hcontrol : ∀ parent, parent ≠ .evaluator →
      a.controlOf id ≠ some (.task parent)) (hregular : Regular a₀ ⟨going', a'⟩)
    (hmarks : marks going' = marks going)
    (hinbox : ∀ task, task ≠ .evaluator → a'.inboxOf task = a.inboxOf task) :
    Posted a₀ ⟨going', a'⟩ (during ++ a.tidings id outcome) where
  regular := hregular
  ongoing := by
    rw [ongoing_append, foldl_tidings (fun _ _ _ => rfl), h.ongoing]
    exact hmarks.symm
  orderly := h.orderly.tidings (h.fits hwired hspeaks outcome)
  mailed _ := (h.mailed hfault).spoken (h.orphan hwired hspeaks hcontrol) hinbox

/-- One entry that is neither a call nor a report. -/
theorem Posted.entry {a' : Arena E T} {going' : List (Activity T)}
    {entry : Entry} (h : Posted a₀ ⟨going, a⟩ during)
    (hregular : Regular a₀ ⟨going', a'⟩)
    (hmarks : entry.opens (marks going) = marks going')
    (hfits : Fits a₀ during entry) (hkeeps : Keeps Slot.inbox a a')
    (hfault : a'.fault = none → a.fault = none)
    (hmade : ∀ task, a₀.made task [entry] = [])
    (hanswered : ∀ task, answered task [entry] = []) :
    Posted a₀ ⟨going', a'⟩ (during ++ [entry]) where
  regular := hregular
  ongoing := by
    rw [ongoing_append, h.ongoing]
    exact hmarks
  orderly := h.orderly.concat hfits
  mailed hnone := (h.mailed (hfault hnone)).keep hkeeps hmade hanswered

omit [Behavior E T] in
/-- A fault that is raised is pending. -/
theorem raise_fault_ne (a : Arena E T) (fault : Fault) :
    (a.raise fault).fault ≠ none := by
  rw [raise]
  cases a.fault <;> exact fun h => nomatch h

/-- Every move keeps account of the mail. One case per move. Most of them write
one entry that is neither a report nor an answer; the others are the two halves
of a delivery. -/
theorem Posted.move (hwired : Wired a₀) {s s' : Scene E T}
    (h : Posted a₀ s during) (hmove : Move s s') :
    ∃ news, s'.arena.entries = s.arena.entries ++ news
      ∧ Posted a₀ s' (during ++ news) := by
  have hregular := h.regular.move hwired hmove
  cases hmove with
  | enter =>
      exact ⟨_, entries_log .., h.entry hregular rfl trivial
        ((keeps_beginTurn _ _ fun _ _ => rfl).trans
          (keeps_setControl _ _ _ fun _ _ => rfl)) id
        (fun _ => rfl) fun _ => rfl⟩
  | resume =>
      exact ⟨_, entries_log ..,
        h.entry hregular rfl trivial (keeps_beginTurn _ _ fun _ _ => rfl) id
        (fun _ => rfl) fun _ => rfl⟩
  | leave =>
      exact ⟨_, entries_log ..,
        h.entry hregular (List.erase_cons_head _ _) trivial (.refl _) id
        (fun _ => rfl) fun _ => rfl⟩
  | @call going a id call occupant hfault hcall hoccupant =>
      have hfree : .hook id ∉ TaskTree.ongoing during := by
        rw [h.ongoing]
        exact fun hmem =>
          held_of_mem_marks hmem (h.regular.seats.held_eq_none hoccupant)
      refine ⟨_, entries_log ..,
        h.entry hregular rfl ⟨hfree, fun _ outcome child heq => ?_⟩
        (keeps_vacate _ _ fun _ _ => rfl) (fun h => h) (fun _ => rfl)
        fun task => ?_⟩
      · rcases hcall with rfl | rfl <;> cases heq
      · rcases hcall with rfl | rfl <;> rfl
  -- The task answers the next report of its inbox.
  | @respond going a id occupant report hfault hnext =>
      obtain ⟨hmailed, hprefix⟩ := (h.mailed hfault).take hnext
      have hheld : held going id = none := h.regular.seats.apart.1
      have hfree : .hook id ∉ TaskTree.ongoing during := by
        rw [h.ongoing]
        intro hmem
        have hmarks : .hook id ∈ marks going := hmem
        exact held_of_mem_marks hmarks hheld
      refine ⟨_, entries_log .., hregular, ?_, h.orderly.concat ?_,
        fun _ => hmailed⟩
      · rw [ongoing_append, h.ongoing]
        rfl
      · refine ⟨hfree, fun hid outcome child heq => ?_⟩
        cases heq
        exact hprefix hid
  | «return» =>
      exact ⟨_, entries_log ..,
        h.entry hregular (List.erase_cons_head _ _) trivial (.refl _) id
        (fun _ => rfl) fun _ => rfl⟩
  -- A task comes to rest with an empty inbox, so nothing is lost.
  | @rest going a id occupant hnext =>
      refine ⟨[], (List.append_nil _).symm, ?_⟩
      rw [List.append_nil]
      refine ⟨hregular, h.ongoing, h.orderly, fun hfault task htask => ?_⟩
      rw [h.mailed hfault task htask, Arena.rest, inboxOf_modify]
      split
      · rename_i heq
        subst heq
        have hempty := hnext hfault
        rw [nextReport] at hempty
        rw [inboxOf]
        cases hslot : a.slot? task with
        | none => rfl
        | some s =>
            rw [hslot, Option.bind_some, List.head?_eq_none_iff] at hempty
            rw [Option.map_some, Option.getD_some, hempty]
            rfl
      · rfl
  | @unheard going a id outcome hfault hspeaks _ hcontrol =>
      rw [controlOf_spoken] at hcontrol
      exact ⟨_, entries_spoken a id outcome,
        h.report hwired hfault hspeaks outcome
        (fun parent _ heq => nomatch hcontrol.symm.trans heq) hregular rfl
        fun task _ => inboxOf_spoken a id outcome task⟩
  | @settle going a id outcome hfault hspeaks _ hcontrol =>
      rw [controlOf_spoken] at hcontrol
      have hspoken : Posted a₀ ⟨going, a.spoken id outcome⟩
          (during ++ a.tidings id outcome) :=
        h.report hwired hfault hspeaks outcome
          (fun parent _ heq => nomatch hcontrol.symm.trans heq)
          (h.regular.report hspeaks outcome) rfl fun task _ =>
            inboxOf_spoken a id outcome task
      refine ⟨a.tidings id outcome
          ++ [.settled (a.spoken id outcome).status outcome.status], ?_, ?_⟩
      · rw [← List.append_assoc, ← entries_spoken]
        exact entries_log ..
      · rw [← List.append_assoc]
        exact hspoken.entry hregular rfl trivial (.refl _) (fun h => h)
          (fun _ => rfl) fun _ => rfl
  | @post going a id controller outcome hfault hspeaks _ hcontrol haway =>
      rw [controlOf_spoken] at hcontrol
      refine ⟨_, entries_spoken a id outcome, ?_⟩
      -- The evaluator takes the report, or a parent does.
      rcases h.regular.receiving hwired hspeaks hcontrol with rfl | hchild
      · refine h.report hwired hfault hspeaks outcome
          (fun parent hne heq => hne ?_) hregular rfl fun task htask => ?_
        · cases hcontrol.symm.trans heq
          rfl
        · rw [Arena.post, inboxOf_modify, if_neg htask]
          exact inboxOf_spoken a id outcome task
      · refine ⟨hregular, ?_, h.orderly.tidings (h.fits hwired hspeaks outcome),
          fun _ => (h.mailed hfault).post h.regular.links hwired hchild outcome⟩
        rw [ongoing_append, foldl_tidings (fun _ _ _ => rfl), h.ongoing]
        rfl
  -- Only the evaluator is at its seat while a task that it controls has its
  -- turn.
  | @hand going a id controller outcome occupant hfault hspeaks _ hcontrol
        hseated =>
      have hspoken := h.regular.report hspeaks outcome
      rw [occupantOf_post] at hseated
      obtain rfl := hspoken.handed hwired hspeaks hcontrol hseated
      rw [controlOf_spoken] at hcontrol
      refine ⟨_, entries_spoken a id outcome,
        h.report hwired hfault hspeaks outcome
        (fun parent hne heq => hne ?_) hregular rfl fun task htask => ?_⟩
      · cases hcontrol.symm.trans heq
        rfl
      · rw [(keeps_vacate _ _ fun _ _ => rfl).inboxOf, Arena.post,
          inboxOf_modify, if_neg htask]
        exact inboxOf_spoken a id outcome task
  | @again going a id outcome hfault hspeaks =>
      refine ⟨[.reported id outcome,
        .raised (.secondReport id ((a.countReport id outcome).nameOf id))], ?_,
        hregular, ?_, ?_, fun hnone => absurd hnone (raise_fault_ne _ _)⟩
      · rw [List.append_cons]
        exact (entries_log ..).trans (congrArg (· ++ [_]) (entries_log a _))
      · rw [ongoing_append, h.ongoing]
        rfl
      · rw [List.append_cons]
        exact (h.orderly.concat (h.fits hwired hspeaks outcome)).concat trivial
  | breach =>
      refine ⟨_, entries_log .., hregular, ?_, h.orderly.concat trivial,
        fun hnone => absurd hnone (raise_fault_ne _ _)⟩
      rw [ongoing_append, h.ongoing]
      rfl
  | write | roll =>
      refine ⟨[], (List.append_nil _).symm, ?_⟩
      rw [List.append_nil]
      exact ⟨hregular, h.ongoing, h.orderly, h.mailed⟩

/-- A course keeps the books of the mail, since every move does. -/
theorem Posted.course (hwired : Wired a₀) {s s' : Scene E T}
    (h : Posted a₀ s during) (hcourse : Course s s') :
    ∃ news, s'.arena.entries = s.arena.entries ++ news
      ∧ Posted a₀ s' (during ++ news) := by
  induction hcourse with
  | refl => exact ⟨[], (List.append_nil _).symm, by rwa [List.append_nil]⟩
  | tail _ hmove ih =>
      obtain ⟨news, hnews, hposted⟩ := ih
      obtain ⟨later, hlater, hposted'⟩ := hposted.move hwired hmove
      exact ⟨news ++ later, by rw [hlater, hnews, List.append_assoc],
        by rwa [← List.append_assoc]⟩

/-- Nobody has mail in the beginning. -/
theorem Ready.posted {root : TaskId} {delta : Float32} (h : Ready a) :
    Posted a ⟨[], a.begun root delta⟩ [.stepBegan root delta] where
  regular :=
    have hbegun : Ready (a.begun root delta) := h.congr rfl rfl rfl
    { hbegun.regular with
      links := ⟨rfl, .refl _⟩
      seats := ⟨trivial, fun id t ht => hbegun.rest.seats.stands id t ht⟩
      stacked := .nothing
      turns := fun _ hid => nomatch hid }
  ongoing := rfl
  orderly := orderly_nil.concat trivial
  mailed _ task _ := by
    have hempty : (a.begun root delta).inboxOf task = [] := by
      rw [inboxOf]
      cases hslot : (a.begun root delta).slot? task with
      | none => rfl
      | some s => exact (h.rest.slots task s hslot).2
    rw [hempty]
    rfl

/-- When nothing is going on any more, everything is answered. -/
theorem Posted.delivers (h : Posted a₀ ⟨[], a⟩ during) (hfault : a.fault = none)
    {task : TaskId} (htask : task ≠ .evaluator) : Delivers a₀ task during := by
  -- At the end the inbox is empty: what was made has been answered.
  have hempty : a.inboxOf task = [] := by
    rw [inboxOf]
    cases hslot : a.slot? task with
    | none => rfl
    | some s => exact (h.regular.seats.home hslot).1
  refine ⟨?_, fun before call after heq => ?_,
    fun before outcome child after heq => ?_,
    fun before child outcome after hchild heq => ?_⟩
  · have hmailed := h.mailed hfault task htask
    rw [hempty, List.append_nil] at hmailed
    exact hmailed.symm
  · exact (h.orderly before _ after heq).1
  · exact (h.orderly before _ after heq).2 htask outcome child rfl
  · exact h.orderly before _ after heq task hchild

end

/-- In a step that gives a status, every task but the guard evaluator answers
exactly the reports that its children make in turns that its hooks have
begun, in their order and with their positions. -/
theorem step_delivers {a a' : Arena E T} {fine : Bool}
    (hhistory : History fine a) {budget : Nat} {delta : Float32}
    {status : Status} (hstep : step budget delta a = some (.ok status, a')) :
    ∃ during, a'.entries = a.entries ++ during
      ∧ ∀ task, task ≠ .evaluator → Delivers a task during := by
  have hready := hhistory.ready
  cases hroot : a.root with
  -- Without a root the step has no result.
  | none =>
      rw [step, hroot] at hstep
      cases hstep
  | some root =>
      obtain ⟨a₁, hcourse, hend⟩ := step_course hroot hstep
      rcases hend with ⟨hfault, -, rfl⟩ | ⟨fault, -, hresult, -⟩
      · obtain ⟨news, hnews, hposted⟩ :=
          hready.posted.course hready.wired hcourse
        refine ⟨[.stepBegan root delta] ++ news, ?_,
          fun task htask => hposted.delivers hfault htask⟩
        rw [hnews, ← List.append_assoc]
        exact congrArg (· ++ news) (entries_log a _)
      · cases hresult

/-- Tasks that run their children more than once: `leader` runs its first
child twice and its second child once before it answers any of them, and
runs the second one once more with its first answer. -/
inductive Eager where
  | leader (answers : Nat)
  | member (outcome : Outcome)

/-- A leader runs its two children and answers them; a member reports what it
was made with. -/
instance : Behavior Unit Eager where
  name _ := "eager"
  arity
    | .leader _ => .many
    | .member _ => .leaf
  start
    | .leader _ => .done (.leader 0)
    | .member outcome => .done (.member outcome)
  update
    | .leader answers =>
        .runChild 0 (.runChild 1 (.runChild 0 (.done (.leader answers))))
    | .member outcome => .report outcome (.done (.member outcome))
  respond _ _
    | .leader 0 => .runChild 1 (.report .running (.done (.leader 1)))
    | task => .done task
  rewind task := task

/-- A tree of such tasks. -/
def eager : Arena Unit Eager :=
  ofBlueprint (.node (.leader 0) none
      [.single (.member .succeeded), .single (.member .failed)]) () id

/-- Four reports, from two children and in two hooks, and four answers. -/
theorem step_delivers_eager :
    ∃ a', step 30 0 eager = some (.ok .running, a')
      ∧ ∃ during, a'.entries = eager.entries ++ during
      ∧ (⟨1⟩ : TaskId) ≠ .evaluator
        ∧ Delivers eager ⟨1⟩ during ∧ answered ⟨1⟩ during
          = [⟨0, .succeeded⟩, ⟨1, .failed⟩, ⟨0, .succeeded⟩, ⟨1, .failed⟩] := by
  have hhistory : History true eager := (History.empty () id).setRoot rfl
  obtain ⟨a', hstep⟩ : ∃ a', step 30 0 eager = some (.ok .running, a') :=
    ⟨_, rfl⟩
  have hall : (step 30 0 eager).map (fun r => answered ⟨1⟩ r.2.entries)
      = some [⟨0, .succeeded⟩, ⟨1, .failed⟩, ⟨0, .succeeded⟩,
        ⟨1, .failed⟩] := by decide
  obtain ⟨during, hduring, hdelivers⟩ := step_delivers hhistory hstep
  have hne : (⟨1⟩ : TaskId) ≠ .evaluator := by decide
  refine ⟨a', hstep, during, hduring, hne, hdelivers _ hne, ?_⟩
  rw [hstep, Option.map_some, hduring, answered_append] at hall
  exact Option.some.inj hall

end Arena

end TaskTree
